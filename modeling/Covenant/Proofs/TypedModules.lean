import Covenant.Proofs.Bodies

/-!
# Programs are read well typed

A module finds its own methods by name, and no two of them share one: the
method that a call names is the one whose body the module holds.
-/

namespace Covenant

/-- The nodes of a body of a well-typed module fit. -/
theorem Module.WellTyped.nodes_fit {declared : Declared} {declarations : List Variable}
    {module : Module} (typed : module.WellTyped declared declarations) {body : Body}
    (listed : body ∈ module.routines) :
    ∃ returns, body.block.WellTyped (module.vocabulary declared declarations) returns := by
  unfold Module.routines at listed
  split at listed
  · rename_i script found
    cases List.mem_singleton.mp listed
    exact ⟨script.returns, typed.script script found⟩
  · rcases List.mem_flatMap.mp listed with ⟨contract, held, member⟩
    rcases List.mem_map.mp member with ⟨decl, among, rfl⟩
    have found : contract ∈ module.content.contract? := Option.mem_toList.mp held
    exact ⟨decl.method.returns, (typed.methods contract found decl among).body⟩

/-- In a program that has been read, every node of every body fits. -/
theorem bodies_wellTyped {interface? : String → Option Interface} {source : String}
    {program : Program} {module : Module}
    (accepted : Program.read interface? source = .ok program)
    (listed : ∃ top ∈ program.modules, module ∈ top.inOrder) :
    (∀ contract ∈ module.content.contract?, ∀ decl ∈ contract.methods,
      ∀ node ∈ decl.body.nodes,
        node.Fits (module.vocabulary program.declared program.scopes.declarations)
          decl.method.returns) ∧
    ∀ script ∈ module.content.script?, ∀ node ∈ script.body.nodes,
      node.Fits (module.vocabulary program.declared program.scopes.declarations)
        script.returns := by
  rcases listed with ⟨top, among, inOrder⟩
  have typed := read_typed accepted top among module inOrder
  refine ⟨fun contract held decl member => ?_, typed.script⟩
  exact (typed.methods contract held decl member).body

/-! ## Sources -/

/-- A method with values of many types, some of which have to be converted. -/
def manyTypes : List String :=
  ["struct Point \x7b x:number; y:number; \x7d ",
    "contract test \x7b global total:number; event Moved:Point = \"moved\"; ",
    "public move(xs:number[], rate:decimal<2>):string \x7b ",
    "local p:Point = Struct.Point(xs[0], 2); p.x += total; xs[p.y] = -p.x; ",
    "if (p.y != 2) \x7b throw \"at \" + p.x; \x7d ",
    "for (local i:number = 0; i < 3; i += 1) \x7b total -= i; \x7d ",
    "switch (total) \x7b case 1: rate += 1; break; default: this.move(xs, 1.5); \x7d ",
    "emit Moved(@null, p); return total; \x7d \x7d"]

theorem bodies_wellTyped_manyTypes :
    ∃ program, ∃ module : Module, ∃ contract decl,
      Program.read (fun _ => none) (String.join manyTypes) = .ok program ∧
      (∃ top ∈ program.modules, module ∈ top.inOrder) ∧
      contract ∈ module.content.contract? ∧ decl ∈ contract.methods ∧
      45 < decl.body.nodes.length ∧
      ∀ node ∈ decl.body.nodes,
        node.Fits (module.vocabulary program.declared program.scopes.declarations)
          decl.method.returns := by
  have holds : Program.reads manyTypes (fun program => program.modules.any fun top =>
      top.content.contract?.any fun contract => contract.methods.any fun decl =>
        decide (45 < decl.body.nodes.length)) = true := by
    decide +kernel
  rcases exists_read holds with ⟨program, accepted, found⟩
  rcases List.any_eq_true.mp found with ⟨top, among, found⟩
  rcases (Option.any_eq_true ..).mp found with ⟨contract, held, found⟩
  rcases List.any_eq_true.mp found with ⟨decl, member, many⟩
  have listed : ∃ other ∈ program.modules, top.toModule ∈ other.inOrder :=
    ⟨top, among, by simp [TopModule.inOrder]⟩
  exact ⟨program, top.toModule, contract, decl, accepted, listed, held, member,
    by simpa using many, (bodies_wellTyped accepted listed).1 contract held decl member⟩

end Covenant
