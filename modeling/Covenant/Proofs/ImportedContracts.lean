import Covenant.Proofs.TypedModules
import Mathlib.Data.List.Induction

/-!
# Calls of imported contracts

The library of an interface has one method for each name, the one that the
interface declares last.  The arguments of its calls are checked like those of
any other call, with one exception.  Whether they are checked depends on the
name of the library alone, which is the last segment of the imported name.  A
contract that is imported as `Call` is taken for the library of calls by name.
-/

namespace Covenant

/-! ## Libraries of interfaces -/

namespace Library

variable {method other : Method} {methods : List Method}

/-- No two of the methods have the same name. -/
def Distinct (methods : List Method) : Prop :=
  methods.Pairwise fun one other => one.name ≠ other.name

/-- A method takes the place of the other one with its name. -/
theorem mem_insertInto_distinct (distinct : Distinct methods)
    (member : other ∈ insertInto method methods) :
    other = method ∨ other ∈ methods ∧ other.name ≠ method.name := by
  induction methods with
  | nil => exact .inl (List.mem_singleton.mp member)
  | cons first rest ih =>
    rcases List.pairwise_cons.mp distinct with ⟨apart, distinct⟩
    unfold insertInto at member
    split at member
    · rename_i same
      rcases List.mem_cons.mp member with rfl | further
      · exact .inl rfl
      · exact .inr ⟨.tail _ further, fun equal => apart other further (same.trans equal.symm)⟩
    · rename_i differs
      rcases List.mem_cons.mp member with rfl | further
      · exact .inr ⟨.head _, differs⟩
      · exact (ih distinct further).imp_right fun found => ⟨.tail _ found.1, found.2⟩

theorem insertInto_distinct (distinct : Distinct methods) :
    Distinct (insertInto method methods) := by
  induction methods with
  | nil => exact List.pairwise_singleton ..
  | cons first rest ih =>
    rcases List.pairwise_cons.mp distinct with ⟨apart, distinct⟩
    unfold insertInto
    split
    · rename_i same
      exact .cons (fun other member => same ▸ apart other member) distinct
    · rename_i differs
      refine .cons (fun other member => ?_) (ih distinct)
      rcases mem_insertInto member with rfl | old
      · exact differs
      · exact apart other old

/-- A library holds the last method of each name. -/
theorem ofMethods_last (name : String) (methods : List Method) :
    Distinct (ofMethods name methods).methods ∧
      ∀ method ∈ (ofMethods name methods).methods,
        methods.reverse.find? (·.name == method.name) = some method := by
  induction methods using List.reverseRecOn with
  | nil => exact ⟨.nil, fun _ member => nomatch member⟩
  | append_singleton methods last ih =>
    rcases ih with ⟨distinct, kept⟩
    rw [ofMethods, List.foldl_append] at *
    refine ⟨insertInto_distinct distinct, fun method member => ?_⟩
    rcases mem_insertInto_distinct distinct member with rfl | ⟨old, differs⟩
    · simp
    · simpa [Ne.symm differs] using kept method old

end Library

/-- A method of an imported library is the last one with its name in the interface. -/
theorem Interface.mem_library {interface : Interface} {qualified : String}
    {method : Covenant.Method}
    (member : method ∈ (interface.library qualified).methods) :
    ∃ declared, interface.methods.reverse.find? (·.name == method.name) = some declared ∧
      method = declared.imported (lastSegment qualified) := by
  have last := (Library.ofMethods_last _ _).2 method member
  rw [← List.map_reverse, List.find?_map] at last
  rcases Option.map_eq_some_iff.mp last with ⟨declared, found, rfl⟩
  exact ⟨declared, found, rfl⟩

/--
Each call of an imported method has as many arguments as the interface declares,
each accepted by the declared type, unless the last segment of the imported name
is `Call`.  Other calls whose arguments do not fit are calls by name.
-/
theorem imported_calls_checked {interface? : String → Option Interface} {source : String}
    {program : Program} {module : Module} {body : Body} {mark : Mark} {ty : Ty} {method : Method}
    {written : Option Ty} {arguments : List Expr}
    (accepted : Program.read interface? source = .ok program)
    (listed : ∃ top ∈ program.modules, module ∈ top.inOrder) (held : body ∈ module.routines)
    (called : .expression (.call mark ty method written arguments) ∈ body.block.nodes) :
    (∀ (interface : Interface) (qualified : String),
      method ∈ (interface.library qualified).methods →
        ∃ declared, interface.methods.reverse.find? (·.name == method.name) = some declared ∧
          method = declared.imported (Interface.lastSegment qualified) ∧
          (Interface.lastSegment qualified ≠ "Call" →
            arguments.length = declared.parameters.length ∧
              ∀ pair ∈ declared.parameters.zip arguments, pair.1.shape.toTy.accepts pair.2.ty)) ∧
    (¬ Suitable method.parameters arguments →
      method ∈ Catalogue.callLibrary.methods ∨
        method.library = "Call" ∧ method.means = .contractCall) := by
  rcases listed with ⟨top, among, inOrder⟩
  have finished := (read_complete accepted).modules top among module inOrder
  rcases finished.typed.nodes_fit held with ⟨returns, fits⟩
  have suitable : method.isUntyped = false → Suitable method.parameters arguments :=
    (fits _ called).1
  constructor
  · intro interface qualified member
    rcases Interface.mem_library member with ⟨declared, found, rfl⟩
    refine ⟨declared, found, rfl, fun named => ?_⟩
    rcases suitable (beq_false_of_ne named) with ⟨count, accepts⟩
    refine ⟨by simpa [Interface.Method.imported] using count, fun pair paired => ?_⟩
    refine accepts (⟨pair.1.name, pair.1.shape.toTy⟩, pair.2) ?_
    rw [Interface.Method.imported, List.zip_map_left]
    exact List.mem_map_of_mem paired
  · intro unfit
    have untyped : method.isUntyped = true := by
      simpa using mt suitable unfit
    have excused := finished.complete.excused body held _ called
    simp only [Expr.isExcused, Method.isExcused, untyped, Bool.not_true, Bool.false_or,
      Bool.or_eq_true, decide_eq_true_eq] at excused
    exact excused.imp_right fun imported => ⟨by simpa [Method.isUntyped] using untyped, imported⟩

/-! ## Sources that import a contract -/

/-- An interface with one method of one parameter. -/
def singleMethod : Interface where
  methods := [⟨"f", .number, 0, [⟨"x", .number⟩]⟩]

/-- The contract imports another one and calls its method. -/
def importing (name arguments : String) : List String :=
  ["contract test \x7b import pkg.", name, "; public g(x:number):number \x7b return ", name, ".f(",
    arguments, "); \x7d \x7d"]

/-- The node calls the imported method with some number of arguments. -/
def Node.callsImported (name : String) (count : Nat) : Node → Bool
  | .expression (.call _ _ method _ arguments) =>
    method ∈ (singleMethod.library name).methods && arguments.length == count
  | _ => false

/-- The source is read and calls the imported method with some number of arguments. -/
def readsCall (name arguments : String) (count : Nat) : Bool :=
  Program.reads (importing name arguments)
    (fun program => program.modules.any fun top => top.routines.any fun body =>
      body.block.nodes.any (Node.callsImported ("pkg." ++ name) count))
    fun _ => some singleMethod

theorem exists_call {name arguments : String} {count : Nat}
    (holds : readsCall name arguments count = true) :
    ∃ program, ∃ module : Module, ∃ body mark ty method written given,
      Program.read (fun _ => some singleMethod) (String.join (importing name arguments)) =
        .ok program ∧
      (∃ top ∈ program.modules, module ∈ top.inOrder) ∧ body ∈ module.routines ∧
      .expression (.call mark ty method written given) ∈ body.block.nodes ∧
      method ∈ (singleMethod.library ("pkg." ++ name)).methods ∧ given.length = count := by
  rcases exists_read holds with ⟨program, accepted, found⟩
  rcases List.any_eq_true.mp found with ⟨top, among, found⟩
  rcases List.any_eq_true.mp found with ⟨body, held, found⟩
  rcases List.any_eq_true.mp found with ⟨node, inside, calls⟩
  have listed : ∃ other ∈ program.modules, top.toModule ∈ other.inOrder :=
    ⟨top, among, by simp [TopModule.inOrder]⟩
  unfold Node.callsImported at calls
  split at calls
  · rw [Bool.and_eq_true, decide_eq_true_eq, beq_iff_eq] at calls
    exact ⟨program, top.toModule, body, _, _, _, _, _, accepted, listed, held, inside, calls⟩
  · cases calls

theorem imported_calls_checked_other :
    ∃ program, ∃ module : Module, ∃ body mark ty method written given declared,
      Program.read (fun _ => some singleMethod) (String.join (importing "Other" "x")) =
        .ok program ∧
      (∃ top ∈ program.modules, module ∈ top.inOrder) ∧ body ∈ module.routines ∧
      .expression (.call mark ty method written given) ∈ body.block.nodes ∧
      singleMethod.methods.reverse.find? (·.name == method.name) = some declared ∧
      method = declared.imported "Other" ∧ given.length = declared.parameters.length := by
  have holds : readsCall "Other" "x" 1 = true := by decide +kernel
  rcases exists_call holds with
    ⟨program, module, body, mark, ty, method, written, given, accepted, listed, held, called,
      member, -⟩
  rcases (imported_calls_checked accepted listed held called).1 _ _ member with
    ⟨declared, found, imported, checked⟩
  exact ⟨program, module, body, mark, ty, method, written, given, declared, accepted, listed, held,
    called, found, imported, (checked (by decide)).1⟩

/-- A contract that is imported as `Call` can be called with too many arguments. -/
theorem imported_call_unchecked :
    ∃ program, ∃ module : Module, ∃ body mark ty method written given,
      Program.read (fun _ => some singleMethod) (String.join (importing "Call" "\"a\", x")) =
        .ok program ∧
      (∃ top ∈ program.modules, module ∈ top.inOrder) ∧ body ∈ module.routines ∧
      .expression (.call mark ty method written given) ∈ body.block.nodes ∧
      method ∈ (singleMethod.library "pkg.Call").methods ∧ given.length = 2 ∧
      ∀ declared ∈ singleMethod.methods, declared.parameters.length = 1 := by
  have holds : readsCall "Call" "\"a\", x" 2 = true := by decide +kernel
  rcases exists_call holds with
    ⟨program, module, body, mark, ty, method, written, given, accepted, listed, held, called,
      member, count⟩
  exact ⟨program, module, body, mark, ty, method, written, given, accepted, listed, held, called,
    member, count, by decide⟩

end Covenant
