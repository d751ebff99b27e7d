import Covenant.Build.Source
import Covenant.Proofs.Bodies
import Covenant.Proofs.MethodFailures
import Covenant.Proofs.MethodLayout

/-!
# Internal errors

Reading a source never ends with an internal error, and emitting the code of a
module ends with one only if it runs out of registers.  The interface of a
module asks the assembler for the entry labels of its public methods, which
stand in the lines that it was given.  So running out of registers is the one
internal error of a compilation.  Whatever the error is, the line that it names
is one on which a token stands.
-/

namespace Covenant

variable {assembly : Assembly} {decl : MethodDecl} {ground : Reading.Ground}

/-- The assembler reports a place for every label line that it is given. -/
def Assembler.LocatesLabels (assemble : Assembler) : Prop :=
  ∀ lines assembly, assemble lines = .ok assembly → ∀ label : Label,
    (Line.label label).render ∈ lines → (assembly.labels.lookup label.text).isSome = true

/-- An error names a line of the source; if it is an internal one, registers have run out. -/
structure Fault (assemble : Assembler) (ground : Reading.Ground) (error : Error) : Prop where
  shown : error.line?.elim True (Reading.Shown ground)
  innocent : assemble.LocatesLabels → ∀ line defect, error = .internal line defect →
    defect = .registersExhausted

theorem Fault.of_blames {assemble : Assembler} {error : Error}
    (blames : Reading.Blames ground error) : Fault assemble ground error :=
  ⟨blames.2, fun _ line defect same => by cases same; cases blames.1⟩

/-- The computation fails as it may. -/
def Faults {Outcome : Type} (assemble : Assembler) (ground : Reading.Ground)
    (outcome : Except Error Outcome) : Prop :=
  ∀ error, outcome = .error error → Fault assemble ground error

namespace Faults

variable {Outcome Next : Type} {assemble : Assembler}

theorem ok (value : Outcome) : Faults assemble ground (.ok value) := fun _ failed => by cases failed

theorem bind {outcome : Except Error Outcome} {next : Outcome → Except Error Next}
    (first : Faults assemble ground outcome)
    (second : ∀ value, outcome = .ok value → Faults assemble ground (next value)) :
    Faults assemble ground (outcome >>= next) := by
  intro error failed
  cases outcome with
  | error other =>
    cases failed
    exact first error rfl
  | ok value => exact second value rfl error failed

theorem mapM {item : Outcome → Except Error Next} {items : List Outcome}
    (each : ∀ value ∈ items, Faults assemble ground (item value)) :
    Faults assemble ground (items.mapM item) := by
  induction items with
  | nil => exact ok []
  | cons first rest ih =>
    rw [List.mapM_cons]
    simp only [List.forall_mem_cons] at each
    exact bind each.1 fun _ _ => bind (ih each.2) fun _ _ => ok _

end Faults

/-! ## Entry labels -/

namespace Emission

variable {env : Env}

/-- Every method starts with its entry label. -/
theorem mem_entry {root : ScopeId} {token : Option String} {before after : Generator}
    (ends : (method env root token decl).Ends before () after) :
    .label (.entry decl.name) ∈ after.lines := by
  rcases bind_ok ends with ⟨_, start, entering, rest⟩
  rcases bind_ok entering with ⟨_, annotated, -, placing⟩
  rcases bind_ok placing with ⟨_, placed, label, entered⟩
  rcases lines_added _ entered with ⟨first, inside⟩
  rcases lines_added _ rest with ⟨second, outside⟩
  rw [outside, inside, (line_ends label).1]
  simp

theorem mem_entries {root : ScopeId} {token : Option String} {decls : List MethodDecl}
    {before after : Generator} (ends : (methods env root token decls).Ends before () after)
    (member : decl ∈ decls) : .label (.entry decl.name) ∈ after.lines := by
  induction decls generalizing before with
  | nil => cases member
  | cons first rest ih =>
    rcases bind_ok ends with ⟨_, between, one, others⟩
    rcases List.mem_cons.mp member with rfl | later
    · rcases lines_added _ others with ⟨added, lines⟩
      rw [lines]
      exact List.mem_append_left _ (mem_entry one)
    · exact ih others later

end Emission

/-! ## Building modules -/

namespace Build

open Emission

variable {env : Env}

theorem assembled_faults (name : String) (lines : List String) :
    Faults env.assemble ground (assembled env name lines) := by
  intro error failed
  unfold assembled at failed
  split at failed <;> cases failed
  exact .of_blames ⟨rfl, trivial⟩

theorem assembled_ok {name : String} {lines : List String}
    (done : assembled env name lines = .ok assembly) : env.assemble lines = .ok assembly := by
  unfold assembled at done
  split at done <;> cases done
  assumption

theorem machineType_faults {assemble : Assembler} (ty : Ty) :
    Faults assemble ground ty.machineType :=
  fun _ failed => .of_blames (Reading.machineType_blames failed)

theorem interfaceMethod_faults {assemble : Assembler} (shown : Reading.Shown ground decl.line)
    (located : assemble.LocatesLabels →
      (assembly.labels.lookup (Label.entry decl.name).text).isSome = true) :
    Faults assemble ground (interfaceMethod assembly decl) := by
  cases found : assembly.labels.lookup (Label.entry decl.name).text with
  | none =>
    simp only [interfaceMethod, found]
    rintro error ⟨⟩
    exact ⟨shown, fun thorough => by simp [found] at located; exact absurd thorough located⟩
  | some offset =>
    simp only [interfaceMethod, found]
    refine .bind (.mapM fun parameter _ => ?_) fun _ _ => ?_
    · exact .bind (machineType_faults _) fun _ _ => .ok _
    · exact .bind (machineType_faults _) fun _ _ => .ok _

theorem descriptionDigits_faults (artifacts : Artifacts) (moduleName : String) {event : Event}
    (shown : Reading.Shown ground event.line) :
    Faults env.assemble ground (descriptionDigits env artifacts moduleName event) := by
  unfold descriptionDigits
  split
  · exact .bind (assembled_faults _ _) fun _ _ => .ok _
  · exact .ok _
  · split
    · exact .ok _
    · rintro error ⟨⟩
      exact .of_blames ⟨rfl, shown⟩

/-- What is known of the modules of a program that has been read. -/
structure Sound (ground : Reading.Ground) (env : Env) (module : Module) : Prop where
  formed : env.program.scopes.WellFormed
  declared : ∀ declaration ∈ env.program.scopes.declarations,
    Reading.Shown ground declaration.line
  finished : module.Finished ground env.program.declared env.program.scopes

theorem interfaceOf_faults (artifacts : Artifacts) {module : Module}
    (sound : Sound ground env module)
    {contract : Contract} (holds : module.content.contract? = some contract)
    (located : env.assemble.LocatesLabels → ∀ decl ∈ contract.methods,
      (assembly.labels.lookup (Label.entry decl.name).text).isSome = true) :
    Faults env.assemble ground (interfaceOf env artifacts module.name contract assembly) := by
  have lined := sound.finished.lined
  refine .bind (.mapM fun decl member => ?_) fun _ _ => .bind (.mapM fun event among => ?_)
    fun _ _ => .ok _
  · have listed := (List.mem_filter.mp member).1
    exact interfaceMethod_faults (lined.methods contract holds decl listed)
      fun thorough => located thorough decl listed
  · exact .bind (descriptionDigits_faults artifacts _ (lined.events contract holds event among))
      fun _ _ => .bind (machineType_faults _) fun _ _ => .ok _

theorem compileModule_faults (artifacts : Artifacts) {module : Module}
    (sound : Sound ground env module) :
    Faults env.assemble ground (compileModule env artifacts module) := by
  refine .bind (fun error failed => ?_) fun code emitted => ?_
  · rcases @moduleCode_blames (emissionEnv env artifacts module.name) _ _ _ sound.formed
      sound.finished.sited sound.finished.complete sound.finished.lined sound.declared failed with
      ⟨bindings, blames⟩
    refine ⟨(blames trivial).1, fun _ line defect same => ?_⟩
    cases same
    exact (blames trivial).2
  refine .bind (assembled_faults _ _) fun assembly assembling => ?_
  split
  · rename_i contract holds
    rcases moduleCode_ok emitted with ⟨after, ends, lines⟩
    rw [content_of_contract holds] at ends
    have interfaced : Faults env.assemble ground
        (interfaceOf env artifacts module.name contract assembly) := by
      refine interfaceOf_faults artifacts sound holds fun thorough decl member => ?_
      refine thorough _ assembly (assembled_ok assembling) (.entry decl.name) ?_
      refine List.mem_append_left _ (List.mem_map_of_mem ?_)
      rw [lines]
      exact mem_entries ends member
    exact .bind interfaced fun _ _ => .ok _
  · exact .ok _

theorem compileModules_faults {modules : List Module}
    (sound : ∀ module ∈ modules, Sound ground env module) (artifacts : Artifacts) :
    Faults env.assemble ground (compileModules env artifacts modules) := by
  induction modules generalizing artifacts with
  | nil => exact .ok _
  | cons first rest ih =>
    simp only [List.forall_mem_cons] at sound
    exact .bind (compileModule_faults artifacts sound.1) fun _ _ =>
      .bind (ih sound.2 _) fun _ _ => .ok _

theorem compileTops_faults {tops : List TopModule}
    (sound : ∀ top ∈ tops, ∀ module ∈ top.inOrder, Sound ground env module)
    (artifacts : Artifacts) :
    Faults env.assemble ground (compileTops env artifacts tops) := by
  induction tops generalizing artifacts with
  | nil => exact .ok _
  | cons first rest ih =>
    simp only [List.forall_mem_cons] at sound
    have inside : ∀ module ∈ first.nfts, Sound ground env module :=
      fun module listed => sound.1 module (List.mem_append_left _ listed)
    have own : Sound ground env first.toModule := sound.1 _ (by simp [TopModule.inOrder])
    refine .bind (.bind (compileModules_faults inside artifacts) fun _ _ =>
      .bind (compileModule_faults _ own) fun _ _ => .ok _) fun _ _ => ?_
    exact .bind (ih sound.2 _) fun _ _ => .ok _

end Build

/-- What a compilation can fail with, apart from counting too far in an enum. -/
theorem compile_faults {options : CompileOptions} {source : String} {error : Error}
    (failed : compile options source = .error (.error error)) :
    Fault options.assemble { tokens := Token.scan source } error := by
  unfold compile at failed
  cases read : Program.read options.interface? source with
  | error failure =>
    rw [read] at failed
    cases failed
    exact .of_blames ((ofTokens_fair options.interface? (Token.scan source)).1 _ read
      fun token listed => Token.scan_forms listed)
  | ok program =>
    rw [read] at failed
    have complete := read_complete read
    simp only [bind, Except.bind] at failed
    split at failed
    · cases failed
    · rename_i other compiling
      cases failed
      refine Build.compileTops_faults (fun top among module listed => ?_) [] _ compiling
      exact ⟨complete.formed, complete.declared, complete.modules top among module listed⟩

/-- An assembler that makes no code, and takes every line for a label with an instruction. -/
def Assembler.labelsOnly : Assembler := fun lines =>
  .ok { script := [], debug := { fileName := "", ranges := [] }
        labels := lines.map fun line =>
          (String.ofList (line.toList.take (line.toList.length - ": NOP".length)), 0) }

theorem compile_join (options : CompileOptions) (pieces : List String) :
    compile options (String.join pieces) = (do
      let program ← Program.ofTokens options.interface? (Token.scanPieces pieces)
      let env : Build.Env :=
        { program, assemble := options.assemble, annotated := options.annotated
          sourceLines := Text.lines (String.join pieces) }
      match Build.compileTops env [] program.modules with
      | .ok compiled => return compiled
      | .error error => throw (.error error)) := by
  have scanned : Program.read options.interface? (String.join pieces) =
      Program.ofTokens options.interface? (Token.scanPieces pieces) := by
    rw [Program.read, Token.scan_join]
  exact congrArg (· >>= _) scanned

end Covenant
