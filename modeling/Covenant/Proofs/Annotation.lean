import Covenant.Assembly.Checksum
import Covenant.Build.Source
import Covenant.Proofs.Editing
import Covenant.Proofs.RoutineTables
import Mathlib.Data.List.Forall2

/-!
# Source lines in the code

Code can be emitted with the source lines written in between.  The source
lines are comments, so nothing else changes: the registers, the script, the
interface and the outcome of the compilation are the same, and without the
source lines the code is the code that is emitted without them.
-/

namespace Covenant

variable {plain full : Generator}

/-! ## Lines with source lines in between -/

/-- The second list is the first one with lines of the source written in between. -/
inductive Interspersed (source : List String) : List String → List String → Prop where
  | nil : Interspersed source [] []
  | same {plain full : List String} (line : String) (rest : Interspersed source plain full) :
      Interspersed source (line :: plain) (line :: full)
  /-- The inserted line has the number and the trimmed text of a source line. -/
  | insert {plain full : List String} {number : Nat} {text : String} (positive : 0 < number)
      (found : source[number - 1]? = some text) (rest : Interspersed source plain full) :
      Interspersed source plain (s!"// Line {number}: {Text.trimmed text}" :: full)

namespace Interspersed

variable {source plain full : List String}

theorem refl (source lines : List String) : Interspersed source lines lines := by
  induction lines with
  | nil => exact .nil
  | cons first rest ih => exact .same first ih

theorem append {plainAfter fullAfter : List String} (before : Interspersed source plain full)
    (after : Interspersed source plainAfter fullAfter) :
    Interspersed source (plain ++ plainAfter) (full ++ fullAfter) := by
  induction before with
  | nil => exact after
  | same line rest ih => exact .same line ih
  | insert positive found rest ih => exact .insert positive found ih

end Interspersed

/-! ## Emission -/

/-- What code can depend on, apart from source lines. -/
def Generator.seen (generator : Generator) : Generator :=
  { bindings := generator.bindings, called := generator.called }

namespace Emission

/-- Both computations fail and their errors are related, or both succeed with related outcomes. -/
inductive Both {First Second : Type} (fails : Error → Error → Prop)
    (related : First → Second → Prop) : Except Error First → Except Error Second → Prop where
  | ok {left : First} {right : Second} (same : related left right) :
      Both fails related (.ok left) (.ok right)
  | error {left right : Error} (same : fails left right) :
      Both fails related (.error left) (.error right)

/-- Computations that go on alike after they have been alike. -/
theorem Both.bind {First Second Third Fourth : Type} {fails : Error → Error → Prop}
    {related : First → Second → Prop} {further : Third → Fourth → Prop}
    {left : Except Error First} {right : Except Error Second} {next : First → Except Error Third}
    {other : Second → Except Error Fourth} (both : Both fails related left right)
    (following : ∀ one two, related one two → Both fails further (next one) (other two)) :
    Both fails further (left >>= next) (right >>= other) := by
  cases both with
  | ok same => exact following _ _ same
  | error same => exact .error same

theorem Both.mono {First Second : Type} {fails more : Error → Error → Prop}
    {related : First → Second → Prop} {left : Except Error First} {right : Except Error Second}
    (both : Both fails related left right) (weaker : ∀ one two, fails one two → more one two) :
    Both more related left right := by
  cases both with
  | ok same => exact .ok same
  | error same => exact .error (weaker _ _ same)

variable {source : List String}

/-- The action writes a line of the source as a comment, or notes that it has been written. -/
def Action.quotes (source : List String) : Action → Bool
  | .note _ => true
  | .write (.source number text) =>
    0 < number && source[number - 1]?.map Text.trimmed == some text
  | _ => false

/-- Leave out the lines of the source. -/
def stripping (source : List String) : Edit where
  drops := Action.quotes source
  keeps {action} kept := by
    unfold Action.isNote at kept
    unfold Action.quotes
    split at kept <;> simp_all

/-- Hide everything else from a program. -/
def blinding : Edit where
  view := Generator.seen

theorem blinding_map_map {Outcome : Type} (code : Emission Outcome) :
    blinding.map (blinding.map code) = blinding.map code := by
  induction code with
  | done outcome => rfl
  | fail error => rfl
  | look next ih => exact congrArg look (funext fun generator => ih _)
  | take mark aliasName next ih => exact congrArg (take mark aliasName) (funext ih)
  | act action next ih => exact congrArg (act action) (funext ih)

/-- Two generators of which the second has written source lines. -/
structure Interspersing (source : List String) (plain full : Generator) : Prop where
  lines : Interspersed source (plain.output.toList.map Line.render)
    (full.output.toList.map Line.render)
  registers : plain.registers = full.registers
  bindings : plain.bindings = full.bindings
  called : plain.called = full.called

theorem Interspersing.seen (same : Interspersing source plain full) : plain.seen = full.seen := by
  rw [Generator.seen, Generator.seen, same.bindings, same.called]

/-- What the two runs of a program with and without source lines end with. -/
def SameEnd {Outcome : Type} (source : List String) (plain full : Outcome × Generator) : Prop :=
  plain.1 = full.1 ∧ Interspersing source plain.2 full.2

/-- An action that is left out changes nothing but lines of the source. -/
theorem perform_quotes {action : Action} (quotes : action.quotes source = true)
    (same : Interspersing source plain full) :
    ∃ changed, action.perform full = .ok changed ∧ Interspersing source plain changed := by
  unfold Action.quotes at quotes
  split at quotes
  · exact ⟨_, rfl, { same with }⟩
  · rename_i number text
    simp only [Bool.and_eq_true, decide_eq_true_eq, beq_iff_eq, Option.map_eq_some_iff] at quotes
    rcases quotes with ⟨positive, line, found, rfl⟩
    refine ⟨_, rfl, { same with lines := ?_ }⟩
    simpa [Line.render] using same.lines.append (.insert positive found .nil)
  · cases quotes

/-- Any other action does the same to both generators. -/
theorem perform_same (action : Action) (same : Interspersing source plain full) :
    Both Eq (Interspersing source) (action.perform plain) (action.perform full) := by
  cases action with
  | write line =>
    refine .ok { same with lines := ?_ }
    simpa using same.lines.append (.same line.render .nil)
  | note number => exact .ok { same with }
  | give register line =>
    simp only [Action.perform, same.registers]
    cases full.registers.dealloc register line with
    | ok registers => exact .ok { same with registers := rfl }
    | error error => exact .error rfl
  | bind id register | unbind id => exact .ok { same with bindings := by simp [same.bindings] }
  | remember label => exact .ok { same with called := by simp [same.called] }

/--
A program ends as it does without its source lines, if nothing else in it
depends on them.
-/
theorem run_stripped {Outcome : Type} (code : Emission Outcome)
    (hidden : blinding.map ((stripping source).map code) = (stripping source).map code)
    (same : Interspersing source plain full) :
    Both Eq (SameEnd source) (((stripping source).map code).run plain) (code.run full) := by
  induction code generalizing plain full with
  | done outcome => exact .ok ⟨rfl, same⟩
  | fail error => exact .error rfl
  | look next ih =>
    have each (generator : Generator) :
        blinding.map ((stripping source).map (next generator.seen)) =
          (stripping source).map (next generator) := by
      exact congrFun (Emission.look.inj hidden) generator
    have blind : blinding.map ((stripping source).map (next full)) =
        (stripping source).map (next full) := by
      rw [← each full, blinding_map_map]
    have alike : (stripping source).map (next plain) = (stripping source).map (next full) := by
      rw [← each plain, same.seen, each full]
    have runs := ih full blind same
    rw [← alike] at runs
    exact runs
  | take mark aliasName next ih =>
    have each (register : Register) : blinding.map ((stripping source).map (next register)) =
        (stripping source).map (next register) :=
      congrFun (Emission.take.inj hidden).2.2 register
    simp only [Edit.map, run, Generator.take, same.registers]
    cases full.registers.alloc mark.id aliasName mark.line with
    | error error => exact .error rfl
    | ok pair => exact ih pair.1 (each pair.1) { same with registers := rfl }
  | act action next ih =>
    by_cases dropped : (stripping source).drops action = true
    · have edited : (stripping source).map (.act action next) =
          (stripping source).map (next ()) := if_pos dropped
      rw [edited] at hidden ⊢
      rcases perform_quotes dropped same with ⟨changed, performed, later⟩
      rw [run, performed]
      exact ih () hidden later
    · have edited : (stripping source).map (.act action next) =
          .act action fun _ => (stripping source).map (next ()) := if_neg dropped
      rw [edited] at hidden ⊢
      have each := congrFun (Emission.act.inj hidden).2 ()
      have performed := perform_same action same
      simp only [run]
      generalize action.perform plain = one at performed
      generalize action.perform full = two at performed
      cases performed with
      | error same => exact .error same
      | ok same => exact ih () each same

/-- The source line of a statement is left out where the code is stripped. -/
theorem annotate_stripped (env : Env) (number : Nat) :
    (stripping env.sourceLines).map (annotate { env with annotated := true } number) =
      annotate { env with annotated := false } number := by
  unfold annotate
  dsimp only
  rw [Edit.map_generator _ fun _ => rfl]
  simp only [Bool.true_and, Bool.false_and]
  congr
  funext found
  split
  · rename_i due
    cases written : env.sourceLines[number - 1]? with
    | none => rfl
    | some text =>
      have quotes : (Action.write (.source number (Text.trimmed text))).quotes
          env.sourceLines = true := by
        simp_all [Action.quotes, Nat.pos_iff_ne_zero]
      have noted : (stripping env.sourceLines).map (perform (.note number)) = pure () := rfl
      have quoted : (stripping env.sourceLines).map (line (.source number (Text.trimmed text))) =
          pure () := if_pos quotes
      simp [noted, quoted]
  · rfl

theorem moduleCode_stripped (env : Env) (module : Module) :
    Both Eq (fun one two =>
        Interspersed env.sourceLines (one.lines.map Line.render) (two.lines.map Line.render) ∧
          one.called = two.called ∧ one.stats = two.stats)
      (moduleCode { env with annotated := false } module)
      (moduleCode { env with annotated := true } module) := by
  have stripped : (stripping env.sourceLines).map
      (content { env with annotated := true } module.scope module.content) =
        content { env with annotated := false } module.scope module.content :=
    content_edited (annotate_stripped env) module.scope module.content
  have hidden : blinding.map (content { env with annotated := false } module.scope
      module.content) = content { env with annotated := false } module.scope module.content :=
    content_edited (fun _ => rfl) module.scope module.content
  have start : Interspersing env.sourceLines {} {} := ⟨.nil, rfl, rfl, rfl⟩
  have runs := run_stripped _ (by rw [stripped]; exact hidden) start
  rw [stripped] at runs
  refine runs.bind fun one two ⟨_, same⟩ => ?_
  rcases one with ⟨⟨⟩, plain⟩
  rcases two with ⟨⟨⟩, full⟩
  show Both _ _ (plain.finish _ module.line) (full.finish _ module.line)
  unfold Generator.finish
  rw [same.bindings, same.registers]
  cases full.bindings with
  | cons binding rest => exact .error rfl
  | nil =>
    cases verified : full.registers.verify module.line with
    | ok _ => exact .ok ⟨same.lines, same.called, rfl⟩
    | error error => exact .error rfl

end Emission

/-! ## Assembly -/

namespace Checksum

variable {source plain full : List String}

/-- A source line in the code is recognized by its beginning. -/
theorem startsWith_annotationMark (number : Nat) (text : String) :
    startsWith annotationMark s!"// Line {number}: {text}" = true := by
  simp [startsWith, annotationMark, String.toList_append, toString]

/-- A source line in the code makes no code. -/
theorem step_sourceLine (progress : Progress) (place number : Nat) (text : String) :
    step progress place s!"// Line {number}: {text}" = .ok { progress with
      sourceLine := (annotatedLine? s!"// Line {number}: {text}").getD progress.sourceLine } :=
  if_pos (startsWith_annotationMark number text)

/-- What two assemblies have in common of which one may have met more source lines. -/
structure Progress.Matches (left right : Progress) : Prop where
  script : left.script = right.script
  labels : left.labels = right.labels

/-- How two assemblies of the same code end, which is interspersed with source lines in one. -/
inductive Progress.Ends (plain full : List String) (number other : Nat) :
    Except AssemblerError Progress → Except AssemblerError Progress → Prop where
  | ok {left right : Progress} (same : left.Matches right) :
      Ends plain full number other (.ok left) (.ok right)
  /-- Both refuse the same line for the same reason. -/
  | refused {place beside : Nat} {message : String} (listed : place < plain.length)
      (same : plain[place]? = full[beside]?) :
      Ends plain full number other (.error { line := number + place, message })
        (.error { line := other + beside, message })

namespace Progress.Ends

variable {number other : Nat} {left right : Except AssemblerError Progress}

/-- Both assemblies go on behind a line that they have in common. -/
theorem same (ends : Ends plain full (number + 1) (other + 1) left right) (line : String) :
    Ends (line :: plain) (line :: full) number other left right := by
  cases ends with
  | ok same => exact .ok same
  | refused listed same =>
    rw [Nat.add_right_comm, Nat.add_assoc, Nat.add_right_comm other, Nat.add_assoc other]
    exact .refused (by simpa using listed) (by simpa using same)

/-- One assembly goes on behind a line of its own. -/
theorem insert (ends : Ends plain full number (other + 1) left right) (line : String) :
    Ends plain (line :: full) number other left right := by
  cases ends with
  | ok same => exact .ok same
  | refused listed same =>
    rw [Nat.add_right_comm other, Nat.add_assoc other]
    exact .refused listed (by simpa using same)

end Progress.Ends

/-- One line does the same in both assemblies. -/
theorem step_same {left right : Progress} (same : left.Matches right) (number other : Nat)
    (line : String) :
    (∃ one two, step left number line = .ok one ∧ step right other line = .ok two ∧
      one.Matches two) ∨
    ∃ message, step left number line = .error { line := number, message } ∧
      step right other line = .error { line := other, message } := by
  unfold step
  split
  · exact .inl ⟨_, _, rfl, rfl, same.script, same.labels⟩
  · split
    · exact .inl ⟨_, _, rfl, rfl, same⟩
    · split
      · exact .inr ⟨_, rfl, rfl⟩
      · refine .inl ⟨_, _, rfl, rfl, ?_, ?_⟩
        · simp [same.script]
        · simp [same.script, same.labels]

theorem steps_interspersed (interspersed : Interspersed source plain full)
    {left right : Progress} (same : left.Matches right) (number other : Nat) :
    Progress.Ends plain full number other (steps left number plain) (steps right other full) := by
  induction interspersed generalizing left right number other with
  | nil => exact .ok same
  | @same plain full line rest ih =>
    unfold steps
    rcases step_same same number other line with ⟨one, two, first, second, after⟩ |
      ⟨message, first, second⟩
    · rw [first, second]
      exact (ih after (number + 1) (other + 1)).same line
    · rw [first, second]
      have listed : 0 < (line :: plain).length := Nat.zero_lt_succ _
      have refused : (line :: plain)[0]? = (line :: full)[0]? := rfl
      exact .refused listed refused
  | insert positive found rest ih =>
    rw [steps, step_sourceLine]
    have after (line : Nat) : left.Matches { right with sourceLine := line } :=
      ⟨same.script, same.labels⟩
    exact (ih (after _) number (other + 1)).insert _

/-- Source lines in the code do not make the assembler forget labels. -/
theorem contains_forgetLabels (interspersed : Interspersed source plain full) :
    full.contains forgetLabels = plain.contains forgetLabels := by
  induction interspersed with
  | nil => rfl
  | same line rest ih => simp only [List.contains_cons, ih]
  | @insert plain full number text positive found rest ih =>
    have other : ¬ forgetLabels = s!"// Line {number}: {Text.trimmed text}" := by
      intro same
      have starts := startsWith_annotationMark number (Text.trimmed text)
      rw [← same] at starts
      revert starts
      decide
    rw [List.contains_cons, ih, beq_eq_false_iff_ne.mpr other, Bool.false_or]

end Checksum

/-! ## Compilation -/

/-- The errors are the same, up to the number of a refused line and the listing around it. -/
inductive Error.Counterpart (source : List String) : Error → Error → Prop where
  | same (error : Error) : Counterpart source error error
  /-- Both listings are refused for the same line. -/
  | refused {plain full : List String} {place beside : Nat} (name message : String)
      (interspersed : Interspersed source plain full) (listed : place < plain.length)
      (same : plain[place]? = full[beside]?) :
      Counterpart source
        (.assembler name (AssemblerError.text { line := 1 + place, message }) plain)
        (.assembler name (AssemblerError.text { line := 1 + beside, message }) full)

/-- The modules are the same, up to source lines and what the assembler makes of them. -/
structure Compiled.Counterpart (source : List String) (plain full : Compiled) : Prop where
  name : plain.name = full.name
  kind : plain.kind = full.kind
  script : plain.script = full.script
  interface : plain.interface = full.interface
  stats : plain.stats = full.stats
  lines : Interspersed source plain.lines full.lines

/-- The modules and the NFTs declared inside them are the same, up to source lines. -/
structure CompiledTop.Counterpart (source : List String) (plain full : CompiledTop) : Prop where
  top : plain.toCompiled.Counterpart source full.toCompiled
  nfts : List.Forall₂ (Compiled.Counterpart source) plain.nfts full.nfts

theorem Compiled.Counterpart.artifact {source : List String} {plain full : Compiled}
    (same : plain.Counterpart source full) : plain.artifact = full.artifact := by
  rw [Compiled.artifact, Compiled.artifact, same.script, same.interface]

namespace Build

open Emission (Both)

variable {env : Env} {artifacts : Artifacts}

/-- The same build without source lines in the code, for the checksum assembler. -/
def Env.checked (env : Env) (annotated : Bool) : Env :=
  { env with assemble := Checksum.assemble, annotated }

theorem assembled_interspersed {plain full : List String} {name : String}
    (interspersed : Interspersed env.sourceLines plain full) :
    Both (Error.Counterpart env.sourceLines) (fun one two =>
        one.script = two.script ∧ one.labels = two.labels)
      (assembled (env.checked false) name plain) (assembled (env.checked true) name full) := by
  have start : Checksum.Progress.Matches {} {} := ⟨rfl, rfl⟩
  have ends := Checksum.steps_interspersed interspersed start 1 1
  have kept := Checksum.contains_forgetLabels interspersed
  unfold assembled
  simp only [Env.checked, Checksum.assemble]
  generalize Checksum.steps {} 1 plain = left at ends
  generalize Checksum.steps {} 1 full = right at ends
  cases ends with
  | ok same =>
    refine .ok ⟨?_, ?_⟩
    · simp [same.script]
    · simp only [kept, same.labels]
  | refused listed same => exact .error (.refused name _ interspersed listed same)

/-- The interface of a module only depends on the labels of its assembly. -/
theorem interfaceOf_checked (name : String) (contract : Contract) {one two : Assembly}
    (same : one.labels = two.labels) :
    interfaceOf (env.checked false) artifacts name contract one =
      interfaceOf (env.checked true) artifacts name contract two := by
  have methods : interfaceMethod one = interfaceMethod two := by
    funext decl
    rw [interfaceMethod, interfaceMethod, same]
  have events : interfaceEvent (env.checked false) artifacts name =
      interfaceEvent (env.checked true) artifacts name := rfl
  rw [interfaceOf, interfaceOf, methods, events]

theorem moduleCode_checked (module : Module) :
    Both Eq (fun one two =>
        Interspersed env.sourceLines (one.lines.map Line.render) (two.lines.map Line.render) ∧
          one.called = two.called ∧ one.stats = two.stats)
      (Emission.moduleCode (emissionEnv (env.checked false) artifacts module.name) module)
      (Emission.moduleCode (emissionEnv (env.checked true) artifacts module.name) module) :=
  Emission.moduleCode_stripped (emissionEnv (env.checked true) artifacts module.name) module

theorem compileModule_checked (module : Module) :
    Both (Error.Counterpart env.sourceLines) (Compiled.Counterpart env.sourceLines)
      (compileModule (env.checked false) artifacts module)
      (compileModule (env.checked true) artifacts module) := by
  have fails : ∀ one two : Error, one = two → Error.Counterpart env.sourceLines one two :=
    fun one two same => same ▸ .same one
  refine ((moduleCode_checked module).mono fails).bind fun one two ⟨lines, called, stats⟩ => ?_
  have interspersed := lines.append (.refl env.sourceLines (routineLines one.called))
  rw [called] at interspersed
  refine (assembled_interspersed (called ▸ interspersed)).bind fun left right ⟨script, labels⟩ => ?_
  cases held : module.content.contract? with
  | none => exact .ok ⟨rfl, rfl, script, rfl, stats, by rw [called]; exact interspersed⟩
  | some contract =>
    dsimp only
    rw [interfaceOf_checked module.name contract labels]
    cases made : interfaceOf (env.checked true) artifacts module.name contract right with
    | error error => exact .error (.same error)
    | ok interface => exact .ok ⟨rfl, rfl, script, rfl, stats, by rw [called]; exact interspersed⟩

theorem compileModules_checked (modules : List Module) :
    Both (Error.Counterpart env.sourceLines) (fun one two =>
        List.Forall₂ (Compiled.Counterpart env.sourceLines) one.1 two.1 ∧ one.2 = two.2)
      (compileModules (env.checked false) artifacts modules)
      (compileModules (env.checked true) artifacts modules) := by
  induction modules generalizing artifacts with
  | nil => exact .ok ⟨.nil, rfl⟩
  | cons first rest ih =>
    refine (compileModule_checked first).bind fun one two same => ?_
    rw [same.artifact]
    refine ih.bind fun ones twos ⟨others, later⟩ => ?_
    exact .ok ⟨.cons same others, later⟩

theorem compileTop_checked (top : TopModule) :
    Both (Error.Counterpart env.sourceLines) (fun one two =>
        one.1.Counterpart env.sourceLines two.1 ∧ one.2 = two.2)
      (compileTop (env.checked false) artifacts top)
      (compileTop (env.checked true) artifacts top) := by
  refine (compileModules_checked top.nfts).bind ?_
  rintro ⟨ones, artifacts⟩ ⟨twos, others⟩ ⟨nfts, same⟩
  cases same
  refine (compileModule_checked top.toModule).bind fun one two same => ?_
  exact .ok ⟨⟨same, nfts⟩, by rw [same.artifact]⟩

theorem compileTops_checked (tops : List TopModule) :
    Both (Error.Counterpart env.sourceLines)
      (List.Forall₂ (CompiledTop.Counterpart env.sourceLines))
      (compileTops (env.checked false) artifacts tops)
      (compileTops (env.checked true) artifacts tops) := by
  induction tops generalizing artifacts with
  | nil => exact .ok .nil
  | cons first rest ih =>
    refine (compileTop_checked first).bind ?_
    rintro ⟨one, artifacts⟩ ⟨two, others⟩ ⟨same, later⟩
    cases later
    exact ih.bind fun ones twos all => .ok (.cons same all)

end Build

/-- What stays the same for all modules of a source that has been read. -/
def CompileOptions.build (options : CompileOptions) (source : String) (program : Program) :
    Build.Env where
  program := program
  assemble := options.assemble
  annotated := options.annotated
  sourceLines := Text.lines source

/-- The compilation of a source that can be read is the build of its program. -/
theorem compile_of_read {options : CompileOptions} {source : String} {program : Program}
    (read : Program.read options.interface? source = .ok program) :
    compile options source =
      (Build.compileTops (options.build source program) [] program.modules).mapError .error := by
  unfold compile
  rw [read]
  cases built : Build.compileTops (options.build source program) [] program.modules with
  | ok compiled =>
    unfold CompileOptions.build at built
    simp [bind, Except.bind, built, pure, Except.pure, Except.mapError]
  | error error =>
    unfold CompileOptions.build at built
    simp [bind, Except.bind, built, throw, throwThe, MonadExceptOf.throw, Except.mapError]

/-- The two compilations come to the same, up to source lines in the code. -/
inductive SameCompilation (source : List String) :
    Except Failure (List CompiledTop) → Except Failure (List CompiledTop) → Prop where
  | ok {plain full : List CompiledTop}
      (same : List.Forall₂ (CompiledTop.Counterpart source) plain full) :
      SameCompilation source (.ok plain) (.ok full)
  /-- The source cannot be read. -/
  | unread (failure : Failure) : SameCompilation source (.error failure) (.error failure)
  | error {plain full : Error} (same : plain.Counterpart source full) :
      SameCompilation source (.error (.error plain)) (.error (.error full))

/-- Builds that come to the same are compilations that come to the same. -/
theorem SameCompilation.of_builds {source : List String}
    {plain full : Except Error (List CompiledTop)}
    (both : Emission.Both (Error.Counterpart source)
      (List.Forall₂ (CompiledTop.Counterpart source)) plain full) :
    SameCompilation source (plain.mapError .error) (full.mapError .error) := by
  cases both with
  | ok same => exact .ok same
  | error same => exact .error same

/--
With the checksum assembler it makes no difference to a compilation whether
source lines are written into the code, apart from these lines.
-/
theorem compile_annotation_neutral (interface? : String → Option Interface) (source : String) :
    SameCompilation (Text.lines source)
      (compile { assemble := Checksum.assemble, interface?, annotated := false } source)
      (compile { assemble := Checksum.assemble, interface?, annotated := true } source) := by
  cases read : Program.read interface? source with
  | error failure =>
    unfold compile
    rw [read]
    exact .unread failure
  | ok program =>
    let plain : CompileOptions :=
      { assemble := Checksum.assemble, interface?, annotated := false }
    let full : CompileOptions :=
      { assemble := Checksum.assemble, interface?, annotated := true }
    rw [@compile_of_read plain source program read, @compile_of_read full source program read]
    apply SameCompilation.of_builds
    exact @Build.compileTops_checked (full.build source program) [] program.modules

end Covenant
