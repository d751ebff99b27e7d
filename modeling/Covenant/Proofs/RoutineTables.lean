import Covenant.Callable.StandardRoutine
import Mathlib.Data.List.Basic

/-!
# Tables of routines

What a table means is said by its significant lines, those that are neither
blank nor comments: `Spells` divides them into headers and bodies.  Reading
accepts exactly the texts whose lines spell a table, and a table that is written
back and read again is the same.
-/

namespace Covenant

variable {text word : List Char} {routine : Routine}

theorem Except.bind_eq_ok {Value Next : Type} {first : Except Error Value}
    {following : Value → Except Error Next} {outcome : Next} :
    first >>= following = .ok outcome ↔
      ∃ value, first = .ok value ∧ following value = .ok outcome := by
  cases first with
  | error error => simp [bind, Except.bind]
  | ok value => simp [bind, Except.bind]

namespace Text

/-- A text is cut at the first mark. -/
theorem cutAt_iff {mark : Char} {before after : List Char} :
    cutAt mark text = some (before, after) ↔ text = before ++ mark :: after ∧ mark ∉ before := by
  induction text generalizing before with
  | nil => simp [cutAt]
  | cons first rest ih =>
    rw [cutAt]
    split
    · rename_i same
      subst same
      cases before with
      | nil => simp
      | cons other more => grind
    · rename_i differs
      cases before with
      | nil => simp [differs]
      | cons other more =>
        simp only [Option.map_eq_some_iff, Prod.exists, Prod.mk.injEq, List.cons.injEq]
        grind

/-- A piece that nothing cuts joins the first piece behind it. -/
theorem split_append {cuts : Char → Bool} {whole rest piece : List Char} {pieces : List (List Char)}
    (uncut : ∀ character ∈ whole, cuts character = false)
    (behind : split cuts rest = piece :: pieces) :
    split cuts (whole ++ rest) = (whole ++ piece) :: pieces := by
  induction whole with
  | nil => exact behind
  | cons first more ih =>
    rw [List.forall_mem_cons] at uncut
    simp [split, uncut.1, ih uncut.2]

theorem uncut_of_mem_split {cuts : Char → Bool} {piece : List Char}
    (member : piece ∈ split cuts text) : ∀ character ∈ piece, cuts character = false := by
  induction text generalizing piece with
  | nil => simp_all [split]
  | cons first rest ih =>
    rw [split] at member
    split at member
    · rcases List.mem_cons.mp member with rfl | further
      · exact nofun
      · exact ih further
    · rename_i uncut
      split at member
      · simp_all
      · rename_i next pieces found
        rcases List.mem_cons.mp member with rfl | further
        · exact List.forall_mem_cons.mpr
            ⟨by simpa using uncut, ih (found ▸ List.mem_cons_self)⟩
        · exact ih (found ▸ List.mem_cons_of_mem _ further)

/-- The words that blanks are put before are the words of the text. -/
theorem words_flatMap {list : List (List Char)}
    (proper : ∀ word ∈ list, word ≠ [] ∧ ∀ character ∈ word, isBlank character = false) :
    words (list.flatMap (' ' :: ·)) = list := by
  have pieces : split isBlank (list.flatMap (' ' :: ·)) = [] :: list := by
    induction list with
    | nil => rfl
    | cons word rest ih =>
      rw [List.forall_mem_cons] at proper
      have joined := split_append proper.1.2 (ih proper.2)
      simp only [List.flatMap_cons, List.cons_append, split, joined]
      simp [isBlank]
  rw [words, pieces]
  simpa using fun word member => (proper word member).1

theorem proper_of_mem_words (member : word ∈ words text) :
    word ≠ [] ∧ ∀ character ∈ word, isBlank character = false := by
  rcases List.mem_filter.mp member with ⟨piece, proper⟩
  exact ⟨by simpa using proper, uncut_of_mem_split piece⟩

/-- The text neither starts nor ends with a blank. -/
def Trim (text : List Char) : Prop :=
  ∀ character, character ∈ text.head? ∨ character ∈ text.getLast? → isBlank character = false

theorem trim_eq_self (trimmed : Trim text) : trim text = text := by
  have kept {list : List Char} (proper : ∀ first ∈ list.head?, isBlank first = false) :
      list.dropWhile isBlank = list := by
    cases list <;> simp_all
  rw [trim, trimStart, kept fun first member => trimmed first (.inl member), trimEnd, kept,
    List.reverse_reverse]
  intro last member
  exact trimmed last (.inr (by rwa [List.head?_reverse] at member))

theorem trim_subset (text : List Char) : trim text ⊆ text := by
  intro character member
  have inside := (List.dropWhile_suffix _).subset (List.mem_reverse.mp member)
  exact (List.dropWhile_suffix _).subset (List.mem_reverse.mp inside)

theorem trim_trim (text : List Char) : Trim (trim text) := by
  have proper (list : List Char) {first : Char}
      (member : (list.dropWhile isBlank).head? = some first) : isBlank first = false := by
    have := List.head?_dropWhile_not isBlank list
    rwa [member] at this
  have front : trim text <+: trimStart text := by
    have within := List.dropWhile_suffix (l := (trimStart text).reverse) isBlank
    rwa [← List.reverse_prefix, List.reverse_reverse] at within
  intro character ends
  rcases ends with first | last
  · rcases front with ⟨more, whole⟩
    refine proper text ?_
    rw [← trimStart, ← whole, List.head?_append, Option.mem_def.mp first]
    rfl
  · refine proper (trimStart text).reverse ?_
    rwa [Option.mem_def, trim, trimEnd, List.getLast?_reverse] at last

theorem single_of_mem_lines {text line : String} (member : line ∈ lines text) :
    '\n' ∉ line.toList := by
  have within {pieces : List (List Char)} {line : List Char}
      (listed : line ∈ linesOfPieces pieces) :
      ∃ piece ∈ pieces, line ⊆ piece := by
    fun_induction linesOfPieces pieces with
    | case1 => cases listed
    | case2 last empty => cases listed
    | case3 last some =>
      exact ⟨last, List.mem_cons_self, List.mem_singleton.mp listed ▸ List.Subset.refl _⟩
    | case4 first next rest ih =>
      rcases List.mem_cons.mp listed with rfl | further
      · refine ⟨first, List.mem_cons_self, ?_⟩
        unfold dropReturn
        split
        · exact List.dropLast_subset _
        · exact List.Subset.refl _
      · rcases ih further with ⟨piece, among, inside⟩
        exact ⟨piece, List.mem_cons_of_mem _ among, inside⟩
  rcases List.mem_map.mp member with ⟨characters, listed, rfl⟩
  rcases within listed with ⟨piece, among, inside⟩
  intro ends
  rw [String.toList_ofList] at ends
  simpa using uncut_of_mem_split among _ (inside ends)

/-- Lines that are ended by line feeds are the lines of the text. -/
theorem lines_flatMap {list : List (List Char)}
    (proper : ∀ line ∈ list, Trim line ∧ '\n' ∉ line) :
    lines (String.ofList (list.flatMap (· ++ ['\n']))) = list.map String.ofList := by
  have pieces : split (· == '\n') (list.flatMap (· ++ ['\n'])) = list ++ [[]] ∧
      linesOfPieces (list ++ [[]]) = list := by
    induction list with
    | nil => exact ⟨rfl, rfl⟩
    | cons line rest ih =>
      rw [List.forall_mem_cons] at proper
      rcases ih proper.2 with ⟨pieces, lines⟩
      constructor
      · have behind : split (· == '\n') (['\n'] ++ rest.flatMap (· ++ ['\n'])) =
            [] :: (rest ++ [[]]) := by
          simp [split, pieces]
        rw [List.flatMap_cons, List.append_assoc, split_append ?_ behind, List.append_nil,
          List.cons_append]
        intro character member
        exact beq_false_of_ne fun same => proper.1.2 (same ▸ member)
      · have ended : dropReturn line = line := by
          rw [dropReturn, if_neg]
          intro returns
          cases proper.1.1 _ (.inr returns)
        rw [List.cons_append]
        cases more : rest ++ [[]] with
        | nil => simp at more
        | cons next others => rw [linesOfPieces, ended, ← more, lines]
  rw [lines, String.toList_ofList, pieces.1, pieces.2]

end Text

namespace Routine

/-! ## Writing a table -/

/-- A type that a header can mention. -/
def Nameable (ty : Ty) : Prop :=
  Ty.ofPrimitive? ty.kind = some ty ∧ ty.kind.isNameless = false

def typeWord (ty : Ty) : List Char :=
  ty.kind.name.toList

def parameterWord (parameter : Parameter) : List Char :=
  parameter.name.toList ++ ':' :: typeWord parameter.ty

/-- The words of a header behind the marker. -/
def Header.words (header : Header) : List (List Char) :=
  header.library.toList :: header.name.toList :: typeWord header.returns ::
    header.parameters.map parameterWord

def heading (routine : Routine) : Header :=
  { library := routine.library, name := routine.name, returns := routine.returns
    parameters := routine.parameters }

/-- The lines of a routine in a table. -/
def written (routine : Routine) : List (List Char) :=
  (marker.toList ++ routine.heading.words.flatMap (' ' :: ·)) :: routine.body.map String.toList

/-- The text of a table. -/
def write (routines : List Routine) : String :=
  String.ofList ((routines.flatMap written).flatMap (· ++ ['\n']))

/-! ## The lines of a table -/

def isHeader (line : List Char) : Bool :=
  marker.toList.isPrefixOf line

/-- Is the line a blank one or a comment? -/
def isIdle (line : List Char) : Bool :=
  line.isEmpty || "//".toList.isPrefixOf line

/-- The lines that are neither blank nor comments, without the blanks around them. -/
def significant (lines : List String) : List (List Char) :=
  (lines.map fun line => Text.trim line.toList).filter fun line => !isIdle line

/-- A header can be read. -/
structure Header.Legible (header : Header) : Prop where
  returns : Nameable header.returns
  parameters : ∀ parameter ∈ header.parameters,
    ':' ∉ parameter.name.toList ∧ Nameable parameter.ty

/-- The label stands before the first colon of the body and starts with an at sign. -/
def Labelled (routine : Routine) : Prop :=
  ∃ first rest, routine.body = first :: rest ∧
    routine.label = String.ofList (beforeColon first.toList) ∧
    (beforeColon first.toList).head? = some '@'

/-- The lines behind a header are the body of its routine, up to the next header. -/
inductive Spells : List (List Char) → List Routine → Prop
  | nil : Spells [] []
  | cons {line : List Char} {routine : Routine} {rest : List (List Char)}
      {routines : List Routine} (marked : isHeader line = true)
      (described : Text.words (line.drop marker.length) = routine.heading.words)
      (legible : routine.heading.Legible) (labelled : routine.Labelled)
      (plain : ∀ line ∈ routine.body, isHeader line.toList = false)
      (further : Spells rest routines) :
      Spells (line :: (routine.body.map String.toList ++ rest)) (routine :: routines)

/-! ## Headers -/

variable {number : Nat}

theorem readType_iff {ty : Ty} :
    readType number (String.ofList word) = .ok ty ↔ word = typeWord ty ∧ Nameable ty := by
  have known (kind : Ty.Kind) (named : kind.isNameless = false) :
      Ty.Kind.ofTypeName? kind.name = some kind := by
    cases kind <;> first | rfl | cases named
  have simple (kind : Ty.Kind) (found : Ty.ofPrimitive? kind = some ty) : ty.kind = kind := by
    cases kind <;> cases found <;> rfl
  unfold readType
  constructor
  · intro read
    split at read
    · rename_i found
      cases read
      rcases Option.bind_eq_some_iff.mp found with ⟨kind, named, primitive⟩
      have spelled := List.find?_some named
      rw [← simple kind primitive] at spelled primitive
      simp only [Bool.and_eq_true, Bool.not_eq_true', beq_iff_eq] at spelled
      exact ⟨by simp [typeWord, spelled.2], primitive, spelled.1⟩
    · cases read
  · rintro ⟨rfl, primitive, named⟩
    simp [typeWord, known ty.kind named, primitive]

theorem readParameter_iff {parameter : Parameter} :
    readParameter number word = .ok parameter ↔
      word = parameterWord parameter ∧ ':' ∉ parameter.name.toList ∧ Nameable parameter.ty := by
  unfold readParameter
  constructor
  · intro read
    split at read
    · rename_i name type cut
      rcases Text.cutAt_iff.mp cut with ⟨rfl, single⟩
      rcases Except.bind_eq_ok.mp read with ⟨ty, typed, same⟩
      cases same
      rcases readType_iff.mp typed with ⟨rfl, nameable⟩
      exact ⟨by simp [parameterWord], by simpa using single, nameable⟩
    · cases read
  · rintro ⟨rfl, single, nameable⟩
    rw [parameterWord, Text.cutAt_iff.mpr ⟨rfl, single⟩]
    exact Except.bind_eq_ok.mpr ⟨_, readType_iff.mpr ⟨rfl, nameable⟩, by simp; rfl⟩

theorem readParameters_iff {words : List (List Char)} {parameters : List Parameter} :
    words.mapM (readParameter number) = .ok parameters ↔
      words = parameters.map parameterWord ∧ ∀ parameter ∈ parameters,
        ':' ∉ parameter.name.toList ∧ Nameable parameter.ty := by
  induction words generalizing parameters with
  | nil =>
    simp only [List.mapM_nil]
    constructor
    · intro read
      cases read
      exact ⟨rfl, nofun⟩
    · rintro ⟨none, -⟩
      rw [List.map_eq_nil_iff.mp none.symm]
      rfl
  | cons word words ih =>
    rw [List.mapM_cons]
    constructor
    · intro read
      rcases Except.bind_eq_ok.mp read with ⟨first, one, more⟩
      rcases Except.bind_eq_ok.mp more with ⟨rest, others, same⟩
      cases same
      rcases readParameter_iff.mp one with ⟨rfl, legible⟩
      rcases ih.mp others with ⟨rfl, further⟩
      exact ⟨rfl, List.forall_mem_cons.mpr ⟨legible, further⟩⟩
    · rintro ⟨spelled, legible⟩
      cases parameters with
      | nil => cases spelled
      | cons first rest =>
        cases spelled
        rw [List.forall_mem_cons] at legible
        exact Except.bind_eq_ok.mpr ⟨first, readParameter_iff.mpr ⟨rfl, legible.1⟩,
          Except.bind_eq_ok.mpr ⟨rest, ih.mpr ⟨rfl, legible.2⟩, rfl⟩⟩

theorem readHeader_iff {header : Header} :
    readHeader number text = .ok header ↔ Text.words text = header.words ∧ header.Legible := by
  unfold readHeader
  constructor
  · intro read
    split at read
    · rename_i library name returns parameters spelled
      rcases Except.bind_eq_ok.mp read with ⟨ty, typed, more⟩
      rcases Except.bind_eq_ok.mp more with ⟨list, listed, same⟩
      cases same
      rcases readType_iff.mp typed with ⟨rfl, nameable⟩
      rcases readParameters_iff.mp listed with ⟨rfl, legible⟩
      exact ⟨by simp [spelled, Header.words], nameable, legible⟩
    · cases read
  · rintro ⟨spelled, legible⟩
    rw [spelled, Header.words]
    exact Except.bind_eq_ok.mpr ⟨_, readType_iff.mpr ⟨rfl, legible.returns⟩,
      Except.bind_eq_ok.mpr ⟨_, readParameters_iff.mpr ⟨rfl, legible.parameters⟩, by simp; rfl⟩⟩

theorem close_iff {header : Header} {body : List String} :
    close number header body = .ok routine ↔
      routine.heading = header ∧ routine.body = body ∧ routine.Labelled := by
  simp only [close]
  cases body with
  | nil =>
    refine ⟨nofun, fun ⟨_, bare, first, rest, given, _⟩ => ?_⟩
    rw [bare] at given
    cases given
  | cons first rest =>
    simp only [List.head?_cons, Option.map_some, Option.getD_some]
    constructor
    · intro closed
      split at closed
      · rename_i label spelled
        cases closed
        exact ⟨rfl, rfl, first, rest, rfl, rfl, by rw [spelled]; rfl⟩
      · cases closed
    · rintro ⟨rfl, body, other, more, same, label, starts⟩
      cases body.symm.trans same
      rcases List.head?_eq_some_iff.mp starts with ⟨tail, spelled⟩
      rw [spelled] at label ⊢
      simp [heading, ← label, ← body]

/-! ## Reading lines -/

variable {line : List Char} {lines : List (List Char)} {routines : List Routine} {draft : Draft}

/-- The routine of a draft whose body goes on with the lines. -/
structure Finishes (draft : Draft) (lines : List (List Char)) (routine : Routine) : Prop where
  heading : routine.heading = draft.header
  body : routine.body = draft.body ++ lines.map String.ofList
  labelled : routine.Labelled
  plain : ∀ line ∈ lines, isHeader line = false

/-- What the lines spell behind a draft. -/
def Continues (draft : Draft) (lines : List (List Char)) (routines : List Routine) : Prop :=
  ∃ body rest routine others, lines = body ++ rest ∧ routines = routine :: others ∧
    Finishes draft body routine ∧ Spells rest others

theorem spells_cons_iff : Spells (line :: lines) routines ↔ isHeader line = true ∧
    ∃ header, (Text.words (line.drop marker.length) = header.words ∧ header.Legible) ∧
      Continues ⟨header, []⟩ lines routines := by
  constructor
  · intro spells
    cases spells with
    | cons marked described legible labelled plain further =>
      refine ⟨marked, _, ⟨described, legible⟩, _, _, _, _, rfl, rfl, ⟨rfl, ?_, labelled, ?_⟩,
        further⟩
      · simp
      · simpa using plain
  · rintro ⟨marked, header, ⟨described, legible⟩, body, rest, routine, others, rfl, rfl, finishes,
      further⟩
    have heading : routine.heading = header := finishes.heading
    have same : body = routine.body.map String.toList := by simp [finishes.body]
    subst heading
    rw [same]
    refine .cons marked described legible finishes.labelled ?_ further
    simpa [finishes.body] using finishes.plain

/-- A header ends the body of a draft. -/
theorem continues_header (marked : isHeader line = true) :
    Continues draft (line :: lines) routines ↔ ∃ routine others, Finishes draft [] routine ∧
      Spells (line :: lines) others ∧ routines = routine :: others := by
  constructor
  · rintro ⟨body, rest, routine, others, split, rfl, finishes, further⟩
    cases body with
    | nil => exact ⟨routine, others, finishes, split ▸ further, rfl⟩
    | cons first more =>
      cases split
      rw [finishes.plain line List.mem_cons_self] at marked
      cases marked
  · rintro ⟨routine, others, finishes, further, rfl⟩
    exact ⟨[], _, routine, others, rfl, rfl, finishes, further⟩

/-- Any other line belongs to it. -/
theorem continues_body (plain : isHeader line = false) : Continues draft (line :: lines) routines ↔
    Continues { draft with body := draft.body ++ [String.ofList line] } lines routines := by
  constructor
  · rintro ⟨body, rest, routine, others, split, rfl, finishes, further⟩
    cases body with
    | nil =>
      cases split
      rw [(spells_cons_iff.mp further).1] at plain
      cases plain
    | cons first more =>
      cases split
      exact ⟨more, rest, routine, others, rfl, rfl, ⟨finishes.heading, by simp [finishes.body],
        finishes.labelled, fun line member => finishes.plain line (List.mem_cons_of_mem _ member)⟩,
        further⟩
  · rintro ⟨body, rest, routine, others, rfl, rfl, finishes, further⟩
    exact ⟨line :: body, rest, routine, others, rfl, rfl, ⟨finishes.heading,
      by simp [finishes.body], finishes.labelled, List.forall_mem_cons.mpr ⟨plain, finishes.plain⟩⟩,
      further⟩

theorem close_finishes :
    close number draft.header draft.body = .ok routine ↔ Finishes draft [] routine := by
  rw [close_iff]
  exact ⟨fun ⟨heading, body, labelled⟩ => ⟨heading, by simp [body], labelled, nofun⟩,
    fun finishes => ⟨finishes.heading, by simp [finishes.body], finishes.labelled⟩⟩

theorem isIdle_of_header (marked : isHeader line = true) : isIdle line = false := by
  rcases List.isPrefixOf_iff_prefix.mp marked with ⟨more, rfl⟩
  rfl

theorem significant_cons (text : String) (texts : List String) :
    significant (text :: texts) = if isIdle (Text.trim text.toList) then significant texts
      else Text.trim text.toList :: significant texts := by
  cases idle : isIdle (Text.trim text.toList) <;> simp [significant, idle]

/-- Reading accepts the lines that spell a table, and no others. -/
theorem readLines_iff {texts : List String} :
    (readLines number none texts = .ok routines ↔ Spells (significant texts) routines) ∧
      ∀ draft, readLines number (some draft) texts = .ok routines ↔
        Continues draft (significant texts) routines := by
  induction texts generalizing number routines with
  | nil =>
    refine ⟨⟨fun read => ?_, fun spells => ?_⟩, fun draft => ⟨fun read => ?_, ?_⟩⟩
    · cases read
      exact .nil
    · cases spells
      rfl
    · rcases Except.bind_eq_ok.mp read with ⟨routine, closed, same⟩
      cases same
      exact ⟨[], [], routine, [], rfl, rfl, close_finishes.mp closed, .nil⟩
    · rintro ⟨body, rest, routine, others, split, rfl, finishes, further⟩
      rcases List.append_eq_nil_iff.mp split.symm with ⟨rfl, rfl⟩
      cases further
      exact Except.bind_eq_ok.mpr ⟨routine, close_finishes.mpr finishes, rfl⟩
  | cons text texts ih =>
    by_cases marked : isHeader (Text.trim text.toList) = true
    · have counts : significant (text :: texts) = Text.trim text.toList :: significant texts := by
        simp [significant_cons, isIdle_of_header marked]
      have opens (draft? : Option Draft) : readLines number draft? (text :: texts) = .ok routines ↔
          ∃ finished, closeDraft number draft? = .ok finished ∧
            ∃ following, Spells (significant (text :: texts)) following ∧
              routines = finished ++ following := by
        rw [readLines.eq_def]
        simp only [show marker.toList.isPrefixOf _ = true from marked, if_true,
          Except.bind_eq_ok, counts, spells_cons_iff, marked, true_and, readHeader_iff, ih.2]
        refine exists_congr fun finished => and_congr_right fun _ => ⟨?_, ?_⟩
        · rintro ⟨header, read, following, further, same⟩
          cases same
          exact ⟨following, ⟨header, read, further⟩, rfl⟩
        · rintro ⟨following, ⟨header, read, further⟩, rfl⟩
          exact ⟨header, read, following, further, rfl⟩
      refine ⟨(opens none).trans ⟨?_, fun spells => ⟨[], rfl, routines, spells, rfl⟩⟩,
        fun draft => (opens (some draft)).trans ?_⟩
      · rintro ⟨finished, closed, following, further, rfl⟩
        cases closed
        exact further
      · rw [counts, continues_header marked, ← counts]
        constructor
        · rintro ⟨finished, closed, following, further, rfl⟩
          rcases Except.bind_eq_ok.mp closed with ⟨routine, finishes, same⟩
          cases same
          exact ⟨routine, following, close_finishes.mp finishes, further, rfl⟩
        · rintro ⟨routine, others, finishes, further, rfl⟩
          exact ⟨[routine], Except.bind_eq_ok.mpr ⟨routine, close_finishes.mpr finishes, rfl⟩,
            others, further, rfl⟩
    · simp only [readLines, show ¬ marker.toList.isPrefixOf _ = true from marked, significant_cons]
      by_cases idle : isIdle (Text.trim text.toList) = true
      · simp only [show (_ || _) = true from idle, idle, if_true]
        exact ih
      · simp only [show ¬ (_ || _) = true from idle, idle]
        refine ⟨⟨nofun, fun spells => ?_⟩, fun draft => ?_⟩
        · exact absurd (spells_cons_iff.mp spells).1 marked
        · exact (ih.2 _).trans (continues_body (by simpa using marked)).symm

/-! ## Writing and reading again -/

/-- A line of a table that is written. -/
structure Tidy (line : List Char) : Prop where
  trim : Text.Trim line
  counts : isIdle line = false
  single : '\n' ∉ line

theorem tidy_of_significant {text : String} (member : line ∈ significant (Text.lines text)) :
    Tidy line := by
  rcases List.mem_filter.mp member with ⟨trimmed, counts⟩
  rcases List.mem_map.mp trimmed with ⟨whole, listed, rfl⟩
  refine ⟨Text.trim_trim _, by simpa using counts, fun ends => ?_⟩
  exact Text.single_of_mem_lines listed (Text.trim_subset _ ends)

theorem significant_tidy (tidy : ∀ line ∈ lines, Tidy line) :
    significant (Text.lines (String.ofList (lines.flatMap (· ++ ['\n'])))) = lines := by
  rw [Text.lines_flatMap fun line member => ⟨(tidy line member).trim, (tidy line member).single⟩,
    significant, List.map_map, List.map_congr_left (g := id), List.map_id, List.filter_eq_self]
  · intro line member
    simpa using (tidy line member).counts
  · intro line member
    simpa using Text.trim_eq_self (tidy line member).trim

/-- A header that is written is a line of its own with the words of the routine. -/
theorem written_header
    (proper : ∀ word ∈ routine.heading.words,
      word ≠ [] ∧ ∀ character ∈ word, Text.isBlank character = false) {header : List Char}
    (spelled : header = marker.toList ++ routine.heading.words.flatMap (' ' :: ·)) :
    isHeader header = true ∧ Text.words (header.drop marker.length) = routine.heading.words ∧
      Tidy header := by
  have marked : isHeader header = true :=
    List.isPrefixOf_iff_prefix.mpr (spelled ▸ List.prefix_append _ _)
  refine ⟨marked, ?_, ?_, isIdle_of_header marked, fun ends => ?_⟩
  · rw [spelled, show marker.length = marker.toList.length from rfl, List.drop_left]
    exact Text.words_flatMap proper
  · intro character ends
    rcases ends with first | last
    · rw [spelled] at first
      cases first
      decide
    · rcases List.eq_nil_or_concat routine.heading.words with bare | ⟨front, word, words⟩
      · cases bare
      rcases proper word (by simp [words]) with ⟨nonempty, unblank⟩
      rw [spelled, words, List.concat_eq_append, List.flatMap_append, List.flatMap_singleton,
        ← List.append_assoc,
        List.getLast?_append_of_ne_nil _ (List.cons_ne_nil _ _),
        List.getLast?_cons_of_ne_nil nonempty] at last
      exact unblank character (List.mem_of_getLast? last)
  · rw [spelled] at ends
    rcases List.mem_append.mp ends with inside | behind
    · exact absurd inside (by decide)
    · rcases List.mem_flatMap.mp behind with ⟨word, member, spaced⟩
      rcases List.mem_cons.mp spaced with space | inner
      · exact absurd space (by decide)
      · cases (proper word member).2 _ inner

/-- What is spelled is spelled by its written form. -/
theorem Spells.written (spells : Spells lines routines) (tidy : ∀ line ∈ lines, Tidy line) :
    Spells (routines.flatMap Routine.written) routines ∧
      ∀ line ∈ routines.flatMap Routine.written, Tidy line := by
  induction spells with
  | nil => exact ⟨.nil, nofun⟩
  | @cons line routine rest routines marked described legible labelled plain further ih =>
    simp only [List.forall_mem_cons, List.forall_mem_append] at tidy
    rcases ih tidy.2.2 with ⟨spells, following⟩
    have proper : ∀ word ∈ routine.heading.words,
        word ≠ [] ∧ ∀ character ∈ word, Text.isBlank character = false := fun word member =>
      Text.proper_of_mem_words (described ▸ member)
    rcases written_header proper rfl with ⟨marked, described, first⟩
    simp only [List.flatMap_cons, Routine.written, List.cons_append, List.forall_mem_cons,
      List.forall_mem_append]
    exact ⟨.cons marked described legible labelled plain spells, first, tidy.2.1, following⟩

/--
A text is read as a table exactly if its significant lines spell it: each of them
is a header or belongs to the body of the routine of the nearest header above.
The table that is written back is read as the same table.
-/
theorem tables_roundTrip :
    (∀ text routines, readTable text = .ok routines ↔
      Spells (significant (Text.lines text)) routines) ∧
    ∀ text routines, readTable text = .ok routines → readTable (write routines) = .ok routines := by
  refine ⟨fun text routines => readLines_iff.1, fun text routines read => readLines_iff.1.mpr ?_⟩
  rcases (readLines_iff.1.mp read).written fun line => tidy_of_significant with ⟨spells, tidy⟩
  rw [write, significant_tidy tidy]
  exact spells

/-- Comments, blank lines and spare blanks do not come back. -/
theorem tables_roundTrip_square :
    ∃ routine, readTable "// powers\n#BUILTIN Math sqr number  n:number\n\n  @sqr: POP r1\n" =
        .ok [routine] ∧ routine.label = "@sqr" ∧ routine.body = ["@sqr: POP r1"] ∧
      write [routine] = "#BUILTIN Math sqr number n:number\n@sqr: POP r1\n" ∧
      readTable (write [routine]) = .ok [routine] := by
  have read : readTable "// powers\n#BUILTIN Math sqr number  n:number\n\n  @sqr: POP r1\n" = .ok
      [⟨"Math", "sqr", .number, [⟨"n", .number⟩], "@sqr", ["@sqr: POP r1"]⟩] := by
    rfl
  exact ⟨_, read, rfl, rfl, by decide +kernel, tables_roundTrip.2 _ _ read⟩

theorem Spells.append {more : List (List Char)} {others : List Routine}
    (spells : Spells lines routines) (further : Spells more others) :
    Spells (lines ++ more) (routines ++ others) := by
  induction spells with
  | nil => exact further
  | cons marked described legible labelled plain _ ih =>
    rw [List.cons_append, List.append_assoc]
    exact .cons marked described legible labelled plain ih

/-- A table may be read one routine at a time. -/
theorem readTable_flatten {tables : List (List String)}
    (reads : List.Forall₂ (fun lines routine => (readLines 0 none lines).toOption = some [routine] ∧
      (lines.map String.toList).all fun line => !line.contains '\n' &&
        (line.head?.toList ++ line.getLast?.toList).all (!Text.isBlank ·)) tables routines) :
    readTable (String.ofList ((tables.flatten.map String.toList).flatMap (· ++ ['\n']))) =
      .ok routines := by
  have ⟨spells, proper⟩ : Spells (significant tables.flatten) routines ∧
      ∀ line ∈ tables.flatten.map String.toList, Text.Trim line ∧ '\n' ∉ line := by
    induction reads with
    | nil => exact ⟨.nil, by simp⟩
    | @cons lines routine _ _ read _ ih =>
      rcases read with ⟨read, proper⟩
      have first : readLines 0 none lines = .ok [routine] := by
        cases result : readLines 0 none lines <;> rw [result] at read <;> cases read
        rfl
      rw [List.flatten_cons, List.map_append, List.forall_mem_append]
      refine ⟨?_, fun line member => ?_, ih.2⟩
      · simpa [significant] using (readLines_iff.1.mp first).append ih.1
      · have proper := List.all_eq_true.mp proper line member
        simp only [Bool.and_eq_true, List.all_eq_true, List.mem_append] at proper
        refine ⟨fun character ends => ?_, by simpa using proper.1⟩
        simpa using proper.2 character (by simpa using ends)
  rw [readTable, Text.lines_flatMap proper, List.map_map, List.map_congr_left (g := id),
    List.map_id]
  · exact readLines_iff.1.mpr spells
  · exact fun line _ => String.ofList_toList

/-- The standard routines are what their table spells. -/
theorem readTable_standard :
    readTable (String.ofList ((standardTable.flatten.map String.toList).flatMap (· ++ ['\n']))) =
      .ok standard := by
  refine readTable_flatten (.cons ?_ (.cons ?_ (.cons ?_ (.cons ?_ .nil)))) <;> decide +kernel

end Routine

end Covenant
