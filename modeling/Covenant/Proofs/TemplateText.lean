import Covenant.Module.Template
import Covenant.Proofs.RoutineRuns
import Mathlib.Data.List.Basic

/-!
# What templates show

The program of a template shows its pieces one after the other.  An opening
brace is paired with the next closing one, whatever stands in between.  So a
placeholder is not replaced if another brace has been opened before it and has
not been closed; `showsAll_iff` says that nothing else can go wrong.
-/

namespace Covenant.Template

open Datum (Reaches Returns Snapshot)

/-- The text with every placeholder replaced. -/
def filled (address data : List Char) : List Char → List Char
  | '\x7b' :: 'a' :: 'd' :: 'd' :: 'r' :: 'e' :: 's' :: 's' :: '\x7d' :: rest =>
    address ++ filled address data rest
  | '\x7b' :: 'd' :: 'a' :: 't' :: 'a' :: '\x7d' :: rest => data ++ filled address data rest
  | first :: rest => first :: filled address data rest
  | [] => []

/-- What a piece shows. -/
def Part.shown (address data : List Char) : Part → List Char
  | .text content => content
  | .address => address
  | .data => data

/-- What the pieces of a template show. -/
def shown (address data : List Char) (inside : Option (List Char)) (template : List Char) :
    List Char :=
  (partsFrom [] inside template).flatMap (Part.shown address data)

/-- Does a placeholder start here? -/
def startsPlaceholder (template : List Char) : Bool :=
  "\x7baddress\x7d".toList.isPrefixOf template || "\x7bdata\x7d".toList.isPrefixOf template

/-- Does a placeholder start where a brace is open? -/
def hides (opened : Bool) : List Char → Bool
  | [] => false
  | first :: rest =>
    (opened && startsPlaceholder (first :: rest)) ||
      hides (first != '\x7d' && (opened || first == '\x7b')) rest

/-! ## Running the program -/

/-- The machine has the two values and has shown some text. -/
structure Showing (address data made : List Char) (stack : List Datum) (machine : Machine Datum) :
    Prop where
  made : machine.registers 1 = .text made
  address : machine.registers 2 = .text address
  data : machine.registers 3 = .text data
  stack : machine.stack = stack

variable {address data made : List Char} {stack : List Datum} {machine : Machine Datum}
  {before after : List Line} {goal : Snapshot → Prop}

theorem stands_behind {line : Line} :
    (before ++ line :: after)[before.length]? = some line := by
  simp

/-- A piece is appended to the text so far. -/
theorem shows_part (part : Part) (showing : Showing address data made stack machine)
    (rest : ∀ later, Showing address data (made ++ part.shown address data) stack later →
      Reaches (before ++ (part.code ++ after)) goal ((before ++ part.code).length, later)) :
    Reaches (before ++ (part.code ++ after)) goal (before.length, machine) := by
  rcases showing with ⟨written, addressed, given, stacked⟩
  rw [List.length_append] at rest
  cases part with
  | text content =>
    have appends : (before ++ ((Part.text content).code ++ after))[before.length + 1]? =
        some (.instruction .cat [result, .scratch, result]) := by
      simp [Part.code]
    refine .next stands_behind rfl (.computes (.text (made ++ content)) appends rfl ?_ ?_)
    · simp [written]
    · exact rest _ ⟨rfl, addressed, given, stacked⟩
  | address =>
    refine .computes (.text (made ++ address)) stands_behind rfl (by simp [written, addressed]) ?_
    exact rest _ ⟨rfl, addressed, given, stacked⟩
  | data =>
    refine .computes (.text (made ++ data)) stands_behind rfl (by simp [written, given]) ?_
    exact rest _ ⟨rfl, addressed, given, stacked⟩

/-- The pieces are appended one after the other, and the text is handed over. -/
theorem shows_parts {parts : List Part} (showing : Showing address data made stack machine) :
    Returns (before ++ (parts.flatMap Part.code ++
        [.instruction .push [result], .instruction .ret []]))
      (.text (made ++ parts.flatMap (Part.shown address data)) :: stack)
      (before.length, machine) := by
  induction parts generalizing before made machine with
  | nil =>
    refine .pushes stands_behind (.here ⟨?_, ?_⟩)
    · simp [showing.made, showing.stack]
    · simp
  | cons first rest ih =>
    rw [List.flatMap_cons, List.flatMap_cons, List.append_assoc, ← List.append_assoc made]
    refine shows_part first showing fun later next => ?_
    rw [← List.append_assoc before]
    exact ih next

/-- The program of a template leaves what its pieces show. -/
theorem code_shows (template : String) (registers : Nat → Datum) :
    Returns (code template) (.text (shown address data none template.toList) :: stack)
      (0, ⟨registers, .text address :: .text data :: stack⟩) := by
  rw [code, List.append_assoc]
  refine .pops rfl rfl (.next rfl rfl (.pops rfl rfl (.next rfl rfl (.loads rfl rfl ?_))))
  show Returns _ (.text ([] ++ _) :: stack) _
  exact shows_parts ⟨rfl, rfl, rfl, rfl⟩

/-! ## What the pieces show -/

section Pieces

variable {inside opened template rest : List Char} {hidden : Bool} {part : Part}

theorem shown_textPart (content : List Char) :
    (textPart content).flatMap (Part.shown address data) = content := by
  cases content <;> simp [textPart, Part.shown]

/-- The text since the last piece is shown in front. -/
theorem shown_partsFrom (before : List Char) (inside : Option (List Char)) :
    (partsFrom before inside template).flatMap (Part.shown address data) =
      before ++ shown address data inside template := by
  induction template generalizing before inside with
  | nil => cases inside <;> simp [shown, partsFrom, shown_textPart]
  | cons first rest ih =>
    have behind := ih [first] none
    cases inside with
    | none => grind [shown, partsFrom]
    | some opened =>
      by_cases closes : first = '\x7d'
      · cases named : Part.ofPlaceholder? opened <;>
          simp [shown, partsFrom, closes, named, shown_textPart, Part.shown]
      · simp [shown, partsFrom, closes, ih before]

theorem shown_none_cons (first : Char) :
    shown address data none (first :: rest) =
      if first = '\x7b' then shown address data (some []) rest
      else first :: shown address data none rest := by
  rw [shown, partsFrom]
  split
  · rfl
  · exact shown_partsFrom [first] none

theorem shown_close :
    shown address data (some opened) ('\x7d' :: rest) =
      (match Part.ofPlaceholder? opened with
        | some part => part.shown address data
        | none => '\x7b' :: opened ++ ['\x7d']) ++ shown address data none rest := by
  cases named : Part.ofPlaceholder? opened <;> simp [shown, partsFrom, named, Part.shown, textPart]

theorem filled_cons {first : Char} (starts : startsPlaceholder (first :: rest) = false) :
    filled address data (first :: rest) = first :: filled address data rest := by
  rw [filled]
  · rintro rest rfl rfl
    cases starts
  · rintro rest rfl rfl
    cases starts

theorem hides_opened {first : Char} (goes : first ≠ '\x7d') :
    hides true (first :: rest) = (startsPlaceholder (first :: rest) || hides true rest) := by
  simp [hides, bne_iff_ne.mpr goes]

/-- Where no brace is closed, there is no placeholder. -/
theorem startsPlaceholder_open (closed : '\x7d' ∉ template) :
    startsPlaceholder template = false := by
  rw [startsPlaceholder, Bool.or_eq_false_iff, ← Bool.not_eq_true, ← Bool.not_eq_true,
    List.isPrefixOf_iff_prefix, List.isPrefixOf_iff_prefix]
  exact ⟨fun starts => closed (starts.subset (by decide)),
    fun starts => closed (starts.subset (by decide))⟩

theorem eq_of_ofPlaceholder? (named : Part.ofPlaceholder? inside = some part) :
    inside = "address".toList ∧ part = .address ∨ inside = "data".toList ∧ part = .data := by
  unfold Part.ofPlaceholder? at named
  split at named
  · exact .inl ⟨‹_›, Option.some.inj named.symm⟩
  · split at named
    · exact .inr ⟨‹_›, Option.some.inj named.symm⟩
    · cases named

/-- Before the next closing brace there is room for one placeholder only. -/
theorem startsPlaceholder_append (closed : '\x7d' ∉ opened)
    (starts : startsPlaceholder (opened ++ '\x7d' :: rest) = true) :
    ∃ inside part, opened = '\x7b' :: inside ∧ Part.ofPlaceholder? inside = some part := by
  have leads : (opened ++ '\x7d' :: rest).takeWhile (· != '\x7d') = opened := by
    rw [List.takeWhile_append_of_pos (by grind)]
    simp
  rw [startsPlaceholder, Bool.or_eq_true, List.isPrefixOf_iff_prefix,
    List.isPrefixOf_iff_prefix] at starts
  rcases starts with ⟨behind, same⟩ | ⟨behind, same⟩
  · exact ⟨_, .address, by rw [← leads, ← same]; rfl, rfl⟩
  · exact ⟨_, .data, by rw [← leads, ← same]; rfl, rfl⟩

theorem filled_placeholder (named : Part.ofPlaceholder? inside = some part) :
    filled address data ('\x7b' :: (inside ++ '\x7d' :: rest)) =
      part.shown address data ++ filled address data rest := by
  rcases eq_of_ofPlaceholder? named with ⟨rfl, rfl⟩ | ⟨rfl, rfl⟩ <;> rfl

theorem hides_placeholder (named : Part.ofPlaceholder? inside = some part) :
    hides true (inside ++ '\x7d' :: rest) = hides false rest := by
  rcases eq_of_ofPlaceholder? named with ⟨rfl, rfl⟩ | ⟨rfl, rfl⟩ <;> rfl

/--
One way to show a template is right unless something is hidden, and then it
shows too much.
-/
structure Agrees (hidden : Bool) (shown filled : List Char → List Char → List Char) : Prop where
  equal : hidden = false → shown = filled
  shorter : (filled [] []).length + hidden.toNat ≤ (shown [] []).length

namespace Agrees

variable {shown filled : List Char → List Char → List Char}

theorem append (agrees : Agrees hidden shown filled) (front : List Char → List Char → List Char) :
    Agrees hidden (fun address data => front address data ++ shown address data)
      (fun address data => front address data ++ filled address data) where
  equal := fun none => by rw [agrees.equal none]
  shorter := by
    have shorter := agrees.shorter
    simp only [List.length_append]
    omega

/-- A placeholder is shown as it is. -/
theorem hide (agrees : Agrees hidden shown filled)
    (named : Part.ofPlaceholder? inside = some part) :
    Agrees true (fun address data => '\x7b' :: inside ++ '\x7d' :: shown address data)
      (fun address data => part.shown address data ++ filled address data) where
  equal := fun none => nomatch none
  shorter := by
    have shorter := agrees.shorter
    have empty : part.shown [] [] = [] := by
      rcases eq_of_ofPlaceholder? named with ⟨rfl, rfl⟩ | ⟨rfl, rfl⟩ <;> rfl
    simp only [empty, List.nil_append, List.length_append, List.length_cons, Bool.toNat_true]
    omega

end Agrees

/-- The text between two braces that is no placeholder is shown as it is. -/
theorem agrees_close {later : List Char → List Char → List Char} (closed : '\x7d' ∉ opened)
    (agrees : Agrees (hides false rest) later (filled · · rest)) :
    Agrees (hides true (opened ++ '\x7d' :: rest))
      (fun address data => opened ++ '\x7d' :: later address data)
      (filled · · (opened ++ '\x7d' :: rest)) := by
  induction opened with
  | nil =>
    have ends : startsPlaceholder ('\x7d' :: rest) = false := rfl
    simpa [hides, ends, filled_cons ends] using agrees.append fun _ _ => ['\x7d']
  | cons first inner ih =>
    have inside : '\x7d' ∉ inner := fun stands => closed (.tail first stands)
    have goes : first ≠ '\x7d' := fun ends => closed (ends ▸ List.mem_cons_self)
    have further := (ih inside).append fun _ _ => [first]
    rw [List.cons_append, hides_opened goes]
    cases starts : startsPlaceholder (first :: (inner ++ '\x7d' :: rest)) with
    | true =>
      rcases startsPlaceholder_append closed starts with ⟨inside, part, same, named⟩
      cases same
      simp only [filled_placeholder named]
      exact agrees.hide named
    | false => simpa [filled_cons starts] using further

/-- A brace that is never closed is shown with the text behind it. -/
theorem agrees_open (closed : '\x7d' ∉ opened) :
    Agrees (hides true opened) (fun _ _ => opened) (filled · · opened) := by
  induction opened with
  | nil => exact ⟨fun _ => rfl, Nat.le_refl 0⟩
  | cons first inner ih =>
    have inside : '\x7d' ∉ inner := fun stands => closed (.tail first stands)
    have goes : first ≠ '\x7d' := fun ends => closed (ends ▸ List.mem_cons_self)
    have starts := startsPlaceholder_open closed
    simpa [hides_opened goes, starts, filled_cons starts] using
      (ih inside).append fun _ _ => [first]

/-- The pieces show the filled template unless a placeholder is hidden. -/
theorem agrees_parts (template : List Char) :
    Agrees (hides false template) (shown · · none template) (filled · · template) ∧
      ∀ opened, '\x7d' ∉ opened →
        Agrees (hides true (opened ++ template)) (shown · · (some opened) template)
          (filled · · ('\x7b' :: opened ++ template)) := by
  induction template with
  | nil =>
    refine ⟨⟨fun _ => rfl, Nat.le_refl 0⟩, fun opened closed => ?_⟩
    have starts := @startsPlaceholder_open ('\x7b' :: opened) (by simpa using closed)
    simpa [shown, partsFrom, shown_textPart, filled_cons starts] using
      (agrees_open closed).append fun _ _ => ['\x7b']
  | cons first rest ih =>
    rcases ih with ⟨outside, inside⟩
    constructor
    · by_cases opens : first = '\x7b'
      · subst opens
        simpa [shown_none_cons, hides] using inside [] List.not_mem_nil
      · have starts : startsPlaceholder (first :: rest) = false := by
          simp [startsPlaceholder, List.isPrefixOf, beq_false_of_ne (Ne.symm opens)]
        simpa [shown_none_cons, hides, opens, beq_false_of_ne opens, filled_cons starts] using
          outside.append fun _ _ => [first]
    · intro opened closed
      by_cases closes : first = '\x7d'
      · subst closes
        cases named : Part.ofPlaceholder? opened with
        | some part =>
          simpa [shown_close, named, filled_placeholder named, hides_placeholder named] using
            outside.append part.shown
        | none =>
          have starts : startsPlaceholder ('\x7b' :: (opened ++ '\x7d' :: rest)) = false := by
            refine Bool.eq_false_iff.mpr fun starts => ?_
            rcases @startsPlaceholder_append ('\x7b' :: opened) rest
              (by simpa using closed) starts with
            ⟨inside, part, same, found⟩
            cases same
            cases named.symm.trans found
          simpa [shown_close, named, filled_cons starts] using
            (agrees_close closed outside).append fun _ _ => ['\x7b']
      · have further := inside (opened ++ [first]) (by simp [closed, Ne.symm closes])
        simpa [shown, partsFrom, closes] using further

end Pieces

/--
The program of a template takes the address and the data from the stack and
always leaves a text.  This is the template with all placeholders replaced, for
every address and data, exactly if no placeholder starts where a brace is open.
-/
theorem showsAll_iff (template : String) (registers : Nat → Datum) (stack : List Datum) :
    (∀ address data, ∃ text, Returns (code template) (.text text :: stack)
      (0, ⟨registers, .text address :: .text data :: stack⟩)) ∧
    ((∀ address data, Returns (code template) (.text (filled address data template.toList) :: stack)
        (0, ⟨registers, .text address :: .text data :: stack⟩)) ↔
      hides false template.toList = false) := by
  have agrees := (agrees_parts template.toList).1
  refine ⟨fun address data => ⟨_, code_shows template registers⟩, fun all => ?_, fun none => ?_⟩
  · have same := (all [] []).unique (code_shows template registers)
    have shorter := agrees.shorter
    simp only [List.cons.injEq, Datum.text.injEq, and_true] at same
    rw [← same] at shorter
    cases hidden : hides false template.toList with
    | false => rfl
    | true =>
      rw [hidden] at shorter
      exact absurd shorter (Nat.not_succ_le_self _)
  · intro address data
    rw [← congrFun (congrFun (agrees.equal none) address) data]
    exact code_shows template registers

/-- A second brace in front of a placeholder hides it. -/
theorem braced_not_filled :
    ¬ Returns (code "\x7b\x7baddress\x7d")
      [.text (filled ['a'] [] "\x7b\x7baddress\x7d".toList)]
      (0, ⟨fun _ => .empty, [.text ['a'], .text []]⟩) := by
  intro returns
  have same := returns.unique (code_shows "\x7b\x7baddress\x7d" fun _ => .empty)
  revert same
  decide

end Covenant.Template
