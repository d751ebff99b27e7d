import Covenant.Reading.Coercion
import Covenant.Token.Scan
import Mathlib.Data.List.TakeWhile
import Mathlib.Tactic.SplitIfs

/-!
# Forms of tokens

The value of a number is made of digits, that of a decimal has digits on both
sides of a point, and the value of an identifier is a name that is no word of
the language.
-/

namespace Covenant

/-- One or more digits. -/
def Text.IsNumeral (text : List Char) : Prop :=
  text ≠ [] ∧ ∀ character ∈ text, Text.isDigit character = true

/-- What the value of a token of the kind looks like. -/
def Token.Kind.Forms : Token.Kind → List Char → Prop
  | .number, value => Text.IsNumeral value
  | .decimal, value => ∃ whole fraction, value = whole ++ '.' :: fraction ∧
      Text.IsNumeral whole ∧ Text.IsNumeral fraction
  | .identifier, value => Word.isIdentifier (String.ofList value) = true ∧
      Word.isTypeName (String.ofList value) = false
  | _, _ => True

namespace Lexeme

variable {first : Char} {rest : List Char}

theorem word_forms (starts : Word.startsName first = true) :
    (word first rest).kind.Forms (word first rest).value := by
  have name : Word.isIdentifier (String.ofList (first :: rest.takeWhile Word.continuesName)) := by
    simp only [Word.isIdentifier, String.toList_ofList, starts, Bool.true_and]
    exact List.all_takeWhile
  simp only [word, whole, wordKind]
  split_ifs with truth isKeyword isType
  · trivial
  · trivial
  · trivial
  · exact ⟨name, by simpa using isType⟩

theorem numeral_forms (starts : Text.isDigit first = true) :
    (numeral first rest).kind.Forms (numeral first rest).value := by
  have digits : Text.IsNumeral (first :: rest.takeWhile Text.isDigit) := by
    refine ⟨List.cons_ne_nil _ _, List.forall_mem_cons.mpr ⟨starts, fun character listed => ?_⟩⟩
    exact List.mem_takeWhile_imp listed
  unfold numeral
  split
  · trivial
  · simp only
    split
    · rename_i places behind
      split
      · exact digits
      · rename_i some
        refine ⟨_, places.takeWhile Text.isDigit, rfl, digits, by simpa using some, ?_⟩
        exact fun character listed => List.mem_takeWhile_imp listed
    · exact digits

theorem read_forms (first : Char) (rest : List Char) :
    (read first rest).kind.Forms (read first rest).value := by
  unfold read
  split
  · rename_i block found
    have isBlock : block.kind = .assembly := by
      unfold assemblyBlock? at found
      split at found
      · simp only at found
        split_ifs at found
        split at found <;> cases found
        rfl
      · cases found
    rw [isBlock]
    trivial
  · split_ifs with isWord isNumeral
    · exact word_forms isWord
    · exact numeral_forms isNumeral
    · unfold quotation
      simp only
      split <;> trivial
    · unfold signed
      split <;> trivial
    · unfold signed
      split <;> trivial
    · unfold signed
      split <;> trivial
    · unfold symbol
      split
      · trivial
      · split_ifs <;> trivial

end Lexeme

namespace Token

theorem scanFrom_forms {rounds : Nat} {position : Position} {text : List Char} {token : Token}
    (listed : token ∈ scanFrom rounds position text) : token.kind.Forms token.value.toList := by
  induction rounds generalizing position text with
  | zero => cases listed
  | succ rounds ih =>
    simp only [scanFrom] at listed
    split at listed
    · cases listed
    · rcases List.mem_cons.mp listed with rfl | later
      · rw [String.toList_ofList]
        exact Lexeme.read_forms _ _
      · exact ih later

/-- The tokens of a source have the form that their kind asks for. -/
theorem scan_forms {source : String} {token : Token} (listed : token ∈ scan source) :
    token.kind.Forms token.value.toList :=
  scanFrom_forms listed

end Token

/-- A text is cut at the mark that digits stand in front of. -/
theorem Text.cutAt_numeral {mark : Char} (other : isDigit mark = false) {front : List Char}
    (digits : ∀ character ∈ front, isDigit character = true) (back : List Char) :
    cutAt mark (front ++ mark :: back) = some (front, back) := by
  induction front with
  | nil => simp [cutAt]
  | cons first rest ih =>
    rw [List.forall_mem_cons] at digits
    have differs : first ≠ mark := by
      rintro rfl
      rw [digits.1] at other
      cases other
    simp [cutAt, differs, ih digits.2]

theorem scaledDecimal?_spelled {written : String} {whole fraction : List Char}
    (spelled : written.toList = whole ++ '.' :: fraction) (numeral : Text.IsNumeral whole) :
    scaledDecimal? written =
      some (String.ofList (wholeDigits (whole ++ fraction)), fraction.length) := by
  rw [scaledDecimal?, spelled, Text.cutAt_numeral rfl numeral.2]
  rfl

end Covenant
