import Covenant.Token.Scan
import Mathlib.Data.List.Induction

/-!
# Where tokens are cut out of a source

A token is cut out between two characters.  Its offsets are those of whole
characters, however many bytes these take, and do not exceed the source; its
line and its column are those of the characters in front of it.  The value of a
token is a part of what was cut out.
-/

namespace Covenant

/-! ## Places -/

namespace Position

theorem past_append (position : Position) (first second : List Char) :
    position.past (first ++ second) = (position.past first).past second :=
  List.foldl_append

theorem past_cons (position : Position) (character : Char) (rest : List Char) :
    position.past (character :: rest) = (position.after character).past rest :=
  rfl

/-- A run of characters takes the bytes of all of them. -/
theorem offset_past (position : Position) (text : List Char) :
    (position.past text).offset = position.offset + (String.ofList text).utf8ByteSize := by
  induction text generalizing position with
  | nil => simp [past]
  | cons character rest ih =>
    have one : (position.after character).offset = position.offset + character.utf8Size := by
      unfold after
      split <;> rfl
    rw [past_cons, ih, one, String.ofList_cons, String.utf8ByteSize_append,
      String.utf8ByteSize_singleton, Nat.add_assoc]

/-- A run of characters ends as many lines further as it has line endings. -/
theorem line_past (position : Position) (text : List Char) :
    (position.past text).line = position.line + text.count '\n' := by
  induction text generalizing position with
  | nil => simp [past]
  | cons character rest ih =>
    rw [past_cons, ih]
    by_cases ending : character = '\n'
    · simp only [after, ending, if_true, List.count_cons_self]
      omega
    · simp [after, ending]

/-- A column counts the characters since the last line ending. -/
theorem column_past_start (text : List Char) :
    (start.past text).column = (text.reverse.takeWhile (· ≠ '\n')).length + 1 := by
  induction text using List.reverseRecOn with
  | nil => rfl
  | append_singleton front character ih =>
    rw [past_append, past_cons]
    by_cases ending : character = '\n'
    · simp [past, after, ending]
    · simpa [past, after, ending] using ih

end Position

/-! ## Lexemes -/

namespace Lexeme

/-- The characters of a lexeme at the front of a text. -/
def spelling (lexeme : Lexeme) (first : Char) (rest : List Char) : List Char :=
  (first :: rest).take (lexeme.more + 1)

theorem spelling_of_more {lexeme : Lexeme} {first : Char} {rest tail : List Char}
    (front : tail <+: rest) (more : lexeme.more = tail.length) :
    lexeme.spelling first rest = first :: tail := by
  rw [spelling, more, List.take_succ_cons, List.prefix_iff_eq_take.mp front]
  simp

theorem nameBody_front (text : List Char) : nameBody text <+: text := by
  unfold nameBody
  split
  · exact List.nil_prefix
  · split
    · exact (List.prefix_cons_inj _).mpr (List.takeWhile_prefix _)
    · exact List.nil_prefix

end Lexeme

/-! ## Tokens -/

/-- A token as it was cut out of a source. -/
structure Token.CutFrom (source : String) (token : Token) (front spelling back : String) :
    Prop where
  source : source = front ++ spelling ++ back
  start : token.start.offset = front.utf8ByteSize
  stop : token.stop = (front ++ spelling).utf8ByteSize
  line : token.start.line = front.toList.count '\n' + 1
  column : token.start.column = (front.toList.reverse.takeWhile (· ≠ '\n')).length + 1
  value : token.value.toList <:+: spelling.toList

end Covenant
