import Covenant.Proofs.InternalErrors
import Covenant.Proofs.TokenTiling
import Covenant.Report

/-!
# Reported lines

The line that an error names is one on which a token of the source stands.  A
token has a character, so a line of the source is there to be shown, and the
report shows it with the line behind it, if there is one.
-/

namespace Covenant

/-! ## Counting lines -/

namespace Text

theorem split_ne_nil (cuts : Char → Bool) (text : List Char) : split cuts text ≠ [] := by
  fun_cases split cuts text <;> simp

theorem length_linesOfPieces_le (pieces : List (List Char)) :
    (linesOfPieces pieces).length ≤ pieces.length := by
  fun_induction linesOfPieces pieces with
  | case1 => exact Nat.le_refl _
  | case2 last empty => exact Nat.zero_le _
  | case3 last some => exact Nat.le_refl _
  | case4 line next rest ih => exact Nat.succ_le_succ ih

/-- A character more in the first piece does not take a line away. -/
theorem length_linesOfPieces_cons (character : Char) (piece : List Char)
    (pieces : List (List Char)) : (linesOfPieces (piece :: pieces)).length ≤
      (linesOfPieces ((character :: piece) :: pieces)).length := by
  cases pieces with
  | nil => cases piece <;> simp [linesOfPieces]
  | cons next rest => simp [linesOfPieces]

/-- In front of a character there are fewer line feeds than lines. -/
theorem count_lt_lines (front : List Char) {back : List Char} (more : back ≠ []) :
    front.count '\n' < (linesOfPieces (split (· == '\n') (front ++ back))).length := by
  induction front with
  | nil =>
    rcases List.exists_cons_of_ne_nil more with ⟨first, rest, rfl⟩
    simp only [List.nil_append, split, List.count_nil]
    cases pieces : split (· == '\n') rest with
    | nil => exact absurd pieces (split_ne_nil _ _)
    | cons piece others => split <;> cases others <;> simp [linesOfPieces]
  | cons first rest ih =>
    simp only [List.cons_append, split]
    cases pieces : split (· == '\n') (rest ++ back) with
    | nil => exact absurd pieces (split_ne_nil _ _)
    | cons piece others =>
      rw [pieces] at ih
      by_cases ends : first = '\n'
      · simpa [ends, linesOfPieces] using ih
      · simpa [ends] using Nat.lt_of_lt_of_le ih (length_linesOfPieces_cons first piece others)

end Text

theorem Token.line_le {source : String} {token : Token} (listed : token ∈ scan source) :
    1 ≤ token.line ∧ token.line ≤ (Text.lines source).length := by
  rcases scan_stands listed with ⟨front, spelling, back, cut, some, -⟩
  have further : spelling.toList ++ back.toList ≠ [] := by simp [some]
  have place : token.line = front.toList.count '\n' + 1 := cut.line
  have fewer := Text.count_lt_lines front.toList further
  rw [← List.append_assoc, ← String.toList_append, ← String.toList_append, ← cut.source] at fewer
  rw [place, Text.lines, List.length_map]
  exact ⟨Nat.le_add_left _ _, fewer⟩

/-! ## Reports -/

/-- A source without tokens is compiled. -/
theorem compile_of_empty {options : CompileOptions} {source : String}
    (empty : Token.scan source = []) : compile options source = .ok [] := by
  rw [compile, Program.read, empty]
  rfl

namespace Report

/-- The part of a report that shows a line, and the one behind it if there is one. -/
def snippet (isInternal : Bool) (file : String) (number : Nat) (line : List Char) :
    Option (List Char) → String
  | none => lastSnippet isInternal file number line
  | some following => pairSnippet isInternal file number line following

theorem render_of_line {error : Error} {number : Nat} {line : List Char} {source : String}
    (located : error.line? = some number) (positive : 1 ≤ number)
    (there : (sourceLines source)[number - 1]? = some line) (file : String) :
    render error file source = header error ++
      snippet error.isInternal file number line (sourceLines source)[number]? ++ "\n" := by
  have rest : (sourceLines source).drop (number - 1) =
      line :: (sourceLines source).drop number := by
    rw [List.drop_eq_getElem?_toList_append, there, Nat.sub_add_cancel positive]
    rfl
  have following : (sourceLines source)[number]? = ((sourceLines source).drop number)[0]? := by
    rw [List.getElem?_drop, Nat.add_zero]
  rw [render, details, located, following]
  simp only [Option.bind_some, linesAt?, rest, if_neg (Nat.ne_of_gt positive)]
  cases (sourceLines source).drop number <;> rfl

/-- The error names a line of the source, and its report shows that line. -/
structure Locates (source : String) (error : Error) (number : Nat) : Prop where
  stands : ∃ token ∈ Token.scan source, token.line = number
  positive : 1 ≤ number
  within : number ≤ (Text.lines source).length
  shown : ∃ line, (sourceLines source)[number - 1]? = some line ∧ ∀ file,
    render error file source = header error ++
      snippet error.isInternal file number line (sourceLines source)[number]? ++ "\n"

theorem locates_of_token {source : String} {error : Error} {token : Token}
    (listed : token ∈ Token.scan source) (located : error.line? = some token.line) :
    Locates source error token.line := by
  have bounds := Token.line_le listed
  have inside : token.line - 1 < (sourceLines source).length := by
    have fewer := Text.length_linesOfPieces_le (sourceLines source)
    have within := bounds.2
    rw [Text.lines, List.length_map] at within
    exact Nat.lt_of_lt_of_le (Nat.sub_one_lt_of_le bounds.1 within) fewer
  have there := List.getElem?_eq_getElem inside
  exact ⟨⟨token, listed, rfl⟩, bounds.1, bounds.2, _, there, render_of_line located bounds.1 there⟩

end Report

/-- The line that a failed compilation names is a line of the source, and the report shows it. -/
theorem reported_line_shown {options : CompileOptions} {source : String} {error : Error}
    {number : Nat} (failed : compile options source = .error (.error error))
    (located : error.line? = some number) : Report.Locates source error number := by
  have shown := (compile_faults failed).shown
  rw [located] at shown
  rcases shown with empty | ⟨token, listed, rfl⟩
  · rw [compile_of_empty empty] at failed
    cases failed
  · exact Report.locates_of_token listed located

/-- A script that uses a name it does not declare, on its third line. -/
def strayScript : List String :=
  ["script stray \x7b code() \x7b\n", "  // nothing is declared\n", "  missing := 1;\n",
    "\x7d \x7d"]

theorem reported_line_shown_strayScript :
    ∃ error, compile { assemble := .labelsOnly } (String.join strayScript) =
        .error (.error error) ∧ error.line? = some 3 ∧
      Report.Locates (String.join strayScript) error 3 := by
  have failed : compile { assemble := .labelsOnly } (String.join strayScript) =
      .error (.error (.undeclaredVariable 3 "missing")) := by
    rw [compile_join]
    decide +kernel
  exact ⟨_, failed, rfl, reported_line_shown failed rfl⟩

end Covenant
