import Covenant.Proofs.TokenSlices

/-!
# Tokens tile the source

A source is an alternation of gaps and tokens.  A gap is made of spaces and
comments and of nothing else; only behind the last token may a comment be left
open.  A token stands on at least one character, its place is that of its first
character, and its value is what it stands on, except that a sign in front is
left out and that a block of assembly is reduced to what is between its braces.

`Gap` and `Token.Kind.Spells` say what these texts look like, and say it
without the functions that cut them out.
-/

namespace Covenant

variable {text : List Char} {first : Char} {block : Lexeme}

/-! ## Gaps -/

/-- What closes a block comment. -/
def Trivia.closing : List Char :=
  ['*', '/']

/--
A text of spaces and comments.  A comment that is not closed can only stand in
the `final` gap of a source.
-/
inductive Gap (final : Bool) : List Char → Prop
  | empty : Gap final []
  | space {character : Char} {rest : List Char} (isSpace : Trivia.isSpace character = true)
      (further : Gap final rest) : Gap final (character :: rest)
  | lineComment {body rest : List Char} (oneLine : '\n' ∉ body) (further : Gap final rest) :
      Gap final ('/' :: '/' :: (body ++ '\n' :: rest))
  | blockComment {body rest : List Char} (first : ¬ Trivia.closing <:+: body ++ ['*'])
      (further : Gap final rest) : Gap final ('/' :: '*' :: (body ++ '*' :: '/' :: rest))
  | openLine {body : List Char} (last : final = true) (oneLine : '\n' ∉ body) :
      Gap final ('/' :: '/' :: body)
  | openBlock {body : List Char} (last : final = true) (unclosed : ¬ Trivia.closing <:+: body) :
      Gap final ('/' :: '*' :: body)

namespace Gap

variable {final : Bool} {character : Char} {text : List Char}

/-- A line comment can have one more character in front. -/
theorem lineComment_cons (sameLine : character ≠ '\n') (gap : Gap final ('/' :: '/' :: text)) :
    Gap final ('/' :: '/' :: character :: text) := by
  cases gap with
  | space isSpace => simp [Trivia.isSpace] at isSpace
  | @lineComment body rest oneLine further =>
    apply @lineComment _ (character :: body) _ _ further
    simpa using ⟨sameLine.symm, oneLine⟩
  | openLine last oneLine =>
    apply openLine last
    simpa using ⟨sameLine.symm, oneLine⟩

/-- Where a text is put in front of another, a new occurrence has to start with it. -/
theorem closing_infix_cons (inside : Trivia.closing <:+: character :: text) :
    (character = '*' ∧ text.head? = some '/') ∨ Trivia.closing <:+: text := by
  rcases List.infix_cons_iff.mp inside with ⟨back, front⟩ | later
  · simp only [Trivia.closing, List.cons_append, List.cons.injEq, List.nil_append] at front
    exact .inl ⟨front.1.symm, by rw [← front.2]; rfl⟩
  · exact .inr later

/-- A block comment can have one more character in front that does not close it. -/
theorem blockComment_cons (continues : ¬ (character = '*' ∧ text.head? = some '/'))
    (gap : Gap final ('/' :: '*' :: text)) :
    Gap final ('/' :: '*' :: character :: text) := by
  cases gap with
  | space isSpace => simp [Trivia.isSpace] at isSpace
  | @blockComment body rest first further =>
    apply @blockComment _ (character :: body) _ _ further
    intro inside
    rcases closing_infix_cons inside with ⟨star, slash⟩ | later
    · apply continues
      refine ⟨star, ?_⟩
      cases body with
      | nil => simp at slash
      | cons next others => simpa using slash
    · exact first later
  | openBlock last unclosed =>
    apply openBlock last
    intro inside
    rcases closing_infix_cons inside with closes | later
    · exact continues closes
    · exact unclosed later

end Gap

namespace Trivia

/-- The text completes a gap; inside a comment, one that starts with that comment. -/
def Completes (final : Bool) : Trivia → List Char → Prop
  | between, text => Gap final text
  | lineComment, text => Gap final ('/' :: '/' :: text)
  | blockComment, text => Gap final ('/' :: '*' :: text)

/-- What is skipped completes a gap, and if nothing is left it is the final one. -/
theorem completes_take (trivia : Trivia) (text : List Char) :
    trivia.Completes (text.drop (trivia.width text)).isEmpty (text.take (trivia.width text)) := by
  fun_induction width trivia text with
  | case1 trivia =>
    cases trivia with
    | between => exact .empty
    | lineComment => exact .openLine rfl (by simp)
    | blockComment => exact .openBlock rfl (by simp [closing])
  | case2 rest ih => exact ih
  | case3 rest ih => exact ih
  | case4 character rest _ _ isSpace ih => exact Gap.space isSpace ih
  | case5 character rest _ _ isSpace => exact Gap.empty
  | case6 rest ih => exact @Gap.lineComment _ [] _ (by simp) ih
  | case7 character rest sameLine ih => exact Gap.lineComment_cons sameLine ih
  | case8 rest ih => exact @Gap.blockComment _ [] _ (by decide) ih
  | case9 character rest continues ih =>
    apply Gap.blockComment_cons _ ih
    rintro ⟨rfl, slash⟩
    -- The first character that is skipped is the first one there is.
    cases rest with
    | nil => simp at slash
    | cons next others =>
      cases skipped : width blockComment (next :: others) with
      | zero => simp [skipped] at slash
      | succ more =>
        rw [skipped, List.take_succ_cons, List.head?_cons, Option.some.injEq] at slash
        exact continues others rfl (by rw [slash])

/-- Between tokens the gap is closed. -/
theorem gap_of_drop {rest : List Char} (behind : text.drop (between.width text) = first :: rest) :
    Gap false (text.take (between.width text)) := by
  have completes := completes_take between text
  rw [behind] at completes
  exact completes

/-- Behind the last token the gap is all that is left. -/
theorem finalGap_of_drop (behind : text.drop (between.width text) = []) : Gap true text := by
  have completes := completes_take between text
  have whole : text.take (between.width text) = text :=
    List.take_of_length_le (List.drop_eq_nil_iff.mp behind)
  rw [behind, whole] at completes
  exact completes

end Trivia

/-! ## The text of a token -/

/-- No closing brace stands before its opening one. -/
def Nested (body : List Char) : Prop :=
  ∀ front, front <+: body → front.count '\x7d' ≤ front.count '\x7b'

/--
A block of assembly with its body: it ends with the brace that closes it, or
with the source.
-/
inductive AssemblyBlock (body : List Char) : (spelling back : List Char) → Prop
  | closed {blanks back : List Char} (blank : ∀ character ∈ blanks, Text.isBlank character = true)
      (nested : Nested body) (even : body.count '\x7d' = body.count '\x7b') :
      AssemblyBlock body ("asm".toList ++ blanks ++ '\x7b' :: body ++ ['\x7d']) back
  | unclosed {blanks : List Char} (blank : ∀ character ∈ blanks, Text.isBlank character = true)
      (nested : Nested body) : AssemblyBlock body ("asm".toList ++ blanks ++ '\x7b' :: body) []

/-- What a token with a value stands on, in front of the rest of the source. -/
def Token.Kind.Spells (kind : Token.Kind) (value spelling back : List Char) : Prop :=
  match kind with
  | .address => spelling = '@' :: value
  | .hash => spelling = '#' :: value
  | .macroName => spelling = '$' :: value
  | .assembly => AssemblyBlock value spelling back
  | _ => spelling = value

/-- The value of a token is a part of what it stands on. -/
theorem Token.Kind.Spells.within {kind : Token.Kind} {value spelling back : List Char}
    (spells : kind.Spells value spelling back) : value <:+: spelling := by
  cases kind with
  | address | hash | macroName => exact spells ▸ (List.suffix_cons _ value).isInfix
  | assembly =>
    rcases spells with @⟨blanks, _⟩ | @⟨blanks⟩
    · exact ⟨"asm".toList ++ blanks ++ ['\x7b'], ['\x7d'], by simp⟩
    · exact ⟨"asm".toList ++ blanks ++ ['\x7b'], [], by simp⟩
  | _ => exact spells ▸ List.infix_rfl

namespace Lexeme

/-- What is left of a text behind a lexeme at its front. -/
def back (lexeme : Lexeme) (rest : List Char) : List Char :=
  rest.drop lexeme.more

theorem spelling_append_back (lexeme : Lexeme) (first : Char) (rest : List Char) :
    lexeme.spelling first rest ++ lexeme.back rest = first :: rest :=
  List.take_append_drop (lexeme.more + 1) (first :: rest)

/-- The lexeme stands on what its kind and its value ask for. -/
def Spelled (lexeme : Lexeme) (first : Char) (rest : List Char) : Prop :=
  lexeme.kind.Spells lexeme.value (lexeme.spelling first rest) (lexeme.back rest)

/-- Kinds of tokens whose value is all that they stand on. -/
def IsPlain (kind : Token.Kind) : Prop :=
  kind ≠ .address ∧ kind ≠ .hash ∧ kind ≠ .macroName ∧ kind ≠ .assembly

variable {rest : List Char} {kind : Token.Kind}

theorem IsPlain.spells (plain : IsPlain kind) {value spelling : List Char}
    (same : spelling = value) (back : List Char) : kind.Spells value spelling back := by
  rcases plain with ⟨noAddress, noHash, noMacro, noAssembly⟩
  cases kind with
  | address => exact absurd rfl noAddress
  | hash => exact absurd rfl noHash
  | macroName => exact absurd rfl noMacro
  | assembly => exact absurd rfl noAssembly
  | _ => exact same

theorem whole_spelled (plain : IsPlain kind) (first : Char) {tail : List Char}
    (front : tail <+: rest) : (whole kind first tail).Spelled first rest := by
  apply plain.spells
  exact spelling_of_more front rfl

theorem isPlain_wordKind (word : String) : IsPlain (wordKind word) := by
  unfold wordKind
  split_ifs <;> simp [IsPlain]

theorem word_spelled (first : Char) (rest : List Char) : (word first rest).Spelled first rest :=
  whole_spelled (isPlain_wordKind _) first (List.takeWhile_prefix _)

/-- The digits and the fraction of a decimal stand behind its first digit. -/
theorem decimal_front {places : List Char} (behind : rest.dropWhile Text.isDigit = '.' :: places) :
    rest.takeWhile Text.isDigit ++ '.' :: places.takeWhile Text.isDigit <+: rest := by
  have front : rest.takeWhile Text.isDigit ++ '.' :: places.takeWhile Text.isDigit <+:
      rest.takeWhile Text.isDigit ++ '.' :: places :=
    (List.prefix_append_right_inj _).mpr
      ((List.prefix_cons_inj _).mpr (List.takeWhile_prefix _))
  rwa [← behind, List.takeWhile_append_dropWhile] at front

theorem numeral_spelled (first : Char) (rest : List Char) :
    (numeral first rest).Spelled first rest := by
  unfold numeral
  split
  · apply whole_spelled (by simp [IsPlain])
    exact (List.prefix_cons_inj _).mpr (List.takeWhile_prefix _)
  · simp only
    split
    · rename_i places behind
      split
      · exact whole_spelled (by simp [IsPlain]) _ (List.takeWhile_prefix _)
      · exact whole_spelled (by simp [IsPlain]) _ (decimal_front behind)
    · exact whole_spelled (by simp [IsPlain]) _ (List.takeWhile_prefix _)

theorem quotation_spelled (rest : List Char) : (quotation rest).Spelled '"' rest := by
  unfold quotation
  simp only
  split
  · exact whole_spelled (by simp [IsPlain]) _ (List.takeWhile_prefix _)
  · rename_i quote behind split
    apply whole_spelled (by simp [IsPlain])
    refine ⟨behind, ?_⟩
    rw [List.append_assoc, List.singleton_append, ← split, List.takeWhile_append_dropWhile]

/-- A sign with a body behind it stands on both; a lone sign is a token of its own. -/
theorem signed_spelled {sign : Char} {body : List Char} (front : body <+: rest)
    (spells : kind.Spells body (sign :: body) ((signed kind sign body).back rest)) :
    (signed kind sign body).Spelled sign rest := by
  by_cases empty : body.isEmpty
  · have lone : signed kind sign body = whole .invalid sign [] := by simp [signed, empty, whole]
    rw [lone]
    exact whole_spelled (by simp [IsPlain]) sign List.nil_prefix
  · have made : signed kind sign body = { kind, more := body.length, value := body } := by
      simp [signed, empty]
    rw [made] at spells ⊢
    have spelling : ({ kind, more := body.length, value := body } : Lexeme).spelling sign rest =
        sign :: body := spelling_of_more front rfl
    simpa only [Spelled, spelling] using spells

theorem symbol_spelled (first : Char) (rest : List Char) :
    (symbol first rest).Spelled first rest := by
  unfold symbol
  split
  · rename_i operator found
    have front : operator.toList <+: first :: rest := by
      simpa using List.find?_some found
    have listed : operators.all fun operator => 0 < operator.length := by decide
    have some : 0 < operator.length :=
      by simpa using List.all_eq_true.mp listed operator (List.mem_of_find?_eq_some found)
    show (first :: rest).take (operator.length - 1 + 1) = operator.toList
    rw [Nat.sub_add_cancel some, ← String.length_toList]
    exact (List.prefix_iff_eq_take.mp front).symm
  · split
    · exact whole_spelled (by simp [IsPlain]) _ List.nil_prefix
    · split
      · exact whole_spelled (by simp [IsPlain]) _ List.nil_prefix
      · exact whole_spelled (by simp [IsPlain]) _ List.nil_prefix

/-! ### Blocks of assembly -/

/-- The front of a body closes no more blocks than are open. -/
theorem count_le_of_blockBody {depth : Nat} {front : List Char}
    (starts : front <+: blockBody depth text) :
    front.count '\x7d' ≤ front.count '\x7b' + depth := by
  fun_induction blockBody depth text generalizing front with
  | case1 | case3 => simp [List.prefix_nil.mp starts]
  | case2 depth rest ih | case4 rest outer _ ih =>
    rcases List.prefix_cons_iff.mp starts with rfl | ⟨tail, rfl, inside⟩
    · simp
    · have counted := ih inside
      simp only [List.count_cons_self, List.count_cons]
      simp
      omega
  | case5 depth character rest noOpening noClosing ih =>
    rcases List.prefix_cons_iff.mp starts with rfl | ⟨tail, rfl, inside⟩
    · simp
    · have counted := ih inside
      simpa [List.count_cons, noOpening, noClosing] using counted

/-- A body is all of the text, or it is followed by the brace that closes it. -/
theorem blockBody_cases (depth : Nat) (text : List Char) :
    blockBody depth text = text ∨ ∃ back, text = blockBody depth text ++ '\x7d' :: back ∧
      (blockBody depth text).count '\x7d' = (blockBody depth text).count '\x7b' + depth := by
  fun_induction blockBody depth text with
  | case1 => exact .inl rfl
  | case2 depth rest ih | case4 rest outer _ ih =>
    rcases ih with whole | ⟨back, cut, counted⟩
    · exact .inl (by rw [whole])
    · refine .inr ⟨back, by rw [List.cons_append, ← cut], ?_⟩
      simp only [List.count_cons, counted]
      simp
      omega
  | case3 rest => exact .inr ⟨rest, rfl, rfl⟩
  | case5 depth character rest noOpening noClosing ih =>
    rcases ih with whole | ⟨back, cut, counted⟩
    · exact .inl (by rw [whole])
    · refine .inr ⟨back, by rw [List.cons_append, ← cut], ?_⟩
      simpa [List.count_cons, noOpening, noClosing] using counted

/-- What stands in front of the body of a block. -/
theorem assemblyBlock_spelling {blanks inside closing : List Char}
    (whole : first :: rest = "asm".toList ++ blanks ++ '\x7b' :: inside)
    (more : block.more = 3 + blanks.length + block.value.length + closing.length)
    (cut : block.value ++ closing <+: inside) :
    block.spelling first rest = "asm".toList ++ blanks ++ '\x7b' :: block.value ++ closing ∧
      block.back rest = inside.drop (block.value ++ closing).length := by
  have count : block.more + 1 =
      ("asm".toList ++ blanks ++ ['\x7b']).length + (block.value ++ closing).length := by
    rw [more]
    simp only [List.length_append, List.length_cons, List.length_nil]
    show _ = 3 + _ + _ + _
    omega
  have pieces : first :: rest = ("asm".toList ++ blanks ++ ['\x7b']) ++ inside := by
    rw [whole]
    simp
  constructor
  · rw [spelling, count, pieces, List.take_length_add_append,
      ← List.prefix_iff_eq_take.mp cut]
    simp
  · have dropped : block.back rest = (first :: rest).drop (block.more + 1) := rfl
    rw [dropped, count, pieces, List.drop_length_add_append]

/-- A block is the word, blanks and a body in braces. -/
theorem assemblyBlock_cases (found : assemblyBlock? (first :: rest) = some block) :
    ∃ blanks inside, (∀ character ∈ blanks, Text.isBlank character = true) ∧
      first :: rest = "asm".toList ++ blanks ++ '\x7b' :: inside ∧ block.kind = .assembly ∧
      block.value = blockBody 0 inside ∧
      block.more = 3 + blanks.length + block.value.length +
        if block.value.length < inside.length then 1 else 0 := by
  unfold assemblyBlock? at found
  split at found
  · rename_i after spelled
    split at found
    · cases found
    · simp only at found
      split at found
      · rename_i inside opened
        cases found
        refine ⟨after.takeWhile Text.isBlank, inside, ?_, ?_, rfl, rfl, rfl⟩
        · intro character member
          exact List.all_eq_true.mp List.all_takeWhile character member
        · have split := List.takeWhile_append_dropWhile (p := Text.isBlank) (l := after)
          rw [opened] at split
          rw [spelled, List.append_assoc, split]
          rfl
      · cases found
  · cases found

theorem assemblyBlock_spelled (found : assemblyBlock? (first :: rest) = some block) :
    block.Spelled first rest := by
  rcases assemblyBlock_cases found with ⟨blanks, inside, blank, whole, kind, value, more⟩
  have nested : Nested block.value := by
    rw [value]
    exact fun front starts => count_le_of_blockBody starts
  unfold Spelled
  rw [kind]
  show AssemblyBlock _ _ _
  rcases blockBody_cases 0 inside with toEnd | ⟨back, cut, even⟩
  · have all : block.value = inside := value.trans toEnd
    rw [all, if_neg (Nat.lt_irrefl _), ← all] at more
    have stands := @assemblyBlock_spelling _ block _ blanks inside [] whole more (by simp [all])
    rw [stands.1, stands.2, List.append_nil, List.append_nil, all, List.drop_length]
    rw [all] at nested
    exact .unclosed blank nested
  · rw [← value] at cut even
    have shorter : block.value.length < inside.length := by
      rw [cut, List.length_append, List.length_cons]
      omega
    rw [if_pos shorter] at more
    have stands := @assemblyBlock_spelling _ block _ blanks inside ['\x7d'] whole more
      ⟨back, by simpa using cut.symm⟩
    rw [stands.1]
    exact .closed blank nested even

/-- Every lexeme stands on what its kind and its value ask for. -/
theorem read_spelled (first : Char) (rest : List Char) :
    (read first rest).Spelled first rest := by
  unfold read
  split
  · rename_i block found
    exact assemblyBlock_spelled found
  · split
    · exact word_spelled first rest
    split
    · exact numeral_spelled first rest
    split
    · rename_i quote
      rw [quote]
      exact quotation_spelled rest
    split
    · rename_i sign
      rw [sign]
      exact signed_spelled (List.takeWhile_prefix _) rfl
    split
    · rename_i sign
      rw [sign]
      exact signed_spelled (List.takeWhile_prefix _) rfl
    split
    · rename_i sign
      rw [sign]
      exact signed_spelled (nameBody_front rest) rfl
    · exact symbol_spelled first rest

end Lexeme

/-! ## Tilings -/

/-- The text stands in the source between two offsets. -/
def StandsAt (source : String) (start stop : Nat) (text : List Char) : Prop :=
  ∃ front back, source = front ++ String.ofList text ++ back ∧ front.utf8ByteSize = start ∧
    (front ++ String.ofList text).utf8ByteSize = stop

namespace Token

/-- The token stands on a text of its own, at its place, and its value is that of the text. -/
def Stands (source : String) (token : Token) : Prop :=
  ∃ front spelling back, token.CutFrom source front spelling back ∧ spelling ≠ "" ∧
    token.kind.Spells token.value.toList spelling.toList back.toList

/-- From an offset on, the source is made of gaps with the tokens between them. -/
def TileFrom (source : String) (offset : Nat) : List Token → Prop
  | [] => ∃ gap, StandsAt source offset source.utf8ByteSize gap ∧ Gap true gap
  | token :: rest =>
    (∃ gap, StandsAt source offset token.start.offset gap ∧ Gap false gap) ∧
      token.Stands source ∧ TileFrom source token.stop rest

variable {source : String} {token : Token} {offset : Nat} {tokens : List Token}

/-- A text that stands between two others, by its offsets. -/
theorem standsAt_of_pieces {front back : List Char}
    (pieces : source.toList = front ++ text ++ back) :
    StandsAt source (Position.start.past front).offset
      (Position.start.past (front ++ text)).offset text := by
  refine ⟨String.ofList front, String.ofList back, ?_, ?_, ?_⟩
  · rw [← String.ofList_append, ← String.ofList_append, ← pieces, String.ofList_toList]
  · rw [Position.offset_past]
    exact (Nat.zero_add _).symm
  · rw [← String.ofList_append, Position.offset_past]
    exact (Nat.zero_add _).symm

/-- A token that starts behind a text and stops behind what it stands on. -/
theorem cutFrom_of_pieces {front spelling back : List Char}
    (pieces : source.toList = front ++ spelling ++ back)
    (start : token.start = Position.start.past front)
    (stop : token.stop = (Position.start.past (front ++ spelling)).offset)
    (value : token.value.toList <:+: spelling) :
    token.CutFrom source (String.ofList front) (String.ofList spelling) (String.ofList back) := by
  constructor
  · rw [← String.ofList_append, ← String.ofList_append, ← pieces, String.ofList_toList]
  · rw [start, Position.offset_past]
    exact Nat.zero_add _
  · rw [stop, ← String.ofList_append, Position.offset_past]
    exact Nat.zero_add _
  · rw [start, Position.line_past, String.toList_ofList]
    exact Nat.add_comm _ _
  · rw [start, Position.column_past_start, String.toList_ofList]
  · simpa using value

/--
What is left of a source is tiled by what is scanned of it, if there are as
many rounds as characters.
-/
theorem scanFrom_tiles {rounds : Nat} (front text : List Char)
    (whole : source.toList = front ++ text) (enough : text.length ≤ rounds) :
    TileFrom source (Position.start.past front).offset
      (scanFrom rounds (Position.start.past front) text) := by
  induction rounds generalizing front text with
  | zero =>
    have empty : text = [] := List.length_eq_zero_iff.mp (Nat.le_zero.mp enough)
    refine ⟨[], ?_, .empty⟩
    have stands : StandsAt source _ (Position.start.past (front ++ [])).offset [] :=
      @standsAt_of_pieces [] source front [] (by simpa [empty] using whole)
    have size : source.utf8ByteSize = (Position.start.past (front ++ [])).offset := by
      rw [List.append_nil, Position.offset_past, ← List.append_nil front, ← empty, ← whole,
        String.ofList_toList]
      exact (Nat.zero_add _).symm
    rw [size]
    exact stands
  | succ rounds ih =>
    unfold scanFrom
    simp only
    split
    · rename_i behind
      refine ⟨text, ?_, Trivia.finalGap_of_drop behind⟩
      have stands := @standsAt_of_pieces text source front [] (by simpa using whole)
      have size : source.utf8ByteSize = (Position.start.past (front ++ text)).offset := by
        rw [← whole, Position.offset_past, String.ofList_toList]
        exact (Nat.zero_add _).symm
      rw [size]
      exact stands
    · rename_i first rest behind
      have gap := Trivia.gap_of_drop behind
      have split : text = text.take (Trivia.between.width text) ++ first :: rest := by
        rw [← behind, List.take_append_drop]
      generalize text.take (Trivia.between.width text) = skipped at gap split
      have cut := Lexeme.spelling_append_back (Lexeme.read first rest) first rest
      have spelled := Lexeme.read_spelled first rest
      have fewer : ((Lexeme.read first rest).back rest).length ≤ rounds := by
        have lengths := congrArg List.length split
        simp only [List.length_append, List.length_cons] at lengths
        rw [Lexeme.back, List.length_drop]
        omega
      have some : (Lexeme.read first rest).spelling first rest ≠ [] := by
        simp [Lexeme.spelling]
      unfold Lexeme.Spelled at spelled
      change TileFrom source _ (_ :: scanFrom rounds _ ((Lexeme.read first rest).back rest))
      change TileFrom source _ (Token.mk _ _ _ (Position.past _
        ((Lexeme.read first rest).spelling first rest)).offset :: scanFrom rounds (Position.past _
        ((Lexeme.read first rest).spelling first rest)) _)
      generalize (Lexeme.read first rest).spelling first rest = spelling
        at cut spelled some ⊢
      generalize (Lexeme.read first rest).back rest = back at cut spelled fewer ⊢
      have pieces : source.toList = front ++ skipped ++ spelling ++ back := by
        rw [whole, split, ← cut]
        simp
      rw [← Position.past_append, ← Position.past_append]
      refine ⟨⟨skipped, ?_, gap⟩, ?_, ih _ _ pieces fewer⟩
      · apply @standsAt_of_pieces _ _ _ (spelling ++ back)
        simpa using pieces
      · refine ⟨_, _, _, cutFrom_of_pieces pieces rfl rfl (by simpa using spelled.within), ?_, ?_⟩
        · intro empty
          apply some
          have characters := congrArg String.toList empty
          simpa using characters
        · simpa using spelled

/-- The offsets of two texts behind each other are ordered. -/
theorem le_of_standsAt {start stop : Nat} (stands : StandsAt source start stop text) :
    start ≤ stop := by
  rcases stands with ⟨front, back, -, rfl, rfl⟩
  rw [String.utf8ByteSize_append]
  exact Nat.le_add_right _ _

theorem Stands.lt (stands : token.Stands source) : token.start.offset < token.stop := by
  rcases stands with ⟨front, spelling, back, cut, some, -⟩
  have positive : 0 < spelling.utf8ByteSize := by
    apply Nat.pos_of_ne_zero
    intro empty
    exact some (String.utf8ByteSize_eq_zero_iff.mp empty)
  rw [cut.start, cut.stop, String.utf8ByteSize_append]
  omega

theorem Stands.stop_le (stands : token.Stands source) : token.stop ≤ source.utf8ByteSize := by
  rcases stands with ⟨front, spelling, back, cut, -, -⟩
  rw [cut.stop, cut.source, String.utf8ByteSize_append (s := front ++ spelling)]
  exact Nat.le_add_right _ _

/-- The tokens of a tiling start behind its beginning. -/
theorem TileFrom.le_start (tiled : TileFrom source offset tokens) (listed : token ∈ tokens) :
    offset ≤ token.start.offset := by
  induction tokens generalizing offset with
  | nil => cases listed
  | cons first rest ih =>
    rcases tiled with ⟨⟨gap, before, -⟩, stands, further⟩
    have after := le_of_standsAt before
    rcases List.mem_cons.mp listed with rfl | later
    · exact after
    · have behind := ih further later
      have wide := stands.lt
      omega

/-- Each token of a tiling stops before the next ones start. -/
theorem TileFrom.ordered (tiled : TileFrom source offset tokens) :
    tokens.Pairwise fun earlier later => earlier.stop ≤ later.start.offset := by
  induction tokens generalizing offset with
  | nil => exact .nil
  | cons first rest ih =>
    rcases tiled with ⟨-, -, further⟩
    exact .cons (fun later listed => further.le_start listed) (ih further)

theorem TileFrom.stands (tiled : TileFrom source offset tokens) (listed : token ∈ tokens) :
    token.Stands source := by
  induction tokens generalizing offset with
  | nil => cases listed
  | cons first rest ih =>
    rcases tiled with ⟨-, stands, further⟩
    rcases List.mem_cons.mp listed with rfl | later
    · exact stands
    · exact ih further later

/-- Every token of a source stands on characters of it. -/
theorem scan_stands (listed : token ∈ scan source) : token.Stands source :=
  (scanFrom_tiles [] source.toList rfl (Nat.le_refl _)).stands listed

/--
Every source is tiled by its tokens: each stands on characters of its own, the
places of the tokens increase, and between them, in front of them and behind
them there are only spaces and comments.
-/
theorem scan_tiles (source : String) :
    TileFrom source 0 (scan source) ∧
      ((scan source).Pairwise fun earlier later => earlier.stop ≤ later.start.offset) ∧
      ∀ token ∈ scan source, token.Stands source ∧ token.start.offset < token.stop ∧
        token.stop ≤ source.utf8ByteSize := by
  have tiled : TileFrom source 0 (scan source) :=
    scanFrom_tiles [] source.toList rfl (Nat.le_refl _)
  refine ⟨tiled, tiled.ordered, fun token listed => ?_⟩
  have stands := tiled.stands listed
  exact ⟨stands, stands.lt, stands.stop_le⟩

end Token

end Covenant
