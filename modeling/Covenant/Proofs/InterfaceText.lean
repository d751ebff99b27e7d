import Covenant.Interface.Format

/-!
# Interfaces are read as they are written

Whatever the layout puts between the parts of a value, reading takes back the
value that was written.  The bound of the reader is three for every character,
which pays for an item, for a member and for its value.
-/

namespace Covenant

variable {layout : Layout} {blanks rest : List Char} {interface : Interface}
  {number limit bound : Nat} {json value : Json} {Item : Type}

namespace Text

theorem isDigit_of_mem_toDigits {digit : Char} (member : digit ∈ Nat.toDigits 10 number) :
    isDigit digit = true := by
  have digital := Nat.isDigit_of_mem_toDigits (by decide) (by decide) member
  simpa [isDigit, Char.isDigit, Char.le_def] using digital

theorem digitsValue_toDigits (number : Nat) : digitsValue (Nat.toDigits 10 number) = number := by
  have value := Nat.ofDigitChars_ten_toDigits (n := number)
  simpa [digitsValue, Nat.ofDigitChars, Nat.mul_comm] using value

theorem readDigits?_toDigits (small : number < limit) :
    readDigits? limit (Nat.toDigits 10 number) = some number := by
  have digits : (Nat.toDigits 10 number).all isDigit = true :=
    List.all_eq_true.mpr fun _ member => isDigit_of_mem_toDigits member
  simp [readDigits?, digits, digitsValue_toDigits, small]

theorem readDigits?_lt {digits : List Char} (read : readDigits? limit digits = some number) :
    number < limit := by
  unfold readDigits? at read
  split at read
  · cases read
    simp_all
  · cases read

/-- Only the numeral of zero starts with a zero. -/
theorem eq_zero_of_head_toDigits (zero : (Nat.toDigits 10 number).head? = some '0') :
    number = 0 := by
  induction number using Nat.strongRecOn with
  | ind number ih =>
    rw [Nat.toDigits_eq_if (by decide)] at zero
    split at zero
    · rename_i small
      have only : ∀ digit < 10, Nat.digitChar digit = '0' → digit = 0 := by decide
      exact only number small (by simpa using zero)
    · have shorter := ih (number / 10) (by omega)
        (by simpa [List.head?_append, Option.or_eq_left_of_isSome] using zero)
      omega

end Text

namespace Json

theorem hex_control : ∀ code < 32,
    Text.isHexDigit (Text.hexDigit (code / 16)) = true ∧
    Text.isHexDigit (Text.hexDigit (code % 16)) = true ∧
      Text.hexNumber ['0', '0', Text.hexDigit (code / 16), Text.hexDigit (code % 16)] = code := by
  decide

theorem spelled?_unit {code : Nat} (small : code < 32) (following : List Piece) :
    spelled? (.unit code :: following) = (spelled? following).map (Char.ofNat code :: ·) := by
  have low : isLeading code = false ∧ isTrailing code = false := by
    simp [isLeading, isTrailing]; omega
  cases following with
  | nil => simp [spelled?, low]
  | cons next rest => cases next <;> simp [spelled?, low]

theorem pieces_escaped (character : Char) (text : List Char) :
    ∃ piece, (pieces (escaped character ++ text) =
      (pieces text).map fun (following, rest) => (piece :: following, rest)) ∧
      ∀ following, spelled? (piece :: following) =
        (spelled? following).map (character :: ·) := by
  unfold escaped
  -- Seven characters have an escape of one letter.
  iterate 7
    split
    · subst_vars
      exact ⟨.char _, rfl, fun _ => rfl⟩
  split
  · rename_i small
    rcases hex_control _ small with ⟨high, low, value⟩
    refine ⟨.unit character.toNat, ?_, fun following => ?_⟩
    · simp [pieces, high, low, value, show Text.isHexDigit '0' = true from rfl]
    · rw [spelled?_unit small, Char.ofNat_toNat]
  · refine ⟨.char character, ?_, fun _ => rfl⟩
    simp [pieces, *]

/-- Reading takes back what was written of a string. -/
theorem readString_escaped (content : String) (rest : List Char) :
    readString (content.toList.flatMap escaped ++ '"' :: rest) = some (some content, rest) := by
  have parts : ∀ characters : List Char, ∃ parts,
      pieces (characters.flatMap escaped ++ '"' :: rest) = some (parts, rest) ∧
        spelled? parts = some characters := by
    intro characters
    induction characters with
    | nil => exact ⟨[], rfl, rfl⟩
    | cons first others ih =>
      rcases ih with ⟨parts, taken, spelled⟩
      rcases pieces_escaped first (others.flatMap escaped ++ '"' :: rest) with
        ⟨piece, read, spells⟩
      refine ⟨piece :: parts, ?_, by rw [spells, spelled]; rfl⟩
      rw [List.flatMap_cons, List.append_assoc, read, taken]
      rfl
  rcases parts content.toList with ⟨parts, taken, spelled⟩
  simp [readString, taken, spelled]

/-! ## Blanks -/

theorem skipBlanks_append (blank : blanks.all isBlank = true) (text : List Char) :
    skipBlanks (blanks ++ text) = skipBlanks text :=
  List.dropWhile_append_of_pos (by simpa using blank)

/-- The text behind a value does not go on with a number. -/
def Delimited (rest : List Char) : Prop :=
  ∀ character ∈ rest.head?, isBlank character = true ∨ character ∈ [',', ']', '\x7d']

theorem takeUnsigned_toDigits (number : Nat) (delimited : Delimited rest) :
    takeUnsigned (Nat.toDigits 10 number ++ rest) = some (Nat.toDigits 10 number, rest) := by
  have ends : ∀ character ∈ rest.head?, Text.isDigit character = false ∧ character ≠ '.' ∧
      character ≠ 'e' ∧ character ≠ 'E' := by
    intro character first
    rcases delimited character first with blank | mark
    · simp only [isBlank, Bool.or_eq_true, beq_iff_eq] at blank
      rcases blank with ((rfl | rfl) | rfl) | rfl <;> decide
    · simp only [List.mem_cons, List.not_mem_nil, or_false] at mark
      rcases mark with rfl | rfl | rfl <;> decide
  have digital : ∀ digit ∈ Nat.toDigits 10 number, Text.isDigit digit = true :=
    fun _ member => Text.isDigit_of_mem_toDigits member
  have stops : rest.takeWhile Text.isDigit = [] ∧ rest.dropWhile Text.isDigit = rest ∧
      takeFraction rest = some ([], rest) ∧ takeExponent rest = some ([], rest) := by
    cases rest with
    | nil => exact ⟨rfl, rfl, rfl, rfl⟩
    | cons first others =>
      rcases ends first rfl with ⟨digit, point, small, large⟩
      simp [digit, takeFraction, takeExponent, point, small, large]
  have taken : takeDigits (Nat.toDigits 10 number ++ rest) =
      some (Nat.toDigits 10 number, rest) := by
    unfold takeDigits
    rw [List.takeWhile_append_of_pos digital, List.dropWhile_append_of_pos digital, stops.1,
      stops.2.1, List.append_nil]
    split
    · rename_i empty
      exact absurd empty Nat.toDigits_ne_nil
    · rfl
  have alone : ¬ ((Nat.toDigits 10 number).head? = some '0' ∧
      (Nat.toDigits 10 number).length ≠ 1) := by
    rintro ⟨zero, long⟩
    rw [Text.eq_zero_of_head_toDigits zero] at long
    exact long rfl
  simp [takeUnsigned, takeWhole, taken, stops, alone]

/-- Reading takes back a number, whatever delimits it. -/
theorem valueWithin_toDigits (bound number : Nat) (delimited : Delimited rest) :
    valueWithin (bound + 1) (Nat.toDigits 10 number ++ rest) = some (.natural number, rest) := by
  have unsigned := takeUnsigned_toDigits number delimited
  cases digits : Nat.toDigits 10 number with
  | nil => exact absurd digits Nat.toDigits_ne_nil
  | cons first others =>
    have digit : Text.isDigit first = true :=
      Text.isDigit_of_mem_toDigits (digits ▸ List.mem_cons_self)
    have other : ∀ character, Text.isDigit character = false → first ≠ character :=
      fun character not same => by simp [same, not] at digit
    have blank : isBlank first = false := by
      simp [isBlank, other ' ' rfl, other '\t' rfl, other '\n' rfl, other '\r' rfl]
    have named : natural number = .number (String.ofList (first :: others)) := by
      rw [natural, Nat.toString_eq_ofList_toDigits, digits]
    rw [digits, List.cons_append] at unsigned
    simp [valueWithin, skipBlanks, blank, readNumber, unsigned, named, other '"' rfl,
      other '[' rfl, other '\x7b' rfl, other 'n' rfl, other 't' rfl, other 'f' rfl,
      other '-' rfl]

/-! ## Values -/

/-- A layout that puts nothing but blanks between the parts of a value. -/
structure Layout.Blank (layout : Layout) : Prop where
  before : ∀ depth, (layout.before depth).all isBlank = true
  colon : ∃ blanks, layout.colon = ':' :: blanks ∧ blanks.all isBlank = true

theorem Layout.compact_blank : Layout.compact.Blank :=
  ⟨fun _ => rfl, [], rfl, rfl⟩

theorem Layout.indented_blank : Layout.indented.Blank :=
  ⟨fun depth => by simp [Layout.indented, isBlank], [' '], rfl, rfl⟩

/-- What is written of a value is read back, whatever delimits it. -/
def Reads (layout : Layout) (value : Json) : Prop :=
  ∀ depth bound blanks rest, 3 * (write layout depth value).length ≤ bound →
    blanks.all isBlank = true → Delimited rest →
      valueWithin bound (blanks ++ (write layout depth value ++ rest)) = some (value, rest)

theorem valueWithin_blanks (blank : blanks.all isBlank = true) (bound : Nat) (text : List Char) :
    valueWithin bound (blanks ++ text) = valueWithin bound text := by
  cases bound with
  | zero => rfl
  | succ bound => simp only [valueWithin, skipBlanks_append blank]

theorem delimited_append {blanks : List Char} (blank : blanks.all isBlank = true) {mark : Char}
    (closes : mark ∈ [',', ']', '\x7d']) (tail : List Char) :
    Delimited (blanks ++ mark :: tail) := by
  intro character first
  cases blanks with
  | nil =>
    cases first
    exact .inr closes
  | cons blank others =>
    cases first
    simp_all

@[simp]
theorem skipBlanks_cons {mark : Char} (visible : isBlank mark = false) (tail : List Char) :
    skipBlanks (mark :: tail) = mark :: tail := by
  simp [skipBlanks, visible]

theorem skipBlanks_mark (blank : blanks.all isBlank = true) {mark : Char}
    (visible : isBlank mark = false) (tail : List Char) :
    skipBlanks (blanks ++ mark :: tail) = mark :: tail := by
  rw [skipBlanks_append blank, skipBlanks_cons visible]

/-- Members with names, as an object holds them. -/
def named (members : List (String × Json)) : List (Option String × Json) :=
  members.map fun (name, value) => (some name, value)

section Layouts

variable {layout : Layout} (blank : layout.Blank) (depth : Nat) (tail : List Char)

include blank

theorem itemsWithin_write {first : Json} {rest : List Json}
    (reads : ∀ item ∈ first :: rest, Reads layout item) (spaced : blanks.all isBlank = true)
    (enough : 3 * ((write layout (depth + 1) first).length +
      (writeItems layout depth rest).length + 1) ≤ bound) :
    itemsWithin bound (blanks ++ (write layout (depth + 1) first ++ (writeItems layout depth rest ++
      (layout.before (depth - 1) ++ ']' :: tail)))) = some (first :: rest, tail) := by
  induction rest generalizing first bound blanks with
  | nil =>
    cases bound with
    | zero => omega
    | succ bound =>
      have read := reads first (by simp) (depth + 1) bound blanks
        (layout.before (depth - 1) ++ ']' :: tail) (by omega) spaced
        (delimited_append (blank.before _) (by simp) _)
      simp [itemsWithin, writeItems, read, skipBlanks_mark (blank.before _)
        (show isBlank ']' = false from rfl)]
  | cons second others ih =>
    cases bound with
    | zero => omega
    | succ bound =>
      simp only [writeItems, List.length_append, List.length_cons] at enough
      simp only [writeItems, List.append_assoc, List.cons_append]
      have read := reads first (by simp) (depth + 1) bound blanks
        (',' :: (layout.before depth ++ (write layout (depth + 1) second ++
          (writeItems layout depth others ++ (layout.before (depth - 1) ++ ']' :: tail)))))
        (by omega) spaced (@delimited_append [] rfl ',' (by simp) _)
      have further := @ih _ bound second (fun item member => reads item (by simp_all))
        (blank.before depth) (by omega)
      simp [itemsWithin, read, isBlank, further]

/-- One member is read back, with its name. -/
theorem memberWithin_write (name : String) (reads : Reads layout value)
    (spaced : blanks.all isBlank = true) (delimited : Delimited rest)
    (enough : 3 * (write layout depth value).length + 1 ≤ bound) :
    memberWithin bound (blanks ++ (writeString (some name) ++ (layout.colon ++
      (write layout depth value ++ rest)))) = some ((some name, value), rest) := by
  rcases blank.colon with ⟨spaces, colon, blankSpaces⟩
  cases bound with
  | zero => omega
  | succ bound =>
    have read := reads depth bound spaces rest (by omega) blankSpaces delimited
    have named := readString_escaped name
      (':' :: (spaces ++ (write layout depth value ++ rest)))
    simp [memberWithin, writeString, colon, named, read,
      skipBlanks_mark spaced (show isBlank '"' = false from rfl), isBlank]

theorem membersWithin_write {name : String} {first : Json} {rest : List (String × Json)}
    (reads : ∀ member ∈ (name, first) :: rest, Reads layout member.2)
    (spaced : blanks.all isBlank = true)
    (enough : 3 * ((writeString (some name)).length + (write layout (depth + 1) first).length +
      (writeMembers layout depth (named rest)).length + 1) ≤ bound) :
    membersWithin bound (blanks ++ (writeString (some name) ++ (layout.colon ++
      (write layout (depth + 1) first ++ (writeMembers layout depth (named rest) ++
        (layout.before (depth - 1) ++ '\x7d' :: tail)))))) =
      some (named ((name, first) :: rest), tail) := by
  have long : 2 ≤ (writeString (some name)).length := by simp [writeString]
  have own : Reads layout first := reads (name, first) (by simp)
  induction rest generalizing name first bound blanks with
  | nil =>
    cases bound with
    | zero => omega
    | succ bound =>
      have read := @memberWithin_write _ _ bound _ _ blank (depth + 1) name own spaced
        (delimited_append (blank.before (depth - 1)) (show '\x7d' ∈ _ by simp) tail)
        (by omega)
      simp [membersWithin, named, writeMembers, read, skipBlanks_mark (blank.before _)
        (show isBlank '\x7d' = false from rfl)]
  | cons second others ih =>
    cases bound with
    | zero => omega
    | succ bound =>
      rcases second with ⟨next, value⟩
      simp only [named, List.map_cons, writeMembers, List.length_append,
        List.length_cons] at enough
      simp only [named, List.map_cons, writeMembers, List.append_assoc, List.cons_append]
      have read := fun rest => @memberWithin_write _ (',' :: rest) bound _ _ blank (depth + 1)
        name own spaced (@delimited_append [] rfl ',' (by simp) _) (by omega)
      have further := @ih _ bound next value (fun member listed => reads member (by simp_all))
        (blank.before depth) (by simp only [named]; omega) (by simp [writeString])
        (reads (next, value) (by simp))
      simp only [named, List.map_cons] at further
      simp [membersWithin, read, isBlank, further]

end Layouts

/-- A value without blanks before it, which is written in at least one character. -/
theorem Reads.intro (written : ∀ depth, 0 < (write layout depth value).length)
    (reads : ∀ depth bound rest, 3 * (write layout depth value).length ≤ bound + 1 →
      Delimited rest →
        valueWithin (bound + 1) (write layout depth value ++ rest) = some (value, rest)) :
    Reads layout value := by
  intro depth bound blanks rest enough spaced delimited
  rw [valueWithin_blanks spaced]
  have := written depth
  cases bound with
  | zero => omega
  | succ bound => exact reads depth bound rest enough delimited

theorem reads_natural (layout : Layout) (number : Nat) : Reads layout (.natural number) := by
  have written : ∀ depth, write layout depth (.natural number) = Nat.toDigits 10 number := by
    simp [natural, write, Nat.repr_eq_ofList_toDigits]
  refine .intro (fun depth => ?_) fun depth bound rest _ delimited => ?_
  · rw [written]
    exact Nat.length_toDigits_pos
  · rw [written]
    exact valueWithin_toDigits bound number delimited

theorem reads_text (layout : Layout) (content : String) : Reads layout (.text content) := by
  refine .intro (by simp [text, write, writeString]) fun depth bound rest _ _ => ?_
  simp [valueWithin, text, write, writeString, readString_escaped, isBlank]

/-- No value starts with a closing bracket. -/
theorem valueWithin_bracket {text tail : List Char} (closes : skipBlanks text = ']' :: tail)
    (bound : Nat) : valueWithin bound text = none := by
  cases bound with
  | zero => rfl
  | succ bound =>
    simp [valueWithin, closes, readNumber, takeUnsigned, takeWhole, takeDigits, Text.isDigit]

theorem reads_array (blank : layout.Blank) {items : List Json}
    (reads : ∀ item ∈ items, Reads layout item) : Reads layout (.array items) := by
  cases items with
  | nil =>
    refine .intro (by simp [write]) fun depth bound rest _ _ => ?_
    simp [valueWithin, write, isBlank]
  | cons first others =>
    refine .intro (by simp [write]) fun depth bound rest enough _ => ?_
    simp only [write, List.length_append, List.length_cons] at enough
    simp only [write, List.append_assoc, List.cons_append, List.nil_append]
    have within := itemsWithin_write blank depth rest reads (blank.before depth)
      (show _ ≤ bound by omega)
    have opened := reads first (by simp) (depth + 1) _ _
      (writeItems layout depth others ++ (layout.before (depth - 1) ++ ']' :: rest))
      (Nat.le_refl _) (blank.before depth) ?_
    · rw [valueWithin, skipBlanks_cons rfl]
      simp only [within]
      split
      · rename_i closes
        rw [valueWithin_bracket closes] at opened
        cases opened
      · rfl
    · cases others with
      | nil => exact delimited_append (blank.before _) (by simp) _
      | cons => exact @delimited_append [] rfl ',' (by simp) _

theorem reads_record (blank : layout.Blank) {members : List (String × Json)}
    (reads : ∀ member ∈ members, Reads layout member.2) : Reads layout (.record members) := by
  cases members with
  | nil =>
    refine .intro (by simp [record, write]) fun depth bound rest _ _ => ?_
    simp [valueWithin, record, write, isBlank]
  | cons member others =>
    rcases member with ⟨name, first⟩
    refine .intro (by simp [record, write]) fun depth bound rest enough _ => ?_
    change 3 * (write layout depth (.object ((some name, first) :: named others))).length ≤ _
      at enough
    change valueWithin (bound + 1) (write layout depth
      (.object ((some name, first) :: named others)) ++ rest) = _
    simp only [write, List.length_append, List.length_cons] at enough
    simp only [write, List.append_assoc, List.cons_append, List.nil_append]
    have within := membersWithin_write blank depth rest reads (blank.before depth)
      (show _ ≤ bound by omega)
    rw [valueWithin, skipBlanks_cons rfl]
    simp only [within]
    split
    · rename_i closes
      simp [skipBlanks_append (blank.before depth), writeString, isBlank] at closes
    · rfl

/-- A text that is read back in whole. -/
theorem read?_write (reads : Reads layout value) :
    read? (String.ofList (write layout 1 value)) = some value := by
  have read := reads 1 (3 * (write layout 1 value).length + 3) [] [] (by omega) rfl nofun
  simp only [List.nil_append, List.append_nil] at read
  simp [read?, read, skipBlanks]

end Json

namespace Interface

open Json

/-! ## Interfaces -/

/-- The numbers of an interface fit into the bytes that hold them. -/
structure Fits (interface : Interface) : Prop where
  offsets : ∀ method ∈ interface.methods, method.offset < Text.limit32
  numbers : ∀ event ∈ interface.events, event.number < Text.limit8

theorem ofName?_name (shape : MachineType) : MachineType.ofName? shape.name = some shape := by
  cases shape <;> rfl

theorem natural?_natural (small : number < limit) :
    (Json.natural number).natural? limit = some number := by
  simp [Json.natural?, Json.natural, Nat.repr_eq_ofList_toDigits, Text.readDigits?_toDigits small]

theorem listOf?_map {item? : Json → Option Item} {encode : Item → Json} {items : List Item}
    (same : ∀ item ∈ items, item? (encode item) = some item) :
    listOf? item? (.array (items.map encode)) = some items := by
  simp only [listOf?, Json.items?, bind, Option.bind_some]
  induction items with
  | nil => rfl
  | cons first rest ih =>
    simp only [List.forall_mem_cons] at same
    simp [same.1, ih same.2]

theorem ofJson?_parameter (parameter : Interface.Parameter) :
    Parameter.ofJson? parameter.toJson = some parameter := by
  simp [Parameter.ofJson?, Parameter.toJson, membersOf?, record, valueOf?, valuesOf, text?, text,
    shapeOf?, ofName?_name]

theorem ofJson?_method {method : Interface.Method} (small : method.offset < Text.limit32) :
    Method.ofJson? method.toJson = some method := by
  have parameters := listOf?_map fun parameter (_ : parameter ∈ method.parameters) =>
    ofJson?_parameter parameter
  simp [Method.ofJson?, Method.toJson, membersOf?, record, valueOf?, valuesOf, text?, text,
    shapeOf?, ofName?_name, natural?_natural small, parameters]

theorem ofJson?_event {event : Interface.Event} (small : event.number < Text.limit8) :
    Event.ofJson? event.toJson = some event := by
  simp [Event.ofJson?, Event.toJson, membersOf?, record, valueOf?, valuesOf, text?, text,
    shapeOf?, ofName?_name, natural?_natural small]

theorem ofJson?_toJson (fits : interface.Fits) : ofJson? interface.toJson = some interface := by
  have methods := listOf?_map fun method listed => ofJson?_method (fits.offsets method listed)
  have events := listOf?_map fun event listed => ofJson?_event (fits.numbers event listed)
  simp [ofJson?, toJson, membersOf?, record, valueOf?, valuesOf, methods, events]

/-- A list of parts is read back if each of them is. -/
theorem reads_map (blank : layout.Blank) {encode : Item → Json}
    (reads : ∀ item, Reads layout (encode item)) (items : List Item) :
    Reads layout (.array (items.map encode)) :=
  reads_array blank (List.forall_mem_map.mpr fun item _ => reads item)

theorem reads_method (blank : layout.Blank) (method : Interface.Method) :
    Reads layout method.toJson := by
  have parameters (parameter : Interface.Parameter) : Reads layout parameter.toJson :=
    reads_record blank (by simp [reads_text])
  exact reads_record blank (by simp [reads_text, reads_natural, reads_map blank parameters])

theorem reads_toJson (blank : layout.Blank) (interface : Interface) :
    Reads layout interface.toJson := by
  have events (event : Interface.Event) : Reads layout event.toJson :=
    reads_record blank (by simp [reads_text, reads_natural])
  exact reads_record blank (by simp [reads_map blank (reads_method blank), reads_map blank events])

theorem natural?_lt (read : json.natural? limit = some number) : number < limit := by
  cases json with
  | number text => exact Text.readDigits?_lt read
  | _ => cases read

theorem listOf?_forall {item? : Json → Option Item} {good : Item → Prop}
    (each : ∀ json item, item? json = some item → good item) {items : List Item}
    (read : listOf? item? json = some items) : ∀ item ∈ items, good item := by
  rcases Option.bind_eq_some_iff.mp read with ⟨parts, -, mapped⟩
  clear read
  induction parts generalizing items with
  | nil =>
    cases mapped
    nofun
  | cons first rest ih =>
    rw [List.mapM_cons] at mapped
    rcases Option.bind_eq_some_iff.mp mapped with ⟨item, one, more⟩
    rcases Option.bind_eq_some_iff.mp more with ⟨others, some, ended⟩
    cases ended
    exact List.forall_mem_cons.mpr ⟨each _ _ one, ih some⟩

theorem offset_lt {method : Interface.Method} (read : Method.ofJson? json = some method) :
    method.offset < Text.limit32 := by
  unfold Method.ofJson? at read
  split at read
  · simp only [bind, Option.bind_eq_some_iff] at read
    rcases read with ⟨_, -, _, -, offset, small, _, -, made⟩
    cases made
    exact natural?_lt small
  · cases read

theorem number_lt {event : Interface.Event} (read : Event.ofJson? json = some event) :
    event.number < Text.limit8 := by
  unfold Event.ofJson? at read
  split at read
  · simp only [bind, Option.bind_eq_some_iff] at read
    rcases read with ⟨_, -, number, small, _, -, _, -, made⟩
    cases made
    exact natural?_lt small
  · cases read

/-- The numbers of an interface that was read fit. -/
theorem fits_of_decode? {text : String} (read : decode? text = some interface) :
    interface.Fits := by
  rcases Option.bind_eq_some_iff.mp read with ⟨json, -, found⟩
  unfold ofJson? at found
  split at found
  · simp only [bind, Option.bind_eq_some_iff] at found
    rcases found with ⟨methods, listed, made⟩
    cases made
    exact ⟨listOf?_forall (fun _ _ => offset_lt) listed, nofun⟩
  · simp only [bind, Option.bind_eq_some_iff] at found
    rcases found with ⟨methods, listed, events, numbered, made⟩
    cases made
    exact ⟨listOf?_forall (fun _ _ => offset_lt) listed,
      listOf?_forall (fun _ _ => number_lt) numbered⟩
  · cases found

theorem decode?_write (blank : layout.Blank) (fits : interface.Fits) :
    decode? (String.ofList (write layout 1 interface.toJson)) = some interface := by
  rw [decode?, read?_write (reads_toJson blank interface), Option.bind_some, ofJson?_toJson fits]

/-- Both texts of an interface are read as the interface. -/
def RoundTrips (interface : Interface) : Prop :=
  decode? interface.encode = some interface ∧ decode? interface.toJson.pretty = some interface

theorem Fits.roundTrips (fits : interface.Fits) : interface.RoundTrips :=
  ⟨decode?_write Layout.compact_blank fits, decode?_write Layout.indented_blank fits⟩

/-- The text that leaves out the list of events. -/
def withoutEvents (methods : List Interface.Method) : String :=
  (Json.record [("methods", .array (methods.map Method.toJson))]).compact

/-- Every interface round-trips, every interface that was read does, and events can be left out. -/
theorem interface_roundTrips :
    (∀ interface : Interface, interface.Fits → interface.RoundTrips ∧
      decode? (withoutEvents interface.methods) = some { methods := interface.methods }) ∧
    ∀ text interface, decode? text = some interface → interface.RoundTrips := by
  refine ⟨fun interface fits => ⟨fits.roundTrips, ?_⟩, fun text interface read =>
    (fits_of_decode? read).roundTrips⟩
  have methods := listOf?_map fun method listed => ofJson?_method (fits.offsets method listed)
  have reads := reads_record Layout.compact_blank
    (show ∀ member ∈ [("methods", Json.array (interface.methods.map Method.toJson))], _ by
      simp [reads_map Layout.compact_blank (reads_method Layout.compact_blank)])
  rw [decode?, withoutEvents, Json.compact, read?_write reads, Option.bind_some]
  simp [ofJson?, membersOf?, record, valueOf?, valuesOf, methods]

/-- An interface with names that have to be escaped and with the largest numbers. -/
def escapedInterface : Interface :=
  { methods := [{ name := "\"\\\n\x01é", returns := .number, offset := 4294967295,
                  parameters := [⟨"", .object⟩] }]
    events := [⟨"\t", 255, .none, "ff"⟩] }

theorem interface_roundTrips_escaped :
    escapedInterface.Fits ∧ decode? escapedInterface.encode = some escapedInterface := by
  have fits : escapedInterface.Fits := ⟨by decide, by decide⟩
  exact ⟨fits, (interface_roundTrips.1 escapedInterface fits).1.1⟩

end Interface

end Covenant
