import Covenant.Proofs.FairReading

/-!
# Types are read fairly

The counter of an enum is the one place where reading can end without a
report.  `CountsPast` follows the entries as they are written; the invariant of
the repetition leads a run past the limit back to the first entry.
-/

namespace Covenant.Reading

variable {ground : Ground} {before : State}

/-! ## Written types -/

/-- Kinds without details can be asked for. -/
theorem ofKind_ok {kind : Ty.Kind} (simple : kind.isPrimitive = true) :
    ∃ ty, Ty.ofKind kind = .ok ty := by
  cases kind <;> cases simple <;> exact ⟨_, rfl⟩

/-- Of the kinds that can be spelled, only decimals and methods have details. -/
theorem isPrimitive_of_ofTypeName? {word : String} {kind : Ty.Kind}
    (spelled : Ty.Kind.ofTypeName? word = some kind) (plain : kind ≠ .decimal)
    (other : kind ≠ .method) : kind.isPrimitive = true := by
  have named := List.find?_some spelled
  cases kind <;> simp_all [Ty.Kind.isNameless, Ty.Kind.isPrimitive]

theorem places_passes :
    Passes ground true places fun count => 1 ≤ count ∧ count ≤ Ty.maxPlaces := by
  refine .of_reads fun bound place => .take .fetch fun token shown => ?_
  by_cases numeric : token.kind = .number
  · simp only [numeric, ne_eq, not_true_eq_false, if_false]
    split
    · split
      · rename_i range
        exact .pure ⟨rfl, by simpa using range⟩
      · exact .fail ⟨rfl, shown⟩
    · exact .fail ⟨rfl, shown⟩
  · simp only [numeric, ne_eq, not_false_eq_true, if_true]
    exact .failFirst ⟨rfl, shown⟩

theorem languageType_passes {token : Token} (shown : Shown ground token.line) :
    Passes ground false (languageType token) fun _ => True := by
  refine .of_reads fun bound place => ?_
  unfold languageType
  split
  · exact .fail ⟨rfl, shown⟩
  · refine .take (.operator "<") fun _ _ => .take places_passes fun count range => ?_
    refine .take .closeAngle fun _ _ => .of_passes (.result ?_) fun _ _ => ⟨rfl, trivial⟩
    simp [Ty.ofPlaces, range]
  · exact .pure ⟨rfl, trivial⟩
  · rename_i kind plain other spelled
    split
    · exact .fail ⟨rfl, shown⟩
    · rcases ofKind_ok (isPrimitive_of_ofTypeName? spelled plain other) with ⟨ty, made⟩
      exact .of_passes (.result (by simp [made])) fun _ _ => ⟨rfl, trivial⟩

theorem innermostType_passes (declared : Declared) {token : Token}
    (shown : Shown ground token.line) :
    Passes ground false (innermostType declared token) fun _ => True := by
  refine .of_reads fun bound place => ?_
  unfold innermostType
  split
  · exact .of_passes (.require ⟨rfl, shown⟩) fun _ _ => ⟨rfl, trivial⟩
  · split
    · exact .of_passes (languageType_passes shown) fun _ _ => ⟨rfl, trivial⟩
    · exact .fail ⟨rfl, shown⟩
  · split
    · exact .of_passes (languageType_passes shown) fun _ _ => ⟨rfl, trivial⟩
    · exact .fail ⟨rfl, shown⟩
  · exact .fail ⟨rfl, shown⟩

theorem arrayLevels_suffix (ty : Ty) (tokens : List Token) :
    (arrayLevels ty tokens).2 <:+ tokens := by
  fun_induction arrayLevels ty tokens with
  | case1 ty first second rest _ ih =>
    exact ih.trans ((List.suffix_cons _ _).trans (List.suffix_cons _ _))
  | case2 | case3 => exact List.suffix_refl _

theorem tokensWeight_append (front rest : List Token) :
    tokensWeight (front ++ rest) = tokensWeight front + tokensWeight rest := by
  induction front with
  | nil => simp [tokensWeight]
  | cons token front ih => simp [tokensWeight, ih, Nat.add_assoc]

/-- Passing over tokens. -/
theorem moves_suffix {rest : List Token} (suffix : rest <:+ before.rest)
    (sound : before.Sound ground) : Moves ground false before { before with rest } := by
  refine ⟨?_, { sound with
    formed := fun formed token member => sound.formed formed token (suffix.subset member)
    overruns := fun overruns => sound.overruns (overruns.of_suffix suffix)
    shown := fun token member => sound.shown token (suffix.subset member) }⟩
  rcases suffix with ⟨front, whole⟩
  simp [State.weight, ← whole, tokensWeight_append]

theorem writtenType_passes (declared : Declared) :
    Passes ground true (writtenType declared) fun _ => True := by
  have brackets (ty : Ty) : Passes ground false (do
      let state ← get
      set { state with rest := (arrayLevels ty state.rest).2 }
      return (arrayLevels ty state.rest).1) fun _ => True := by
    refine fun before => .keep .get fun state looked _ same => ?_
    rcases same with ⟨rfl, rfl⟩
    exact .keep (.set (fun sound => moves_suffix (arrayLevels_suffix ty _) sound) rfl)
      fun _ _ _ same => .pure ⟨same, trivial⟩
  refine .of_reads fun bound place => .take .fetch fun token shown => ?_
  exact .pass (innermostType_passes declared shown) fun ty _ =>
    .of_passes (brackets ty) fun _ _ => ⟨rfl, trivial⟩

/-! ## Structs -/

theorem structField_passes (declared : Declared) (decl : StructDecl) :
    Passes ground true (structField declared decl) fun _ => True := by
  refine .of_reads fun bound place => .take .identifier fun field shown => ?_
  refine .take (.separator ":") fun _ _ => .take (writtenType_passes declared) fun ty _ => ?_
  refine .pass (.result fun error failed => ?_) fun extended _ => ?_
  · unfold StructDecl.add at failed
    split at failed <;> cases failed
    exact ⟨rfl, shown⟩
  · refine .pass (.eat .separator ";") fun closed _ => ?_
    split
    · exact .pure ⟨rfl, trivial⟩
    · exact .pass (.discard (.eat _ _)) fun _ _ => .pure ⟨rfl, trivial⟩

/-- A struct is put behind the others. -/
theorem structDeclaration_passes (declared : Declared) :
    Passes ground true (structDeclaration declared) fun next =>
      declared.structs <+: next.structs := by
  refine .of_reads fun bound place => .take (.expect _ _) fun keyword shown => ?_
  refine .take .identifier fun name _ => .take (.separator _) fun _ _ => ?_
  have fields : Passes ground false (iterate (eat .separator "\x7d") (structField declared)
      { name := name.value }) fun _ => True := by
    refine .of_reads fun _ _ => .iterate (.eat _ _) (fun decl later same => ?_) ⟨rfl, trivial⟩
    exact .of_passes (structField_passes declared decl) fun _ _ => same
  refine .pass fields fun decl _ => .of_passes (.result fun error failed => ?_)
    fun next added => ⟨rfl, ?_⟩ <;> unfold Declared.addStruct at *
  · split at failed <;> cases failed
    exact ⟨rfl, shown⟩
  · split at added <;> cases added
    exact List.prefix_append _ _

/-! ## Enums -/

/-- The value that an entry without a number would get, were there no limit. -/
def nextEntry (decl : EnumDecl) : Nat :=
  (decl.entries.getLast?.map fun entry => entry.value + 1).getD 0

theorem readNat?_lt {limit value : Nat} {text : String}
    (read : Text.readNat? limit text = some value) : value < limit := by
  have digits : ∀ digits, Text.readDigits? limit digits = some value → value < limit := by
    intro digits read
    unfold Text.readDigits? at read
    split at read
    · rename_i accepted
      cases read
      simp only [Bool.and_eq_true, decide_eq_true_eq] at accepted
      exact accepted.2
    · cases read
  unfold Text.readNat? at read
  split at read <;> exact digits _ read

/-- What the value of an entry says about the tokens behind the name. -/
def Spells (value? : Option Nat) (tokens rest : List Token) : Prop :=
  match value? with
  | none => Valueless tokens ∧ rest = tokens
  | some value => ∃ sign number, tokens = sign :: number :: rest ∧
      sign.is .operator "=" = true ∧ number.kind = .number ∧
      Text.readNat? Text.limit32 number.value = some value

theorem entryValue_fair : Fair ground before false entryValue fun value? after =>
    after.place = before.place ∧ Spells value? before.rest after.rest := by
  refine .keep (.eat .operator "=") fun signed between _ eaten => ?_
  rcases eaten with ⟨rfl, sign, isSign, taken⟩ | ⟨rfl, rfl, bare⟩
  · simp only [if_true]
    refine .spend .fetch fun token fetched _ found => ?_
    have valued : Fair ground fetched false (require (if token.kind = .number then
        Text.readNat? Text.limit32 token.value else none)
        (.expected token.line "enum value" token.value)) fun value after =>
        after = fetched ∧ token.kind = .number ∧
          Text.readNat? Text.limit32 token.value = some value := by
      split
      · cases read : Text.readNat? Text.limit32 token.value with
        | none => exact .fail ⟨rfl, found.shown⟩
        | some value => exact .pure ⟨rfl, ‹_›, rfl⟩
      · exact .fail ⟨rfl, found.shown⟩
    refine valued.keep ?_
    rintro value _ _ ⟨rfl, numeric, read⟩
    refine .pure ⟨found.same.trans taken.same, sign, token, ?_, isSign, numeric, read⟩
    rw [taken.spelled, found.spelled]
  · simp only [Bool.false_eq_true, if_false]
    exact .pure ⟨rfl, bare, rfl⟩

/-- The entries so far fit below the limit, and running past it is an overrun. -/
structure Counting (ground : Ground) (decl : EnumDecl) (state : State) : Prop where
  fits : nextEntry decl ≤ Text.limit32
  counts : CountsPast (nextEntry decl) state.rest → Overruns ground.tokens

theorem nextValue_cases (decl : EnumDecl) :
    decl.nextValue = .ok (nextEntry decl) ∧ nextEntry decl < Text.limit32 ∨
      decl.nextValue = .error .overflow ∧ Text.limit32 ≤ nextEntry decl := by
  unfold EnumDecl.nextValue nextEntry
  cases decl.entries.getLast? with
  | none => exact .inl ⟨rfl, by decide⟩
  | some last =>
    by_cases below : last.value + 1 < Text.limit32
    · exact .inl ⟨by simp [below], below⟩
    · exact .inr ⟨by simp [below], Nat.le_of_not_lt below⟩

/-- A new entry gets the number that is written, or the next one. -/
theorem add_cases (decl : EnumDecl) (name : String) (value? : Option Nat) (line : Nat) :
    (∃ error, decl.add name value? line = .error (.error error) ∧ error.isInternal = false ∧
        error.line? = some line) ∨
      (decl.add name value? line = .error .overflow ∧ value? = none ∧
        Text.limit32 ≤ nextEntry decl) ∨
      ∃ extended, decl.add name value? line = .ok extended ∧
        nextEntry extended = value?.getD (nextEntry decl) + 1 ∧
        (value? = none → nextEntry decl < Text.limit32) := by
  by_cases taken : (decl.entry? name).isSome = true
  · exact .inl ⟨.duplicate line (decl.name ++ "." ++ name), by simp [EnumDecl.add, taken]; rfl,
      rfl, rfl⟩
  have written : decl.add name value? line =
      (value?.map Except.ok).getD decl.nextValue >>= fun value =>
        if decl.entries.any fun entry => entry.value == value then
          .error (.error (.semantic line (.repeatedEnumValue value decl.name)))
        else
          .ok { decl with entries := decl.entries ++ [⟨name, value⟩] } := by
    cases value? <;> simp [EnumDecl.add, taken] <;> rfl
  have placed : ∀ value, (value?.map Except.ok).getD decl.nextValue = .ok value →
      (value? = none → nextEntry decl < Text.limit32) →
      value = value?.getD (nextEntry decl) →
      (∃ error, decl.add name value? line = .error (.error error) ∧ error.isInternal = false ∧
          error.line? = some line) ∨
        ∃ extended, decl.add name value? line = .ok extended ∧
          nextEntry extended = value?.getD (nextEntry decl) + 1 ∧
          (value? = none → nextEntry decl < Text.limit32) := by
    intro value computed below same
    rw [written, computed]
    simp only [bind, Except.bind]
    split
    · exact .inl ⟨_, rfl, rfl, rfl⟩
    · refine .inr ⟨_, rfl, ?_, below⟩
      rw [← same]
      simp [nextEntry]
  cases value? with
  | some value => exact (placed value rfl nofun rfl).imp_right .inr
  | none =>
    rcases nextValue_cases decl with ⟨computed, below⟩ | ⟨refused, past⟩
    · exact (placed _ computed (fun _ => below) rfl).imp_right .inr
    · refine .inr (.inl ⟨?_, rfl, past⟩)
      rw [written, Option.map_none, Option.getD_none, refused]
      rfl

theorem enumEntry_fair {decl : EnumDecl} (counting : Counting ground decl before) :
    Fair ground before true (enumEntry decl) fun extended after =>
      after.place = before.place ∧ Counting ground extended after := by
  refine .spend .identifier fun entry named _ found => ?_
  rcases found with ⟨isName, taken⟩
  refine .keep entryValue_fair fun value? valued _ read => ?_
  rcases read with ⟨same, spells⟩
  have here : valued.place = before.place := same.trans taken.same
  have added : Fair ground valued false (decl.add entry.value value? entry.line :
      Except Failure EnumDecl) fun extended after => after = valued ∧
        nextEntry extended = value?.getD (nextEntry decl) + 1 ∧
          (value? = none → nextEntry decl < Text.limit32) := by
    refine .lift (fun failure failed => ?_) fun extended added => ?_
    · rcases add_cases decl entry.value value? entry.line with
        ⟨error, same, plain, line⟩ | ⟨same, rfl, past⟩ | ⟨_, same, -⟩ <;>
        rw [same] at failed <;> cases failed
      · refine fun _ => ⟨plain, ?_⟩
        rw [line]
        exact taken.shown
      · have last : nextEntry decl = Text.limit32 := Nat.le_antisymm counting.fits past
        refine counting.counts ?_
        rw [last, taken.spelled]
        exact .past isName spells.1
    · rcases add_cases decl entry.value value? entry.line with
        ⟨_, same, -⟩ | ⟨same, -⟩ | ⟨_, same, next, below⟩ <;> rw [same] at added <;> cases added
      exact ⟨rfl, next, below⟩
  refine added.keep ?_
  rintro extended later _ ⟨same, next, below⟩
  subst same
  have eaten : Fair ground later false (discard (eat .separator ",")) fun _ after =>
      after.place = later.place ∧ after.rest = afterComma later.rest := by
    refine .discard ((Fair.eat _ _).mono fun found after _ answer => ?_)
    rcases answer with ⟨-, token, isComma, taken⟩ | ⟨-, rfl, other⟩
    · exact ⟨taken.same, by simp [afterComma, taken.spelled, isComma]⟩
    · refine ⟨rfl, ?_⟩
      cases tokens : after.rest with
      | nil => rfl
      | cons token rest => simp [afterComma, other token (by simp [tokens])]
  refine eaten.keep fun _ after _ passed => .pure ⟨passed.1.trans here, ?_, fun past => ?_⟩
  · cases value? with
    | none => simpa [next] using Nat.succ_le_of_lt (below rfl)
    | some value =>
      rcases spells with ⟨_, _, _, _, _, read⟩
      simpa [next] using Nat.succ_le_of_lt (readNat?_lt read)
  · refine counting.counts ?_
    rw [passed.2, next] at past
    rw [taken.spelled]
    cases value? with
    | none =>
      rcases spells with ⟨bare, same⟩
      rw [same] at past
      exact .bare isName bare past
    | some value =>
      rcases spells with ⟨sign, number, tokens, isSign, numeric, read⟩
      rw [tokens]
      exact .given isName isSign numeric read past

theorem enumDeclaration_passes (declared : Declared) :
    Passes ground true (enumDeclaration declared) fun next =>
      declared.structs <+: next.structs := by
  refine fun before => .knowing fun sound => .spend (.expect _ _) fun keyword _ _ found => ?_
  rcases found with ⟨isEnum, first⟩
  refine .spend .identifier fun name _ _ found => .spend (.separator _) fun _ opened _ brace => ?_
  rcases found with ⟨-, second⟩
  rcases brace with ⟨brace, third⟩
  have counting : Counting ground { name := name.value } opened := by
    refine ⟨Nat.zero_le _, fun past => sound.overruns ?_⟩
    have spelled : before.rest = keyword :: name :: brace :: opened.rest := by
      rw [first.spelled, second.spelled, third.spelled]
    exact ⟨keyword, name, brace, opened.rest, spelled ▸ List.suffix_refl _, isEnum, past⟩
  have here : opened.place = before.place := third.same.trans (second.same.trans first.same)
  have entries : Fair ground opened false
      (iterate (eat .separator "\x7d") enumEntry { name := name.value }) fun _ after =>
        after.place = before.place := by
    refine .iterate (fun decl state => state.place = before.place ∧ Counting ground decl state)
      (fun decl state held => ?_) (fun decl state _ held => ?_) ⟨here, counting⟩
    · refine (Fair.eat _ _).mono fun closed later _ answer => ?_
      rcases answer with ⟨rfl, _, -, taken⟩ | ⟨rfl, rfl, -⟩
      · exact taken.same.trans held.1
      · exact held
    · exact (enumEntry_fair held.2).mono fun extended after _ counted =>
        ⟨counted.1.trans held.1, counted.2⟩
  refine entries.keep fun decl closed _ same => ?_
  refine ((Passes.result fun error failed => ?_) closed).mono fun next _ _ holds =>
    ⟨holds.1.trans same, ?_⟩
  · unfold Declared.addEnum at failed
    split at failed <;> cases failed
    exact ⟨rfl, first.shown⟩
  · have added := holds.2
    unfold Declared.addEnum at added
    split at added <;> cases added
    exact List.prefix_rfl

end Covenant.Reading
