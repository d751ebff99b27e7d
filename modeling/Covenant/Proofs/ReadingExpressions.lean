import Covenant.Proofs.FairTypes
import Covenant.Proofs.Sufficiency
import Covenant.Reading.Expression

/-!
# Reading expressions

An expression that has been read is proper: each of its nodes fits its parts
and what it refers to, its calls have the arguments that they read, and each
node stands on a line of the source.  The reader of expressions leaves the
scopes alone.  Every node gets a number of its own, so that no number is used
twice.

`Makes` says this of a step that makes some expressions out of others, with the
place before and the place after it.  The readers of operands are judged with
the reader of nested expressions given; that reader is only ever used with less
weight than the start of the expression has.
-/

namespace Covenant

variable {token : Token} {error : Error} {method : Method} {name : String}

open Reading (Shown Place)

/-! ## What is made -/

/-- What a reader makes sure of when it makes a node. -/
structure Expr.Made (ground : Reading.Ground) (known : Vocabulary) (expr : Expr) : Prop where
  fits : expr.Fits known
  complete : (expr.hasArguments && expr.isExcused) = true
  shown : Shown ground expr.line

/-- A reader has made sure of every node of the expression. -/
def Expr.Proper (ground : Reading.Ground) (known : Vocabulary) (expr : Expr) : Prop :=
  ∀ part ∈ expr.walk, part.Made ground known

namespace Expr

variable {ground : Reading.Ground} {known : Vocabulary} {expr : Expr}

theorem walk_eq (expr : Expr) : expr.walk = expr :: walkAll expr.children := by
  cases expr <;> simp [walk, children, walkAll]

theorem walkAll_append (first second : List Expr) :
    walkAll (first ++ second) = walkAll first ++ walkAll second := by
  induction first with
  | nil => rfl
  | cons head tail ih => simp [walkAll, ih]

theorem Proper.made (proper : expr.Proper ground known) : expr.Made ground known :=
  proper expr expr.self_mem_walk

theorem Proper.of_children (made : expr.Made ground known)
    (children : ∀ child ∈ expr.children, child.Proper ground known) :
    expr.Proper ground known := by
  intro part member
  rcases mem_walk.mp member with rfl | ⟨child, among, inner⟩
  · exact made
  · exact children child among part inner

/-- How many nodes of the expressions have the number. -/
def uses (exprs : List Expr) (id : Nat) : Nat :=
  ((walkAll exprs).map fun part => part.mark.id).count id

theorem uses_append (first second : List Expr) (id : Nat) :
    uses (first ++ second) id = uses first id + uses second id := by
  simp [uses, walkAll_append]

theorem uses_singleton (expr : Expr) (id : Nat) :
    uses [expr] id = uses expr.children id + if expr.mark.id = id then 1 else 0 := by
  simp [uses, walkAll, walk_eq expr, List.count_cons]

end Expr

namespace Reading

/-- Is the number given to a node while the count goes from `first` to `last`? -/
def fresh (first last id : Nat) : Nat :=
  if first < id ∧ id ≤ last then 1 else 0

theorem fresh_add {first middle last : Nat} (one : first ≤ middle) (two : middle ≤ last)
    (id : Nat) : fresh first middle id + fresh middle last id = fresh first last id := by
  unfold fresh
  split <;> split <;> split <;> omega

theorem fresh_succ (count id : Nat) :
    fresh count (count + 1) id = if count + 1 = id then 1 else 0 := by
  unfold fresh
  split <;> split <;> omega

/-- What the expressions of a body can refer to. -/
def Context.vocabulary (context : Context) (tree : ScopeTree) : Vocabulary :=
  { declarations := tree.declarations
    declared := context.declared
    own := context.own.methods
    events := context.events }

/-- Between two places, some expressions are made out of others. -/
structure Makes (ground : Ground) (context : Context) (given : List Expr) (before : Place)
    (made : List Expr) (after : Place) : Prop where
  same : after.scopes = before.scopes
  le : before.nodes ≤ after.nodes
  proper : (∀ expr ∈ given, expr.Proper ground (context.vocabulary before.scopes)) →
    ∀ expr ∈ made, expr.Proper ground (context.vocabulary before.scopes)
  uses : ∀ id, Expr.uses made id ≤ Expr.uses given id + fresh before.nodes after.nodes id

variable {ground : Ground} {context : Context} {bound : Nat} {eats : Bool}
  {start place later : Place} {given between made : List Expr} {expr left right : Expr}
  {line : Nat}

namespace Makes

theorem refl (ground : Ground) (context : Context) (given : List Expr) (place : Place) :
    Makes ground context given place given place :=
  ⟨rfl, Nat.le_refl _, id, fun _ => Nat.le_add_right _ _⟩

theorem trans (first : Makes ground context given start between place)
    (second : Makes ground context between place made later) :
    Makes ground context given start made later := by
  have proper := second.proper
  rw [first.same] at proper
  refine ⟨second.same.trans first.same, Nat.le_trans first.le second.le,
    fun holds => proper (first.proper holds), fun id => ?_⟩
  have := first.uses id
  have := second.uses id
  rw [← fresh_add first.le second.le]
  omega

/-- Two steps with different expressions. -/
theorem append {others more : List Expr} (first : Makes ground context given start made place)
    (second : Makes ground context others place more later) :
    Makes ground context (given ++ others) start (made ++ more) later := by
  have proper := second.proper
  rw [first.same] at proper
  refine ⟨second.same.trans first.same, Nat.le_trans first.le second.le, fun holds => ?_,
    fun id => ?_⟩
  · rw [List.forall_mem_append] at holds ⊢
    exact ⟨first.proper holds.1, proper holds.2⟩
  · have := first.uses id
    have := second.uses id
    rw [← fresh_add first.le second.le, Expr.uses_append, Expr.uses_append]
    omega

/-- What is given may be left out. -/
theorem drop (ground : Ground) (context : Context) (given : List Expr) (place : Place) :
    Makes ground context given place [] place :=
  ⟨rfl, Nat.le_refl _, nofun, fun _ => Nat.zero_le _⟩

theorem node (children : Makes ground context given start expr.children place)
    (made : (∀ part ∈ given, part.Proper ground (context.vocabulary start.scopes)) →
      expr.Made ground (context.vocabulary start.scopes))
    (marked : expr.mark.id = place.nodes + 1) :
    Makes ground context given start [expr] ⟨place.scopes, place.nodes + 1⟩ := by
  refine ⟨children.same, Nat.le_succ_of_le children.le, fun holds => ?_, fun id => ?_⟩
  · exact List.forall_mem_singleton.mpr (.of_children (made holds) (children.proper holds))
  · have := children.uses id
    rw [← fresh_add children.le (Nat.le_succ _), fresh_succ, Expr.uses_singleton, marked]
    omega

theorem single (makes : Makes ground context [] start [expr] place) :
    expr.Proper ground (context.vocabulary start.scopes) :=
  makes.proper nofun expr List.mem_cons_self

end Makes

section Nodes

variable {Next : Type} {build : Mark → Expr} {post : Expr → Place → Prop}
  {next : Expr → Reading Next} {goal : Next → Place → Prop}
  (children : Makes ground context given start (build ⟨place.nodes + 1, line⟩).children place)
  (shaped : (∀ part ∈ given, part.Proper ground (context.vocabulary start.scopes)) →
    (build ⟨place.nodes + 1, line⟩).Made ground (context.vocabulary start.scopes))
  (marked : (build ⟨place.nodes + 1, line⟩).mark = ⟨place.nodes + 1, line⟩)

include children shaped marked

/-- A node of parts that have been made. -/
theorem Reads.make
    (holds : Makes ground context given start [build ⟨place.nodes + 1, line⟩]
      ⟨place.scopes, place.nodes + 1⟩ →
        post (build ⟨place.nodes + 1, line⟩) ⟨place.scopes, place.nodes + 1⟩) :
    Reads ground bound place false (Reading.node line build) post :=
  .node (holds (.node children shaped (by rw [marked])))

/-- A node that more is made of. -/
theorem Reads.makeThen
    (second : Makes ground context given start [build ⟨place.nodes + 1, line⟩]
      ⟨place.scopes, place.nodes + 1⟩ →
        Reads ground bound ⟨place.scopes, place.nodes + 1⟩ eats
          (next (build ⟨place.nodes + 1, line⟩)) goal) :
    Reads ground bound place eats (Reading.node line build >>= next) goal :=
  .nodeThen (second (.node children shaped (by rw [marked])))

end Nodes

/-! ## Fitting types together -/

section Fitting

theorem convert_makes (context : Context) {target : Ty} (castable : expr.ty.canCast target) :
    Reads ground bound place false (convert expr target) fun fitted later =>
      fitted.ty = target ∧ Makes ground context [expr] place [fitted] later := by
  refine .make (.refl ground context ..) (fun proper => ⟨castable, rfl, ?_⟩) rfl (.intro rfl)
  exact (List.forall_mem_singleton.mp proper).made.shown

/-- A literal is only written with other places where the type asks for them. -/
theorem rescaleFor_makes (context : Context) (target : Ty) (expr : Expr) :
    Reads ground bound place false (rescaleFor target expr) fun found later =>
      match found with
      | some literal => expr.isLiteral = true ∧ literal.ty = target ∧
          Makes ground context [expr] place [literal] later
      | none => later = place := by
  unfold rescaleFor
  split
  · rename_i wanted places
    obtain ⟨range, decimal⟩ : ∃ range, target = .decimal ⟨wanted, range⟩ := by
      unfold Ty.places? at places
      split at places
      · rename_i count
        cases places
        exact ⟨count.2, rfl⟩
      · cases places
    have built : Ty.ofPlaces wanted = .ok target := by
      rw [decimal]
      exact dif_pos range
    unfold rescale
    split
    · rename_i text rescaled
      have literal : expr.isLiteral = true := by
        unfold Expr.rescaledText? at rescaled
        split at rescaled <;> first | rfl | cases rescaled
      refine .pass (.resultOf built) fun _ same => same ▸ ?_
      refine .makeThen (.drop ground context [expr] place) (fun proper => ⟨trivial, rfl, ?_⟩) rfl
        fun makes => .pure ⟨literal, rfl, makes⟩
      exact (List.forall_mem_singleton.mp proper).made.shown
    · exact .pure rfl
  · exact .pure rfl

theorem coerce_makes (context : Context) (target : Ty) (shown : Shown ground line) :
    Reads ground bound place false (coerce expr target line) fun fitted later =>
      target.accepts fitted.ty ∧ Makes ground context [expr] place [fitted] later := by
  have accepted {fitted : Expr} (same : fitted.ty = target) : target.accepts fitted.ty := by
    simp [same]
  unfold coerce
  split
  · exact .pure ⟨‹_›, .refl ..⟩
  · refine .keep (rescaleFor_makes context target expr) fun found later holds => ?_
    cases found with
    | some literal => exact .pure ⟨accepted holds.2.1, holds.2.2⟩
    | none =>
      cases holds
      simp only
      split
      · exact (convert_makes context ‹_›).mono fun _ _ holds => ⟨accepted holds.1, holds.2⟩
      · exact .fail ⟨rfl, shown⟩

theorem convertRight_makes (context : Context) (op : BinaryOp) (left right : Expr) :
    Reads ground bound place false (convertRight op left right) fun fitted =>
      Makes ground context [right] place [fitted] := by
  unfold convertRight
  split
  · split
    · exact (convert_makes context ‹_›).mono fun _ _ => And.right
    · exact .pure (.refl ..)
  · exact .pure (.refl ..)

theorem unify_makes (context : Context) (op : BinaryOp) (left right : Expr)
    (shown : Shown ground line) :
    Reads ground bound place false (unify op left right line) fun pair later =>
      pair.1.ty = pair.2.ty ∧ (left.isLiteral = false → pair.1 = left) ∧
        Makes ground context [left, right] place [pair.1, pair.2] later := by
  have alone := Makes.refl ground context [left] place
  refine .keep (convertRight_makes context op left right) fun right later converted => ?_
  split
  · exact .pure ⟨‹_›, fun _ => rfl, alone.append converted⟩
  · refine .keep (rescaleFor_makes context left.ty right) fun found next holds => ?_
    cases found with
    | some literal =>
      exact .pure ⟨holds.2.1.symm, fun _ => rfl, alone.append (converted.trans holds.2.2)⟩
    | none =>
      cases holds
      refine .keep (rescaleFor_makes context right.ty left) fun found last holds => ?_
      cases found with
      | some literal =>
        refine .pure ⟨holds.2.1, fun other => ?_, (alone.append converted).trans ?_⟩
        · rw [holds.1] at other
          cases other
        · exact holds.2.2.append (.refl _ _ [right] _)
      | none => exact .fail ⟨rfl, shown⟩

/-- The operator is applied to the left operand itself, unless that is a literal. -/
theorem binary_makes (context : Context) (spelling : String) (left right : Expr)
    (shown : Shown ground line) :
    Reads ground bound place false (binary spelling left right line) fun expr later =>
      Makes ground context [left, right] place [expr] later ∧
        (left.isLiteral = false → (∀ op ∈ BinaryOp.ofSpelling? spelling, op.isComparison = false) →
          ∃ mark op other, expr = .binary mark left.ty op left other) := by
  refine .pass (.require ⟨rfl, shown⟩) fun op named => ?_
  refine .keep (unify_makes context op left right shown) ?_
  rintro ⟨fitted, right⟩ later ⟨same, kept, unified⟩
  refine .makeThen unified (fun _ => ⟨⟨same, rfl⟩, rfl, shown⟩) rfl fun makes => ?_
  split
  · rename_i unequal
    -- An inequality is the negation of an equality, which is a comparison.
    have comparison : op.isComparison := by
      rw [unequal] at named
      cases named
      rfl
    refine .make makes (fun _ => ⟨⟨if_pos comparison, rfl⟩, rfl, shown⟩) rfl fun makes =>
      ⟨makes, fun _ calculates => ?_⟩
    rw [calculates op named] at comparison
    cases comparison
  · refine .pure ⟨makes, fun other calculates => ?_⟩
    have same : fitted = left := kept other
    rw [calculates op named, same]
    exact ⟨_, op, right, rfl⟩

/-- Arguments are coerced one by one, as long as there are parameters. -/
theorem coerceAll_makes (context : Context) (shown : Shown ground line) {arguments : List Expr}
    {parameters : List Parameter} (count : arguments.length = parameters.length) :
    Reads ground bound place false (coerceAll line arguments parameters) fun fitted later =>
      Suitable parameters fitted ∧ Makes ground context arguments place fitted later := by
  fun_induction coerceAll line arguments parameters generalizing place with
  | case1 argument arguments parameter parameters ih =>
    refine .keep (coerce_makes context parameter.ty shown) fun first later one => ?_
    refine .keep (ih (Nat.succ.inj count)) fun rest last others => ?_
    rcases others with ⟨⟨counted, accepted⟩, makes⟩
    refine .pure ⟨⟨by simp [counted], ?_⟩, one.2.append makes⟩
    simpa using ⟨one.1, fun first second member => accepted (first, second) member⟩
  | case2 arguments parameters missing =>
    refine .pure ⟨⟨?_, by simp⟩, .drop ..⟩
    cases arguments with
    | nil => exact count
    | cons first rest =>
      cases parameters with
      | nil => cases count
      | cons parameter others => exact absurd rfl (missing _ _ _ _ rfl)

/-- Whether arguments are checked or not, there is one for every parameter. -/
theorem fitArguments_makes (context : Context) (method : Method) (arguments : List Expr)
    (shown : Shown ground line) :
    Reads ground bound place false (fitArguments method arguments line) fun fitted later =>
      (method.isUntyped = false → Suitable method.parameters fitted) ∧
        method.parameters.length ≤ fitted.length ∧
          Makes ground context arguments place fitted later := by
  unfold fitArguments
  split
  · exact .fail ⟨rfl, shown⟩
  · rename_i taken
    split
    · rename_i untyped
      refine .pure ⟨fun typed => ?_, by simpa [takesCount, untyped] using taken, .refl ..⟩
      simp [typed] at untyped
    · rename_i checked
      have count : arguments.length = method.parameters.length := by
        simpa [takesCount, checked] using taken
      exact (coerceAll_makes context shown count).mono fun fitted _ holds =>
        ⟨fun _ => holds.1, Nat.le_of_eq holds.1.1.symm, holds.2⟩

theorem callType_passes (sufficient : method.Sufficient) {arguments : List Expr}
    (enough : method.parameters.length ≤ arguments.length) (typeArgument : Option Ty)
    (shown : Shown ground line) :
    Passes ground false (callType method arguments typeArgument line) fun _ => True := by
  refine .of_reads fun bound place => ?_
  rcases sufficient with ⟨-, -, indexed⟩
  unfold callType
  split
  · exact .pure ⟨rfl, trivial⟩
  · split
    · exact .pure ⟨rfl, trivial⟩
    · split
      · exact .fail ⟨rfl, shown⟩
      · exact .pure ⟨rfl, trivial⟩
  · rename_i index found
    rw [found] at indexed
    rw [List.getElem?_eq_getElem (Nat.lt_of_lt_of_le indexed enough)]
    exact .pure ⟨rfl, trivial⟩
  · rename_i index found
    rw [found] at indexed
    rw [List.getElem?_eq_getElem (Nat.lt_of_lt_of_le indexed enough)]
    exact .of_passes (.require ⟨rfl, shown⟩) fun _ _ => ⟨rfl, trivial⟩

end Fitting

/-! ## Operands without parts -/

section Operands

theorem machineType_blames {ty : Ty} (failed : ty.machineType = .error error) :
    Blames ground error := by
  unfold Ty.machineType MachineType.ofKind at failed
  split at failed <;> cases failed
  exact ⟨rfl, trivial⟩

/-- A decimal has a place at least: digits stand behind its point. -/
theorem literal_makes (context : Context) (sign : String) (shown : Shown ground token.line)
    (formed : ground.Formed → token.kind.Forms token.value.toList) :
    Reads ground bound place false (literal sign token) fun expr =>
      Makes ground context [] place [expr] := by
  have valued : Passes ground false (literalValue token) fun _ => True := by
    refine .of_reads fun bound place => ?_
    unfold literalValue
    split
    · rename_i isDecimal
      split
      · rename_i text places scaled
        split
        · rename_i few
          refine .pass (.resultOfFormed fun given error failed => ?_) fun _ _ =>
            .pure ⟨rfl, trivial⟩
          have forms := formed given
          rw [isDecimal] at forms
          rcases forms with ⟨whole, fraction, spelled, wholeNumeral, fractionNumeral⟩
          rw [scaledDecimal?_spelled spelled wholeNumeral] at scaled
          cases scaled
          have some : 1 ≤ fraction.length := List.length_pos_iff.mpr fractionNumeral.1
          rw [Ty.ofPlaces, dif_pos ⟨some, few⟩] at failed
          cases failed
        · exact .fail ⟨rfl, shown⟩
      · exact .fail ⟨rfl, shown⟩
    · exact .pass (.require ⟨rfl, shown⟩) fun _ _ => .pure ⟨rfl, trivial⟩
  refine .pass valued fun value _ => ?_
  exact .make (.refl ground context [] place) (fun _ => ⟨trivial, rfl, shown⟩) rfl id

theorem macroValue_makes (shown : Shown ground token.line) :
    Reads ground bound place false (macroValue context token) fun expr =>
      Makes ground context [] place [expr] := by
  have none := Makes.refl ground context [] place
  unfold macroValue
  split
  · exact .make none (fun _ => ⟨trivial, rfl, shown⟩) rfl id
  · refine .pass (.require ⟨rfl, shown⟩) fun symbol _ => ?_
    exact .make none (fun _ => ⟨trivial, rfl, shown⟩) rfl id
  · refine .take (.separator _) fun _ _ => .take (writtenType_passes _) fun ty _ => ?_
    refine .take (.separator _) fun _ _ => ?_
    refine .pass (.result fun _ => machineType_blames) fun shape _ => ?_
    exact .make none (fun _ => ⟨trivial, rfl, shown⟩) rfl id
  · exact .fail ⟨rfl, shown⟩

theorem variableValue_makes (context : Context) {id : VarId}
    (known : place.scopes.declarations[id]? = some (place.scopes.declaration id))
    (shown : Shown ground line) :
    Reads ground bound place false (variableValue id line) fun expr later =>
      expr.ty = (place.scopes.declaration id).ty ∧ Makes ground context [] place [expr] later := by
  refine .scopes ?_
  simp only
  split
  · exact .fail ⟨rfl, shown⟩
  · rename_i single
    refine .make (.refl ground context [] place) (fun _ => ⟨?_, rfl, shown⟩) rfl (.intro rfl)
    exact ⟨_, known, rfl, by simpa using single⟩

theorem nameValue_makes (scope : ScopeId) (shown : Shown ground token.line) :
    Reads ground bound place false (nameValue context scope token) fun expr =>
      Makes ground context [] place [expr] := by
  have none := Makes.refl ground context [] place
  refine .knowing fun recorded => .scopes ?_
  split
  · rename_i id found
    exact (variableValue_makes context (recorded.known found) shown).mono fun _ _ => And.right
  · split
    · exact .make none (fun _ => ⟨trivial, rfl, shown⟩) rfl id
    · split
      · exact .make none (fun _ => ⟨trivial, rfl, shown⟩) rfl id
      · split
        · exact .make none (fun _ => ⟨trivial, rfl, shown⟩) rfl id
        · exact .fail ⟨rfl, shown⟩

/-! ## Operands with parts -/

/-- Calls of the method fit, wherever it comes from. -/
def Context.Calls (context : Context) (method : Method) : Prop :=
  method.Sufficient ∧ (method.IsOwn → method ∈ context.own.methods)

theorem Context.calls_of_foreign (context : Context) {library : Library}
    (foreign : library.Foreign) (found : library.method? name = some method) :
    context.Calls method := by
  have holds := foreign method (Library.mem_of_method? found)
  exact ⟨holds.2, fun isOwn => absurd isOwn holds.1⟩

/-- The libraries have what calls need, and only the own one has methods of the module. -/
structure Context.Furnished (context : Context) : Prop where
  libraries : ∀ library ∈ context.libraries, library.Foreign
  own : context.own.Sufficient

/-- The reader of nested expressions can be used with some weight. -/
def Ready (ground : Ground) (context : Context) (bound : Nat) (tree : ScopeTree)
    (nested : Reading Expr) : Prop :=
  ∀ place : Place, place.scopes = tree → Reads ground bound place true nested fun expr =>
    Makes ground context [] place [expr]

variable {nested : Reading Expr}

theorem typeArgument_passes (context : Context) :
    Passes ground false (typeArgument context) fun _ => True := by
  refine .of_reads fun bound place => .pass (.eat _ _) fun found _ => ?_
  split
  · exact .take (writtenType_passes _) fun _ _ => .take .closeAngle fun _ _ =>
      .pure ⟨rfl, trivial⟩
  · exact .pure ⟨rfl, trivial⟩

theorem call_makes (ready : Ready ground context bound start.scopes nested)
    (calls : context.Calls method) {implicit : List Expr}
    (first : Makes ground context [] start implicit place) (shown : Shown ground line) :
    Reads ground bound place false (call context nested method implicit line) fun expr =>
      Makes ground context [] start [expr] := by
  refine .pass (typeArgument_passes context) fun typeArgument _ => ?_
  refine .take (.separator _) fun _ _ => ?_
  have all : Reads ground bound place false (commaSeparated nested) fun written =>
      Makes ground context [] start (implicit ++ written) := by
    refine .commaSeparated (fun items later makes => ?_) (by simpa using first)
    refine (ready later makes.same).mono fun expr last one => ?_
    simpa using makes.append one
  refine .keep all fun written later makes => ?_
  refine .keep (fitArguments_makes context method _ shown) fun arguments last fitted => ?_
  rcases fitted with ⟨suitable, enough, fitting⟩
  refine .pass (callType_passes calls.1 enough typeArgument shown) fun ty _ => ?_
  refine .make (makes.trans fitting) (fun _ => ⟨⟨suitable, calls.2⟩, ?_, shown⟩) rfl id
  simpa [Expr.hasArguments, Expr.isExcused] using ⟨Nat.le_trans calls.1.1 enough, calls.1.2.1⟩

/-- A name that must be declared is the name of a variable, or its line is to blame. -/
theorem declaredVariable_reads (scope : ScopeId) (shown : Shown ground token.line) :
    Reads ground bound place false (declaredVariable scope token) fun id later =>
      later = place ∧ place.scopes.findVariable? scope token.value = some id := by
  refine .scopes (.pass (.result fun error failed => ?_) fun id? looked => ?_)
  · unfold ScopeTree.findVariable at failed
    split at failed <;> cases failed
    exact ⟨rfl, shown⟩
  · rcases ScopeTree.findVariable?_of_required looked with ⟨id, rfl, found⟩
    exact .pure ⟨rfl, found⟩

theorem element_makes (ready : Ready ground context bound place.scopes nested) (scope : ScopeId)
    (shown : Shown ground token.line) :
    Reads ground bound place false (element scope nested token) fun expr =>
      Makes ground context [] place [expr] := by
  refine .knowing fun recorded => .keep (declaredVariable_reads scope shown) ?_
  rintro target _ ⟨rfl, found⟩
  have known := recorded.known found
  refine .keep (variableValue_makes context known shown) fun array after valued => ?_
  refine .pass (.require ⟨rfl, shown⟩) fun ty elements => ?_
  refine .spend (ready after valued.2.same) fun written later one => ?_
  refine .keep (coerce_makes context _ shown) fun index last fitted => ?_
  refine .take (.separator _) fun _ _ => ?_
  exact .make (valued.2.append (one.trans fitted.2))
    (fun _ => ⟨⟨elements, fitted.1⟩, rfl, shown⟩) rfl id

theorem load_blames (shown : Shown ground line) (failed : Library.load name line = .error error) :
    Blames ground error := by
  unfold Library.load at failed
  split at failed
  · split at failed <;> cases failed
    exact ⟨rfl, shown⟩
  · cases failed
    exact ⟨rfl, shown⟩

/-- What follows a variable and a dot: a method of its library, or a field. -/
theorem variableMember_makes (ready : Ready ground context bound place.scopes nested)
    {declaration : Variable} (proper : declaration.Proper)
    (known : place.scopes.declarations[declaration.id]? = some declaration) {member : Token}
    (shown : Shown ground member.line) :
    Reads ground bound place false (variableMember context nested declaration member) fun expr =>
      Makes ground context [] place [expr] := by
  have same : place.scopes.declaration declaration.id = declaration := by
    simp [ScopeTree.declaration, known]
  have valued : Reads ground bound place false (variableValue declaration.id member.line)
      fun expr later => expr.ty = declaration.ty ∧ Makes ground context [] place [expr] later := by
    refine (variableValue_makes context (known.trans (by rw [same])) shown).mono ?_
    rw [same]
    exact fun _ _ holds => holds
  unfold variableMember
  split
  · rename_i collection
    rcases Library.exists_ofCollection proper.collected collection with ⟨library, built⟩
    refine .pass (.resultOf built) fun _ same => same ▸ ?_
    refine .pass (.require ⟨rfl, shown⟩) fun method found => ?_
    refine .makeThen (.refl ground context [] place) (fun _ => ⟨trivial, rfl, shown⟩) rfl
      fun makes => ?_
    exact call_makes ready (context.calls_of_foreign (Library.ofCollection_foreign built) found)
      makes shown
  · refine .pass (.check _ _) fun called _ => ?_
    split
    · refine .pass (.require ⟨rfl, shown⟩) fun ty fields => .keep valued fun target later made => ?_
      refine .make made.2 (fun _ => ⟨?_, rfl, shown⟩) rfl id
      exact (congrArg (context.declared.fieldType? · _) made.1).trans fields
    · refine .pass (.require ⟨rfl, shown⟩) fun name _ => ?_
      refine .pass (.result fun _ => load_blames shown) fun library loaded => ?_
      refine .pass (.require ⟨rfl, shown⟩) fun method found =>
        .keep valued fun target later made => ?_
      exact call_makes ready (context.calls_of_foreign (Library.load_foreign loaded) found)
        made.2 shown

variable (furnished : context.Furnished)
include furnished

theorem namedMember_makes (ready : Ready ground context bound place.scopes nested)
    {target : Token} (shown : Shown ground target.line) (member : Token) :
    Reads ground bound place false (namedMember context nested target member) fun expr =>
      Makes ground context [] place [expr] := by
  have none := Makes.refl ground context [] place
  unfold namedMember
  split
  · rename_i decl declared
    refine .pass (.require ⟨rfl, shown⟩) fun entry _ => ?_
    obtain ⟨ty, typed⟩ : ∃ ty, context.declared.named? target.value = some ty := by
      unfold Declared.named?
      split
      · exact ⟨_, rfl⟩
      · simp [declared]
    refine .pass (fun _ => by rw [typed]; exact .pure ⟨rfl, trivial⟩) fun ty (_ : True) => ?_
    exact .make none (fun _ => ⟨trivial, rfl, shown⟩) rfl id
  · split
    · rename_i library imported
      refine .pass (.require ⟨rfl, shown⟩) fun method found => ?_
      have foreign := furnished.libraries library (List.mem_of_find?_eq_some imported)
      exact call_makes ready (context.calls_of_foreign foreign found) none shown
    · split
      · exact .fail ⟨rfl, shown⟩
      · exact .fail ⟨rfl, shown⟩

theorem selection_makes (ready : Ready ground context bound place.scopes nested)
    (scope : ScopeId) {target : Token} (shown : Shown ground target.line) :
    Reads ground bound place true (selection context scope nested target) fun expr =>
      Makes ground context [] place [expr] := by
  refine .knowing fun recorded => .take .member fun member shownMember => .scopes ?_
  split
  · rename_i id found
    refine variableMember_makes ready (recorded.declaration id) ?_ shownMember
    have known := recorded.known found
    rwa [recorded.numbered id _ known]
  · exact namedMember_makes furnished ready shown member

/-- A method that the module finds among its own. -/
theorem ownCall_makes (ready : Ready ground context bound place.scopes nested) (name : String)
    (blames : Blames ground error) (shown : Shown ground line) :
    Reads ground bound place false (do
      let method ← require (context.own.method? name) error
      call context nested method [] line) fun expr => Makes ground context [] place [expr] := by
  refine .pass (.require blames) fun method found => ?_
  have listed := Library.mem_of_method? found
  exact call_makes ready ⟨furnished.own method listed, fun _ => listed⟩ (.refl ..) shown

theorem named_makes (ready : Ready ground context bound place.scopes nested) (scope : ScopeId)
    (shown : Shown ground token.line) :
    Reads ground bound place false (named context scope nested token) fun expr =>
      Makes ground context [] place [expr] := by
  refine .pass (.check _ _) fun called _ => ?_
  split
  · exact ownCall_makes furnished ready _ ⟨rfl, shown⟩ shown
  · refine .pass (.eat _ _) fun selected _ => ?_
    split
    · exact (selection_makes furnished ready scope shown).loosen
    · refine .pass (.eat _ _) fun indexed _ => ?_
      split
      · exact element_makes ready scope shown
      · exact nameValue_makes scope shown

omit furnished in
theorem negation_makes (ready : Ready ground context bound place.scopes nested)
    (shown : Shown ground line) :
    Reads ground bound place false (negation nested line) fun expr =>
      Makes ground context [] place [expr] := by
  refine .spend (ready place rfl) fun inner later makes => ?_
  split
  · exact .make makes (fun _ => ⟨⟨‹_›, rfl⟩, rfl, shown⟩) rfl id
  · exact .fail ⟨rfl, shown⟩

omit furnished in
theorem opposite_makes (ready : Ready ground context bound place.scopes nested)
    (shown : Shown ground line) :
    Reads ground bound place false (opposite nested line) fun expr =>
      Makes ground context [] place [expr] := by
  refine .current fun next before shownNext present here light => ?_
  split
  · refine .knowing fun sound => Reads.skip present here light fun _ _ => ?_
    exact literal_makes context "-" shownNext fun formed =>
      sound.formed formed next (List.mem_of_mem_head? present)
  · have goal : Reads ground bound place false (do
        let inner ← nested
        if hasOpposite inner.ty then
          node line fun mark => .negate mark inner.ty inner
        else
          wrongType line .number inner.ty) fun expr =>
        Makes ground context [] place [expr] := by
      refine .spend (ready _ rfl) fun inner later makes => ?_
      split
      · rename_i signed
        refine .make makes (fun _ => ⟨⟨?_, rfl⟩, rfl, shown⟩) rfl id
        simpa [hasOpposite] using signed
      · exact .fail ⟨rfl, shown⟩
    exact goal before here light

omit furnished in
theorem peekOperator_passes : Passes ground false peekOperator fun _ => True :=
  .of_reads fun _ _ => .pass (.peek 0) fun _ _ => .pure ⟨rfl, trivial⟩

omit furnished in
theorem group_makes (ready : Ready ground context bound place.scopes nested) (leading : Bool) :
    Reads ground bound place false (group nested leading) fun expr =>
      Makes ground context [] place [expr] := by
  refine .spend (ready place rfl) fun inner later makes => ?_
  refine .take (.separator _) fun _ _ => .pass peekOperator_passes fun operator _ => ?_
  split
  · exact .pass .current fun found shown => .fail ⟨rfl, shown⟩
  · exact .pure makes

/-- An operand uses up a token before it reads a nested expression. -/
theorem operand_makes (scope : ScopeId) (leading : Bool)
    (deep : ∀ less < bound, Ready ground context less place.scopes nested) :
    Reads ground bound place true (operand context scope nested leading) fun expr =>
      Makes ground context [] place [expr] := by
  refine .descend .fetchFormed fun token found less light => ?_
  rcases found with ⟨shown, formed⟩
  have ready := deep less light
  split
  · split
    · exact negation_makes ready shown
    · exact opposite_makes ready shown
    · exact .fail ⟨rfl, shown⟩
  · split
    · exact group_makes ready leading
    · exact .fail ⟨rfl, shown⟩
  · split
    · refine .take (.discard (.expect _ _)) fun _ _ => .take .member fun member _ => ?_
      exact ownCall_makes furnished ready _ ⟨rfl, shown⟩ shown
    · exact .fail ⟨rfl, shown⟩
  · exact macroValue_makes shown
  · exact named_makes furnished ready scope shown
  · split
    · exact literal_makes context _ shown formed
    · exact .fail ⟨rfl, shown⟩

omit furnished in
/-- Every link of a chain uses up its operator. -/
theorem chain_makes {right : Reading Expr}
    (operands : Ready ground context bound start.scopes right)
    (first : Makes ground context [] start [left] place) :
    Reads ground bound place false (chain right left) fun expr =>
      Makes ground context [] start [expr] := by
  refine .iterate (.of_reads fun _ _ => .pass peekOperator_passes fun _ _ => .pure ⟨rfl, trivial⟩)
    (fun left later makes => ?_) first
  refine .take .fetch fun token shown => ?_
  refine .spend (operands later makes.same) fun right last one => ?_
  exact (binary_makes context token.value left right shown).mono fun _ _ joined =>
    (makes.append one).trans joined.1

theorem expressionWithin_makes (scope : ScopeId) {rounds : Nat} (few : bound < rounds) :
    Reads ground bound place true (expressionWithin context scope rounds) fun expr =>
      Makes ground context [] place [expr] := by
  induction rounds generalizing bound place with
  | zero => exact absurd few (Nat.not_lt_zero _)
  | succ rounds ih =>
    refine .get fun origin light => ?_
    have operands (leading : Bool) : Ready ground context origin.weight place.scopes
        (operand context scope
          (Reading.below origin.weight (expressionWithin context scope rounds)) leading) := by
      intro later _
      exact operand_makes furnished scope leading fun less lighter deeper _ =>
        .below lighter (ih (by omega))
    refine .spend (operands true place rfl) fun first later makes => ?_
    exact chain_makes (operands false) makes

/-- Every expression that is read is proper, with numbers of its own. -/
theorem expression_makes (scope : ScopeId) :
    Reads ground bound place true (expression context scope) fun expr =>
      Makes ground context [] place [expr] :=
  .bounded fun weight => expressionWithin_makes furnished scope (Nat.lt_succ_self weight)

end Operands

end Reading

end Covenant
