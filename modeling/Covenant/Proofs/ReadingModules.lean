import Covenant.Proofs.ReadingItems

/-!
# Reading modules

A module begins with a new outermost scope.  The NFTs of a token are read while
the scope of the token is open, and leave it alone.  All that reading ensures of
the modules of a program is said by `Program.Complete`.
-/

namespace Covenant

namespace Reading

variable {ground : Ground} {outside : Outside} {first draft : Draft} {start place : Place}
  {bound line : Nat} {name : String} {kind : Module.Kind} {root : ScopeId}

/-! ## NFTs -/

/-- A module has a new outermost scope. -/
structure Begins (root : ScopeId) (before after : Place) : Prop where
  new : before.scopes.scopes.length ≤ root
  nodes : after.nodes = before.nodes
  extended : before.scopes.Extends [] after.scopes
  present : root < after.scopes.scopes.length
  outermost : (after.scopes.scope root).parent = none

theorem rootScope_begins (name : String) :
    Reads ground bound place false (rootScope name) fun root later =>
      Begins root place later ∧ (later.scopes.scope root).variableIds = [] := by
  have new : (place.scopes.root name).2.scope place.scopes.scopes.length =
      { parent := none, moduleName := name } := by
    rw [ScopeTree.root, ScopeTree.scope_push, if_pos rfl]
  have opened : Reads ground bound place false (setScopes (place.scopes.root name).2)
      fun _ later => Begins place.scopes.scopes.length place later ∧
        (later.scopes.scope place.scopes.scopes.length).variableIds = [] :=
    .setScopes (.root name) rfl nofun trivial nofun fun made => ⟨⟨Nat.le_refl _, rfl, made.extends,
      by simp [ScopeTree.root, ScopeTree.push], congrArg Scope.parent new⟩,
      congrArg Scope.variableIds new⟩
  exact .scopes (opened.keep fun _ _ begins => .pure begins)

/-- The number of the token is identified from its declaration on. -/
theorem declareNft_begins (begins : Begins root start place) (shown : Shown ground line)
    {fields : List (String × Ty)}
    (known : ∀ entry ∈ fields, entry.1 = "_tokenID" ∨
      (Emission.tokenField? entry.1).isSome = true) :
    Reads ground bound place false (declareNft root line fields) fun _ later =>
      Begins root start later ∧ (place.scopes.Identifies root ∨ fields.head?.map Prod.fst =
        some "_tokenID" → later.scopes.Identifies root) := by
  induction fields generalizing place with
  | nil => exact .pure ⟨begins, by simp⟩
  | cons entry rest ih =>
    simp only [List.forall_mem_cons] at known
    have admitted : place.scopes.Admits root .nft := by
      simp [ScopeTree.Admits, begins.outermost]
    have declared : Reads ground bound place false
        (discard (declare root entry.1 entry.2 .nft none line)) fun _ later =>
          Begins root start later ∧ (place.scopes.Identifies root ∨ entry.1 = "_tokenID" →
            later.scopes.Identifies root) := by
      refine .discard ((declare_reads shown begins.present admitted fun _ => ?_).mono
        fun id later introduces => ?_)
      · exact ⟨fun types holds => (by cases holds), fun _ => known.1⟩
      · have extended := introduces.extended
        refine ⟨⟨begins.new, introduces.nodes.trans begins.nodes, ?_, ?_, ?_⟩, ?_⟩
        · refine begins.extended.trans extended fun scope member => .inr ?_
          rw [List.mem_singleton.mp member]
          exact begins.new
        · exact Nat.lt_of_lt_of_le begins.present extended.count
        · exact (extended.parent root begins.present).trans begins.outermost
        · rintro (before | isNumber)
          · exact extended.toGrows.identifies before
          · rcases introduces.known with ⟨known, declaration⟩
            exact ⟨id, known, by simp [introduces.listed], by rw [declaration],
              by rwa [declaration]⟩
    refine declared.keep fun _ later first => (ih first.1 known.2).mono fun _ last others => ?_
    refine ⟨others.1, fun either => others.2 (.inl (first.2 ?_))⟩
    simpa using either

/-- Modules have been read between two places. -/
structure Adds (modules : List Module) (before after : Place) : Prop where
  extended : before.scopes.Extends [] after.scopes
  le : before.nodes ≤ after.nodes
  uses : Numbered (modules.flatMap Module.nodes) before.nodes after.nodes

/-- A module that is finished is read together with its NFTs. -/
theorem Drafted.adds {before now : Place} {module : Module}
    (drafted : Drafted ground outside first start draft now) (begins : Begins root before start)
    (same : draft.scope = root) (finished : draft.finish = .ok module) :
    Adds (draft.nfts ++ [module]) before now := by
  have nodes : (draft.nfts ++ [module]).flatMap Module.nodes |>.Perm draft.nodes := by
    have own : module.nodes = draft.bodies.flatMap fun pair => pair.2.block.nodes := by
      rw [Module.nodes, drafted.routines finished, List.flatMap_map]
    simp [Draft.nodes, own, List.perm_append_comm]
  refine ⟨begins.extended.trans drafted.extended fun scope member => .inr ?_, ?_, ?_⟩
  · rw [List.mem_singleton.mp member, same]
    exact begins.new
  · rw [← begins.nodes]
    exact drafted.le
  · rw [← begins.nodes]
    exact drafted.uses.perm nodes.symm

theorem finish_blames {error : Error} (drafted : Drafted ground outside first start draft place)
    (failed : draft.finish = .error error) : Blames ground error := by
  cases kind : draft.kind <;>
    simp only [Draft.finish, Draft.content, kind, Draft.body] at failed
  case script | description =>
    split at failed <;> cases failed
    exact ⟨rfl, drafted.shown⟩
  case nft =>
    rcases Option.isSome_iff_exists.mp (drafted.nftTypes kind) with ⟨types, typed⟩
    rw [typed] at failed
    cases failed
  all_goals cases failed

/-- An NFT of a token is read while the scope of the token is open. -/
theorem nft_reads (described : outside.Described)
    (drafted : Drafted ground outside first start draft place) (shown : Shown ground line) :
    Reads ground bound place true (nft outside draft line) fun module later =>
      Adds [module] place later ∧ Promised later.scopes (module.Finished ground outside.declared) ∧
        module.name ∉ draft.moduleNames := by
  refine .take .identifier fun name _ => .take (.operator _) fun _ _ => ?_
  refine .take (writtenType_passes _) fun rom _ => .take (.separator _) fun _ _ => ?_
  refine .take (writtenType_passes _) fun ram _ => .take .closeAngle fun _ _ => ?_
  split
  · exact .failFirst ⟨rfl, shown⟩
  · rename_i new
    refine .keep (rootScope_begins _) fun root opened ⟨begins, _⟩ => ?_
    have known : ∀ entry ∈ nftVariables ⟨rom, ram, draft.name⟩, entry.1 = "_tokenID" ∨
        (Emission.tokenField? entry.1).isSome = true := by
      simp [nftVariables, Emission.tokenField?]
    refine .keep (declareNft_begins begins shown known) fun _ entered ⟨begins, identified⟩ => ?_
    refine .take (.separator _) fun _ _ => ?_
    have started : Drafted ground outside _ entered (Draft.start outside name.value .nft root line
        (some ⟨rom, ram, draft.name⟩) draft.moduleNames) entered :=
      .initial begins.present begins.outermost (by simp [Module.Kind.isScript])
        (fun _ => identified (.inr rfl)) shown drafted.apart _ _ fun _ => rfl
    refine .keep (items_reads (fun _ _ => item_drafts described) started)
      fun last later read => ?_
    refine .of_passes (.result fun _ => finish_blames read) fun module finished => ?_
    have adds := read.adds begins read.scope finished
    rw [read.childless read.kind] at adds
    refine ⟨adds, fun opened tree outermost => read.finish finished ?_ outermost, ?_⟩
    · rw [read.kind]
      simp [Draft.start, Module.Kind.isScript]
    · rcases finish_content finished with ⟨content, -, rfl⟩
      have named : last.name = name.value := read.name
      rw [named]
      simpa using new

theorem tokenItem_drafts (described : outside.Described) (isToken : draft.kind ≠ .nft)
    (drafted : Drafted ground outside first start draft place) :
    Reads ground bound place true (tokenItem outside draft)
      (Drafted ground outside first start) := by
  refine .pass (.check _ _) fun found _ => ?_
  split
  · refine .take .fetch fun keyword shown => ?_
    refine .spend (nft_reads described drafted shown) fun module later ⟨adds, promised, new⟩ => ?_
    have kept := drafted.aside adds.extended adds.le
    have apart : (draft.moduleNames ++ [module.name]).Nodup := by
      refine List.nodup_append.mpr ⟨kept.apart, by simp, ?_⟩
      rintro listed member other alone rfl
      rw [List.mem_singleton.mp alone] at member
      exact new member
    have nodes : (draft.nodes ++ [module].flatMap Module.nodes).Perm
        (draft.addNft module).nodes := by
      simp [Draft.nodes, Draft.addNft, Draft.bodies]
    exact .pure { kept with
      uses := (drafted.uses.append adds.uses drafted.le adds.le).perm nodes
      usable := by simp [Draft.addNft, kept.usable]
      apart := apart
      childless := fun isNft => absurd isNft isToken
      nfts := List.forall_mem_append.mpr ⟨kept.nfts, List.forall_mem_singleton.mpr promised⟩ }
  · exact item_drafts described drafted

/-! ## Modules -/

/-- What holds of the modules that have been read, at some place behind them. -/
structure Progress.Complete (ground : Ground) (progress : Progress) (now : Place) : Prop where
  modules : ∀ tree, now.scopes.Extends [] tree → tree.WellFormed → ∀ top ∈ progress.modules,
    ∀ module ∈ top.inOrder, module.Finished ground progress.declared tree
  described : ∀ top ∈ progress.modules, describes top.content
  nfts : ∀ top ∈ progress.modules, top.nftNames.Nodup
  ordered : progress.modules.Pairwise TopModule.NamedAfter
  uses : Numbered (progress.modules.flatMap fun top => top.inOrder.flatMap Module.nodes) 0 now.nodes

/-- What a new module must be like. -/
structure TopModule.Joins (ground : Ground) (outside : Outside) (top : TopModule)
    (before after : Place) : Prop where
  adds : Adds top.inOrder before after
  finished : ∀ tree, after.scopes.Extends [] tree → tree.WellFormed → ∀ module ∈ top.inOrder,
    module.Finished ground outside.declared tree
  described : describes top.content
  names : (outside.finished.map (fun other => other.name) ++ top.nftNames).Nodup
  new : top.name ∉ outside.finished.map fun other => other.name

theorem itemOf_drafts (described : outside.Described) (alone : first.kind ≠ .nft)
    (kind : Module.Kind) (drafted : Drafted ground outside first start draft place) :
    Reads ground bound place true (itemOf outside kind draft)
      (Drafted ground outside first start) := by
  unfold itemOf
  split
  · exact tokenItem_drafts described (drafted.kind ▸ alone) drafted
  · exact item_drafts described drafted

theorem topModule_joins (described : outside.Described) (alone : kind ≠ .nft)
    (apart : (outside.finished.map fun other => other.name).Nodup) :
    Reads ground bound place true (topModule outside kind) fun top =>
      TopModule.Joins ground outside top place := by
  refine .take .fetch fun token shown => .take .identifier fun name _ => ?_
  simp only
  split
  · exact .failFirst ⟨rfl, shown⟩
  · rename_i new
    refine .keep (rootScope_begins _) fun root entered ⟨begins, empty⟩ => ?_
    refine .take (.separator _) fun _ _ => ?_
    have started : Drafted ground outside _ entered (Draft.start outside name.value kind root
        token.line none (outside.finished.map fun top => top.name)) entered :=
      .initial begins.present begins.outermost (fun _ => empty)
        (fun isNft => absurd isNft alone) shown apart _ _ fun isNft => absurd isNft alone
    refine .keep (items_reads (fun _ _ => itemOf_drafts described alone kind) started)
      fun last later read => ?_
    refine .pass (.result fun _ => finish_blames read) fun module finished => .pure ?_
    refine ⟨read.adds begins read.scope finished, fun tree further treeFormed => ?_, ?_, ?_, ?_⟩
    · refine List.forall_mem_append.mpr ⟨fun nft member => ?_, List.forall_mem_singleton.mpr ?_⟩
      · exact read.nfts nft member [] tree (by simp) further treeFormed
      · exact read.finish finished (by simp) (by simp) further treeFormed
    · exact read.describes finished
    · exact read.usable ▸ read.apart
    · rcases finish_content finished with ⟨content, -, rfl⟩
      have named : last.name = name.value := read.name
      rw [named]
      simpa using new

theorem ofKeyword?_ne {keyword : String} (named : Module.Kind.ofKeyword? keyword = some kind) :
    kind ≠ .nft := by
  unfold Module.Kind.ofKeyword? at named
  split at named <;> cases named <;> nofun

variable {progress : Progress}

/-- A struct or an enum is declared behind others. -/
theorem Progress.Complete.declare (complete : progress.Complete ground place) {declared : Declared}
    (structs : progress.declared.structs <+: declared.structs) :
    Progress.Complete ground { progress with declared } place :=
  { complete with
    modules := fun tree further formed top among module listed =>
      have finished := complete.modules tree further formed top among module listed
      { finished with typed := finished.typed.grow structs List.prefix_rfl } }

/-- No two modules have the same name. -/
theorem Progress.Complete.apart (complete : progress.Complete ground place) :
    (progress.modules.map fun top => top.name).Nodup :=
  List.pairwise_map.mpr (complete.ordered.imp And.left)

theorem Progress.Complete.join {interface? : String → Option Interface} {top : TopModule}
    {later : Place} (complete : progress.Complete ground place)
    (joins : TopModule.Joins ground ⟨progress.declared, progress.modules, interface?⟩
      top place later) :
    Progress.Complete ground { progress with modules := progress.modules ++ [top] } later where
  modules tree further formed := by
    refine List.forall_mem_append.mpr ⟨?_, List.forall_mem_singleton.mpr ?_⟩
    · exact complete.modules tree (joins.adds.extended.trans further (by simp)) formed
    · exact joins.finished tree further formed
  described := List.forall_mem_append.mpr
    ⟨complete.described, List.forall_mem_singleton.mpr joins.described⟩
  nfts := List.forall_mem_append.mpr
    ⟨complete.nfts, List.forall_mem_singleton.mpr (List.nodup_append.mp joins.names).2.1⟩
  ordered := by
    refine List.pairwise_append.mpr ⟨complete.ordered, List.pairwise_singleton _ _, ?_⟩
    intro earlier among other alone
    rw [List.mem_singleton.mp alone]
    have listed := List.mem_map_of_mem (f := fun top : TopModule => top.name) among
    refine ⟨fun same => joins.new (same ▸ listed), fun inside => ?_⟩
    exact (List.nodup_append.mp joins.names).2.2 _ listed _ inside rfl
  uses := by
    rw [List.flatMap_append, List.flatMap_singleton]
    exact complete.uses.append joins.adds.uses (Nat.zero_le _) joins.adds.le

theorem declaration_completes (interface? : String → Option Interface)
    (complete : progress.Complete ground place) :
    Reads ground bound place true (declaration interface? progress) fun next =>
      next.Complete ground := by
  refine .current fun token before shown _ here light => ?_
  simp only
  split
  · exact .fail ⟨rfl, shown⟩
  · split
    · refine Reads.take (structDeclaration_passes _) (fun declared structs => ?_) before here light
      exact .pure (complete.declare structs)
    · split
      · refine Reads.take (enumDeclaration_passes _) (fun declared structs => ?_) before here light
        exact .pure (complete.declare structs)
      · split
        · exact .fail ⟨rfl, shown⟩
        · rename_i kind named
          have described : Outside.Described ⟨progress.declared, progress.modules, interface?⟩ :=
            complete.described
          refine Reads.spend (topModule_joins described (ofKeyword?_ne named) complete.apart)
            (fun top later joins => ?_) before here light
          exact .pure (complete.join joins)

end Reading

/-! ## Programs -/

/-- What is known of a program that has been read from tokens. -/
structure Program.Complete (tokens : List Token) (program : Program) : Prop where
  sane : program.scopes.Sane
  reached : ScopeTree.Reached ScopeTree.Operation.Customary {} program.scopes
  formed : program.scopes.WellFormed
  modules : ∀ top ∈ program.modules, ∀ module ∈ top.inOrder,
    module.Finished { tokens } program.declared program.scopes
  nfts : ∀ top ∈ program.modules, top.nftNames.Nodup
  ordered : program.modules.Pairwise TopModule.NamedAfter
  uses : ∃ last, Reading.Numbered
    (program.modules.flatMap fun top => top.inOrder.flatMap Module.nodes) 0 last
  declared : ∀ declaration ∈ program.scopes.declarations,
    Reading.Shown { tokens } declaration.line

open Reading in
/-- Reading ends with a complete program, a fault of the source, or past the limit of an enum. -/
theorem ofTokens_fair (interface? : String → Option Interface) (tokens : List Token) :
    (∀ failure, Program.ofTokens interface? tokens = .error failure →
      Fairly { tokens } failure) ∧
    ∀ program, Program.ofTokens interface? tokens = .ok program → program.Complete tokens := by
  have last : Shown { tokens } (State.start tokens).lastLine := by
    cases found : tokens.getLast? with
    | none => exact .inl (List.getLast?_eq_none_iff.mp found)
    | some token => exact .inr ⟨token, List.mem_of_getLast? found, by simp [State.start, found]⟩
  have sound : (State.start tokens).Sound { tokens } :=
    ⟨id, id, fun token member => .inr ⟨token, member, rfl⟩, last,
      (ScopeTree.Orderly.empty.sane (by simp)).recorded, .start, by simp [State.start]⟩
  have empty : Progress.Complete { tokens } {} (State.start tokens).place :=
    ⟨by simp, by simp, by simp, .nil, by simp [Numbered, Node.count]⟩
  have ends : Passes { tokens } false atEnd fun _ => True :=
    .of_reads fun _ _ => .get fun _ _ => .pure ⟨rfl, trivial⟩
  have reads : Reads { tokens } (State.start tokens).weight (State.start tokens).place false
      (source interface?) fun progress => progress.Complete { tokens } :=
    .iterate ends (fun _ _ => declaration_completes interface?) empty
  rcases reads _ rfl (Nat.le_refl _) sound with ⟨failing, succeeding⟩
  unfold Program.ofTokens
  cases ran : (source interface?).run (.start tokens) with
  | error failure =>
    refine ⟨fun other failed => ?_, fun program read => by cases read⟩
    cases failed
    exact failing failure ran
  | ok pair =>
    refine ⟨fun failure failed => (by cases failed), fun program read => ?_⟩
    cases read
    rcases succeeding pair.1 pair.2 ran with ⟨moves, complete⟩
    have reached := moves.sound.reached
    exact ⟨reached.orderly.sane fun declaration member => (reached.declared declaration member).2,
      reached.customary, reached.wellFormed,
      complete.modules _ (.refl _ _) reached.wellFormed, complete.nfts, complete.ordered,
      ⟨_, complete.uses⟩,
      fun declaration member => (moves.sound.declared declaration member).resolve_left
        List.not_mem_nil⟩

section Read

variable {interface? : String → Option Interface} {source : String} {program : Program}

theorem read_complete (read : Program.read interface? source = .ok program) :
    program.Complete (Token.scan source) :=
  (ofTokens_fair interface? (Token.scan source)).2 program read

/-- The modules of a program that has been read fit into its scopes. -/
theorem read_sited (read : Program.read interface? source = .ok program) :
    program.scopes.WellFormed ∧
      ∀ top ∈ program.modules, ∀ module ∈ top.inOrder, module.Sited program.scopes :=
  ⟨(read_complete read).formed, fun top among module listed =>
    ((read_complete read).modules top among module listed).sited⟩

/-- The modules of a program that has been read are well typed. -/
theorem read_typed (read : Program.read interface? source = .ok program) :
    ∀ top ∈ program.modules, ∀ module ∈ top.inOrder,
      module.WellTyped program.declared program.scopes.declarations :=
  fun top among module listed => ((read_complete read).modules top among module listed).typed

/-- What reading ensures of the bodies and of the names of all modules. -/
theorem read_composed (read : Program.read interface? source = .ok program) :
    (∀ top ∈ program.modules, ∀ module ∈ top.inOrder, module.Composed) ∧
      (∀ top ∈ program.modules, top.nftNames.Nodup) ∧
      program.modules.Pairwise TopModule.NamedAfter :=
  ⟨fun top among module listed => ((read_complete read).modules top among module listed).composed,
    (read_complete read).nfts, (read_complete read).ordered⟩

end Read

end Covenant
