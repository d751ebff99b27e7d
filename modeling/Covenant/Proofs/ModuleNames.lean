import Covenant.Proofs.Bodies
import Mathlib.Data.List.Nodup

/-!
# Names of modules

A module is looked up by its name.  A source is refused if a module has the
name of an earlier one, or if an NFT has the name of an earlier module or of
an earlier NFT of its token.  An NFT is not compared with its own token, with
the modules behind its token, or with the NFTs of other tokens: the names of a
program identify its modules exactly if none of these clash.
-/

namespace Covenant

variable {program : Program} {top : TopModule}

namespace Program

/-- The modules of a program and the NFTs inside them. -/
def allModules (program : Program) : List Module :=
  program.modules.flatMap TopModule.inOrder

/-- No NFT shares its name with its own token, a later module or an NFT of another token. -/
structure NftsApart (program : Program) : Prop where
  own : ∀ top ∈ program.modules, top.name ∉ top.nftNames
  later : program.modules.Pairwise fun earlier later => later.name ∉ earlier.nftNames
  others : program.modules.Pairwise fun earlier later =>
    earlier.nftNames.Disjoint later.nftNames

theorem names_allModules (program : Program) :
    program.allModules.map Module.name =
      program.modules.flatMap fun top => top.nftNames ++ [top.name] := by
  simp [allModules, TopModule.inOrder, TopModule.nftNames, List.map_flatMap]

end Program

namespace TopModule

/-- Two modules behind each other share no name. -/
theorem disjoint_names_iff {earlier later : TopModule} (named : earlier.NamedAfter later) :
    (earlier.nftNames ++ [earlier.name]).Disjoint (later.nftNames ++ [later.name]) ↔
      later.name ∉ earlier.nftNames ∧ earlier.nftNames.Disjoint later.nftNames := by
  rcases named with ⟨different, unused⟩
  simp only [List.disjoint_append_left, List.disjoint_append_right, List.disjoint_singleton,
    List.singleton_disjoint, List.mem_append, List.mem_singleton, not_or]
  constructor
  · rintro ⟨⟨nfts, -⟩, unlike, -⟩
    exact ⟨unlike, nfts⟩
  · rintro ⟨unlike, nfts⟩
    exact ⟨⟨nfts, unused⟩, unlike, different.symm⟩

/-- A module and its NFTs have different names if the NFTs have, and none that of the module. -/
theorem nodup_names_iff (apart : top.nftNames.Nodup) :
    (top.nftNames ++ [top.name]).Nodup ↔ top.name ∉ top.nftNames := by
  rw [List.nodup_append_comm]
  simp [apart]

end TopModule

/-- The names are different exactly if no two of those clash that reading does not compare. -/
theorem nodup_names_iff_nftsApart (nfts : ∀ top ∈ program.modules, top.nftNames.Nodup)
    (ordered : program.modules.Pairwise TopModule.NamedAfter) :
    (program.allModules.map Module.name).Nodup ↔ program.NftsApart := by
  rw [Program.names_allModules, List.nodup_flatMap]
  have inside : (∀ top ∈ program.modules, (top.nftNames ++ [top.name]).Nodup) ↔
      ∀ top ∈ program.modules, top.name ∉ top.nftNames :=
    forall₂_congr fun top member => TopModule.nodup_names_iff (nfts top member)
  rw [inside]
  constructor
  · rintro ⟨own, between⟩
    have parts := ordered.imp₂ (fun _ _ named => (TopModule.disjoint_names_iff named).mp) between
    exact ⟨own, parts.imp fun found => found.1, parts.imp fun found => found.2⟩
  · rintro ⟨own, later, others⟩
    refine ⟨own, ?_⟩
    have parts := later.and others
    exact ordered.imp₂ (fun _ _ named => (TopModule.disjoint_names_iff named).mpr) parts

/-! ## Looking a module up -/

namespace TopModule

/-- What a program looks up in one of its modules. -/
abbrev search (top : TopModule) (name : String) : Option Module :=
  if top.name = name then some top.toModule else top.nfts.find? fun nft => nft.name == name

theorem search_eq_none {name : String} (unused : name ∉ top.inOrder.map Module.name) :
    top.search name = none := by
  simp only [inOrder, List.map_append, List.mem_append, not_or] at unused
  have different : top.name ≠ name := by simpa using Ne.symm (by simpa using unused.2)
  rw [search, if_neg different, List.find?_eq_none]
  intro nft member same
  exact unused.1 (List.mem_map.mpr ⟨nft, member, by simpa using same⟩)

theorem search_eq_some {module : Module} (apart : (top.inOrder.map Module.name).Nodup)
    (listed : module ∈ top.inOrder) : top.search module.name = some module := by
  rw [inOrder, List.map_append, List.nodup_append] at apart
  rcases List.mem_append.mp listed with inside | itself
  · have different : top.name ≠ module.name :=
      (apart.2.2 _ (List.mem_map_of_mem inside) _ (by simp)).symm
    rw [search, if_neg different, List.find?_eq_some_iff_append]
    rcases List.append_of_mem inside with ⟨before, behind, split⟩
    refine ⟨by simp, before, behind, split, ?_⟩
    intro nft member
    have nfts := apart.1
    rw [split, List.map_append, List.nodup_append] at nfts
    have unlike := nfts.2.2 _ (List.mem_map_of_mem member) module.name (by simp)
    simpa using unlike
  · rw [List.mem_singleton.mp itself, search, if_pos rfl]

end TopModule

/-- Where all names are different, the name of a module leads to it. -/
theorem Program.module?_of_nodup (apart : (program.allModules.map Module.name).Nodup)
    {module : Module} (listed : module ∈ program.allModules) :
    program.module? module.name = some module := by
  rcases List.mem_flatMap.mp listed with ⟨top, member, inside⟩
  rcases List.append_of_mem member with ⟨before, behind, split⟩
  simp only [allModules, split, List.flatMap_append, List.flatMap_cons, List.map_append,
    List.nodup_append] at apart
  rcases apart with ⟨-, ⟨own, -⟩, between⟩
  refine List.findSome?_eq_some_iff.mpr ⟨before, top, behind, split, ?_, ?_⟩
  · exact TopModule.search_eq_some own inside
  · intro earlier among
    refine TopModule.search_eq_none fun used => ?_
    have first : module.name ∈ (before.flatMap TopModule.inOrder).map Module.name := by
      rw [List.map_flatMap]
      exact List.mem_flatMap.mpr ⟨earlier, among, used⟩
    exact between _ first _ (List.mem_append_left _ (List.mem_map_of_mem inside)) rfl

/-! ## Programs that are read -/

/--
The names of a program that has been read identify its modules exactly if no
NFT is called as its token, as a later module or as an NFT of another token;
a name then leads to its module.
-/
theorem moduleNames_nodup_iff {interface? : String → Option Interface} {source : String}
    {program : Program} (accepted : Program.read interface? source = .ok program) :
    ((program.allModules.map Module.name).Nodup ↔ program.NftsApart) ∧
      (program.NftsApart → ∀ module ∈ program.allModules,
        program.module? module.name = some module) := by
  rcases read_composed accepted with ⟨-, nfts, ordered⟩
  have distinct := nodup_names_iff_nftsApart nfts ordered
  exact ⟨distinct, fun apart module listed =>
    Program.module?_of_nodup (distinct.mpr apart) listed⟩

/-- A source with two tokens, whose NFTs have the given names. -/
def twoTokens (first second : String) : List String :=
  ["token A \x7b nft ", first, "<number, number> \x7b \x7d \x7d ",
   "token B \x7b nft ", second, "<number, number> \x7b \x7d \x7d "]

theorem moduleNames_nodup_iff_twoTokens :
    ∃ program, Program.read (fun _ => none) (String.join (twoTokens "coin" "badge")) =
        .ok program ∧ program.NftsApart ∧
      ∀ module ∈ program.allModules, program.module? module.name = some module := by
  have holds : Program.reads (twoTokens "coin" "badge") (fun program =>
      program.allModules.map Module.name = ["coin", "A", "badge", "B"]) = true := by
    decide +kernel
  rcases exists_read holds with ⟨program, accepted, names⟩
  have result := moduleNames_nodup_iff accepted
  have apart : program.NftsApart := by
    rw [← result.1, of_decide_eq_true names]
    decide
  exact ⟨program, accepted, apart, result.2 apart⟩

/-- Two tokens can have NFTs with the same name. -/
theorem moduleNames_clash_sameNft :
    ∃ program, Program.read (fun _ => none) (String.join (twoTokens "item" "item")) =
        .ok program ∧ ¬ (program.allModules.map Module.name).Nodup := by
  have holds : Program.reads (twoTokens "item" "item") (fun program =>
      program.allModules.map Module.name = ["item", "A", "item", "B"]) = true := by
    decide +kernel
  rcases exists_read holds with ⟨program, accepted, names⟩
  refine ⟨program, accepted, ?_⟩
  rw [of_decide_eq_true names]
  decide

end Covenant
