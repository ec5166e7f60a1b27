import AmbientStubs.Proofs.Declaration.Paths
import Mathlib.Data.List.Basic

/-!
The number of levels that are laid out.  An entry with members has a path that is no longer than
the longest path of an enclosing scope, its members have longer paths, and below an entry without
members nothing has a block; so beyond the bound the number of levels makes no difference, and the
layout is the one that goes on until no entry has a block.
-/

namespace AmbientStubs.Package

variable {package : Package} {relocations : List Relocation} {atModuleLevel : Bool}
  {entries : List Entry} {owners : List String}

/-- Laying out some entries ends with some declarations.  The number of levels is not bounded:
every block is laid out inside, entry by entry, as long as there are blocks. -/
inductive LaysOut (package : Package) (relocations : List Relocation) :
    Bool → List Entry → List String → List Declaration → Prop where
  | nil {atModuleLevel : Bool} {owners : List String} :
      LaysOut package relocations atModuleLevel [] owners []
  | plain {atModuleLevel : Bool} {owners : List String} {entry : Entry} {rest : List Entry}
      {declarations : List Declaration}
      (noBlock : package.hasBlock relocations entry = false)
      (others : LaysOut package relocations atModuleLevel rest owners declarations) :
      LaysOut package relocations atModuleLevel (entry :: rest) owners
        (package.plainDeclarations relocations atModuleLevel owners entry ++ declarations)
  | block {atModuleLevel : Bool} {owners : List String} {entry : Entry} {rest : List Entry}
      {members declarations : List Declaration}
      (hasBlock : package.hasBlock relocations entry = true)
      (inside : LaysOut package relocations false (package.innerEntries relocations entry)
        (hostedIn relocations entry.paths) members)
      (others : LaysOut package relocations atModuleLevel rest owners declarations) :
      LaysOut package relocations atModuleLevel (entry :: rest) owners
        (package.plainDeclarations relocations atModuleLevel owners entry ++
          .namespaceBlock entry.name members :: declarations)

theorem LaysOut.unique {first second : List Declaration}
    (laidOut : package.LaysOut relocations atModuleLevel entries owners first)
    (again : package.LaysOut relocations atModuleLevel entries owners second) :
    first = second := by
  induction laidOut generalizing second with
  | nil =>
      cases again
      rfl
  | plain noBlock _ inductionHypothesis =>
      cases again with
      | plain _ others => rw [inductionHypothesis others]
      | block hasBlock _ _ => rw [noBlock] at hasBlock; contradiction
  | block hasBlock _ _ insideHypothesis othersHypothesis =>
      cases again with
      | plain noBlock _ => rw [noBlock] at hasBlock; contradiction
      | block _ inside others => rw [insideHypothesis inside, othersHypothesis others]

/-- One more level is enough if the levels below are enough for every block. -/
theorem laysOut_succ {levels : Nat}
    (inside : ∀ entry ∈ entries, package.hasBlock relocations entry = true →
      package.LaysOut relocations false (package.innerEntries relocations entry)
        (hostedIn relocations entry.paths)
        (package.scopeDeclarations relocations levels false
          (package.innerEntries relocations entry) (hostedIn relocations entry.paths))) :
    package.LaysOut relocations atModuleLevel entries owners
      (package.scopeDeclarations relocations (levels + 1) atModuleLevel entries owners) := by
  rw [scopeDeclarations_succ]
  induction entries with
  | nil => exact .nil
  | cons entry rest inductionHypothesis =>
      rw [List.forall_mem_cons] at inside
      have others := inductionHypothesis inside.2
      rw [List.flatMap_cons, group, List.append_assoc, blockOf]
      cases block : package.hasBlock relocations entry with
      | false => exact .plain block others
      | true => exact .block block (inside.1 block) others

theorem hasBlock_of_noMember {entry inner : Entry}
    (noMember : entry.paths.flatMap package.childrenOf = [])
    (listed : inner ∈ package.innerEntries relocations entry) :
    package.hasBlock relocations inner = false := by
  rw [innerEntries, noMember] at listed
  have provenance := Entry.exists_symbol_of_mem listed
  have noPaths : inner.paths = [] := by
    rw [List.eq_nil_iff_forall_not_mem]
    intro path known
    obtain ⟨symbol, absent, -⟩ := provenance.1 path known
    simp at absent
  have noKinds : inner.kinds = [] := by
    rw [List.eq_nil_iff_forall_not_mem]
    intro kind known
    obtain ⟨symbol, absent, -⟩ := provenance.2 kind known
    simp at absent
  simp [hasBlock, noPaths, noKinds, hostedIn]

theorem exists_parent_of_mem_innerEntries {entry inner : Entry}
    (listed : inner ∈ package.innerEntries relocations entry) :
    ∀ path ∈ inner.paths, ∃ parent ∈ entry.paths, path = parent ++ "." ++ inner.name := by
  intro path known
  obtain ⟨symbol, membership, named, rfl⟩ := (Entry.exists_symbol_of_mem listed).1 path known
  obtain ⟨parent, above, child⟩ := List.mem_flatMap.mp membership
  have inside := (List.mem_filter.mp child).2
  rw [beq_iff_eq] at inside
  exact ⟨parent, above, by rw [Symbol.qualifiedPath, inside, named]⟩

theorem length_lt_append_dot (parent name : String) :
    parent.length < (parent ++ "." ++ name).length := by
  have dot : ".".length = 1 := rfl
  rw [String.length_append, String.length_append, dot]
  omega

theorem length_lt_of_mem_innerEntries {entry inner : Entry} {length : Nat}
    (long : ∀ path ∈ entry.paths, length ≤ path.length)
    (listed : inner ∈ package.innerEntries relocations entry) :
    ∀ path ∈ inner.paths, length + 1 ≤ path.length := by
  intro path known
  obtain ⟨parent, above, rfl⟩ := exists_parent_of_mem_innerEntries listed path known
  exact Nat.lt_of_le_of_lt (long parent above) (length_lt_append_dot parent inner.name)

theorem length_le_of_member {entry : Entry} {length : Nat}
    (long : ∀ path ∈ entry.paths, length ≤ path.length)
    (members : entry.paths.flatMap package.childrenOf ≠ []) :
    length ≤ package.longestParentPath := by
  obtain ⟨symbol, member⟩ := List.exists_mem_of_ne_nil _ members
  obtain ⟨parent, above, child⟩ := List.mem_flatMap.mp member
  obtain ⟨present, inParent⟩ := List.mem_filter.mp child
  exact Nat.le_trans (long parent above)
    (length_le_longestParentPath present (beq_iff_eq.mp inParent))

/-- The shorter the paths of a scope, the more levels it needs. -/
theorem laysOut_of_enough {levels length : Nat}
    (long : ∀ entry ∈ entries, ∀ path ∈ entry.paths, length ≤ path.length)
    (short : length ≤ package.longestParentPath + 1)
    (enough : package.longestParentPath + 3 ≤ levels + length) :
    package.LaysOut relocations atModuleLevel entries owners
      (package.scopeDeclarations relocations levels atModuleLevel entries owners) := by
  induction levels generalizing length atModuleLevel entries owners with
  | zero => omega
  | succ levels inductionHypothesis =>
      apply laysOut_succ
      intro entry listed _
      by_cases noMember : entry.paths.flatMap package.childrenOf = []
      · -- The paths may be at their longest here; what is inside needs one level and has no block.
        obtain ⟨fewer, rfl⟩ : ∃ fewer, levels = fewer + 1 := ⟨levels - 1, by omega⟩
        apply laysOut_succ
        intro inner membership block
        rw [hasBlock_of_noMember noMember membership] at block
        contradiction
      · have bound := length_le_of_member (long entry listed) noMember
        have longMembers : ∀ inner ∈ package.innerEntries relocations entry,
            ∀ path ∈ inner.paths, length + 1 ≤ path.length := by
          intro inner membership
          exact length_lt_of_mem_innerEntries (long entry listed) membership
        exact inductionHypothesis longMembers (by omega) (by omega)

theorem laysOut_moduleEntries {levels : Nat} (enough : package.levelBound ≤ levels) :
    package.LaysOut package.relocations true package.moduleEntries package.moduleLevelOwners
      (package.scopeDeclarations package.relocations levels true package.moduleEntries
        package.moduleLevelOwners) := by
  unfold levelBound at enough
  have long : ∀ entry ∈ package.moduleEntries, ∀ path ∈ entry.paths, 0 ≤ path.length := by
    intro entry _ path _
    exact Nat.zero_le _
  exact laysOut_of_enough long (by omega) (by omega)

/-- The layout of the module level is complete: no block is left out for want of levels. -/
theorem laysOut_moduleDeclarations (package : Package) :
    package.LaysOut package.relocations true package.moduleEntries package.moduleLevelOwners
      package.moduleDeclarations :=
  laysOut_moduleEntries (Nat.le_refl _)

/-- Any number of levels from the bound on lays out the module level. -/
theorem moduleDeclarations_eq_of_le {levels : Nat} (enough : package.levelBound ≤ levels) :
    package.moduleDeclarations = package.scopeDeclarations package.relocations levels true
      package.moduleEntries package.moduleLevelOwners :=
  package.laysOut_moduleDeclarations.unique (laysOut_moduleEntries enough)

end AmbientStubs.Package
