import AmbientStubs.Proofs.Declaration.Levels

/-!
How deep the declarations of a package go.  Going into a block lengthens every path by at least a
dot, an entry without paths has no block, and a path with members is the path of an enclosing
scope; so the layout ends whatever the names and paths of a package are, and its depth is bounded
by the length of the longest path of an enclosing scope.
-/

namespace AmbientStubs.Package

variable {package : Package}

/-- One entry is laid out in the block of another. -/
def Inside (package : Package) (inner outer : Entry) : Prop :=
  package.hasBlock package.relocations outer = true ∧
    inner ∈ package.innerEntries package.relocations outer

/-- An entry is laid out with the given number of blocks around it. -/
inductive EntryAt (package : Package) : Nat → Entry → Prop where
  | moduleLevel {entry : Entry} (listed : entry ∈ package.moduleEntries) : EntryAt package 0 entry
  | inside {depth : Nat} {outer inner : Entry} (around : EntryAt package depth outer)
      (within : package.Inside inner outer) : EntryAt package (depth + 1) inner

theorem Entry.kinds_eq_nil {symbols : List Symbol} {owners : List String} {entry : Entry}
    (listed : entry ∈ withOwners (ofSymbols symbols) owners) :
    entry.paths = [] → entry.kinds = [] := by
  revert entry
  apply forall_mem_withOwners
  · exact fun symbol _ _ => rfl
  · exact fun owner _ _ => rfl
  · intro symbol _ entry _ _ noPath
    have known : symbol.qualifiedPath ∈ (entry.add symbol).paths := by simp
    rw [noPath] at known
    contradiction

theorem EntryAt.hasBlock_eq_false {depth : Nat} {entry : Entry}
    (reached : package.EntryAt depth entry) (bare : entry.paths = []) :
    package.hasBlock package.relocations entry = false := by
  have noKind : entry.kinds = [] := by
    cases reached with
    | moduleLevel listed => exact Entry.kinds_eq_nil listed bare
    | inside _ within => exact Entry.kinds_eq_nil within.2 bare
  simp [hasBlock, bare, noKind, hostedIn]

theorem EntryAt.le_length {depth : Nat} {entry : Entry} (reached : package.EntryAt depth entry) :
    ∀ path ∈ entry.paths, depth ≤ path.length := by
  induction reached with
  | moduleLevel _ => exact fun path _ => Nat.zero_le _
  | inside _ within inductionHypothesis =>
      exact length_lt_of_mem_innerEntries inductionHypothesis within.2

/-- An entry that stands for a symbol is at most one block deeper than the longest path of an
enclosing scope is long. -/
theorem EntryAt.depth_le_of_path {depth : Nat} {entry : Entry} {path : String}
    (reached : package.EntryAt depth entry) (known : path ∈ entry.paths) :
    depth ≤ package.longestParentPath + 1 := by
  cases reached with
  | moduleLevel _ => exact Nat.zero_le _
  | inside around within =>
      obtain ⟨symbol, member, -⟩ := (Entry.exists_symbol_of_mem within.2).1 path known
      exact Nat.succ_le_succ (length_le_of_member around.le_length (List.ne_nil_of_mem member))

theorem EntryAt.depth_le {depth : Nat} {entry : Entry} (reached : package.EntryAt depth entry) :
    depth ≤ package.longestParentPath + 2 := by
  cases reached with
  | moduleLevel _ => exact Nat.zero_le _
  | @inside depth outer inner around within =>
      -- The entry around has a block, so it stands for a symbol.
      have named : outer.paths ≠ [] := by
        intro bare
        have noBlock := around.hasBlock_eq_false bare
        rw [within.1] at noBlock
        contradiction
      obtain ⟨path, known⟩ := List.exists_mem_of_ne_nil _ named
      exact Nat.succ_le_succ (around.depth_le_of_path known)

/-- The longer the paths of an entry, the fewer blocks can follow one inside the other. -/
theorem acc_inside {remaining : Nat} {outer : Entry}
    (long : ∀ path ∈ outer.paths, package.longestParentPath + 1 ≤ path.length + remaining) :
    Acc package.Inside outer := by
  induction remaining generalizing outer with
  | zero =>
      have noMember : outer.paths.flatMap package.childrenOf = [] := by
        apply Classical.byContradiction
        intro members
        have bound := length_le_of_member long members
        omega
      refine .intro outer fun inner within => .intro inner fun deeper below => ?_
      have noBlock := hasBlock_of_noMember noMember within.2
      rw [below.1] at noBlock
      contradiction
  | succ remaining inductionHypothesis =>
      refine .intro outer fun inner within => inductionHypothesis fun path known => ?_
      obtain ⟨parent, above, rfl⟩ := exists_parent_of_mem_innerEntries within.2 path known
      have shorter := length_lt_append_dot parent inner.name
      have enough := long parent above
      omega

/-- The layout ends on every package.  No entry leads to an endless sequence of blocks one inside
the other, and laying out the module level ends with its declarations and nothing else; every path
of an entry inside a block is longer than the path of the outer entry that it extends, an entry
without paths has no block, and the depth of an entry exceeds the length of the longest path of an
enclosing scope by at most two. -/
theorem layout_ends_within_the_longest_path (package : Package) :
    WellFounded package.Inside ∧
    (∀ declarations, package.LaysOut package.relocations true package.moduleEntries
      package.moduleLevelOwners declarations ↔ declarations = package.moduleDeclarations) ∧
    (∀ inner outer, package.Inside inner outer → ∀ path ∈ inner.paths,
      ∃ parent ∈ outer.paths, path = parent ++ "." ++ inner.name ∧
        parent.length < path.length) ∧
    (∀ depth entry, package.EntryAt depth entry → entry.paths = [] →
      package.hasBlock package.relocations entry = false) ∧
    ∀ depth entry, package.EntryAt depth entry → depth ≤ package.longestParentPath + 2 := by
  refine ⟨⟨fun entry => ?_⟩, fun declarations => ⟨fun laidOut => ?_, ?_⟩, ?_, ?_, ?_⟩
  · exact acc_inside fun path _ => Nat.le_add_left _ _
  · exact laidOut.unique package.laysOut_moduleDeclarations
  · rintro rfl
    exact package.laysOut_moduleDeclarations
  · intro inner outer within path known
    obtain ⟨parent, above, rfl⟩ := exists_parent_of_mem_innerEntries within.2 path known
    exact ⟨parent, above, rfl, length_lt_append_dot parent inner.name⟩
  · exact fun depth entry reached => reached.hasBlock_eq_false
  · exact fun depth entry reached => reached.depth_le

end AmbientStubs.Package
