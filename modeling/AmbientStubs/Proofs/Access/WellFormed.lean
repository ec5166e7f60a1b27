import AmbientStubs.Proofs.SourceSummary

/-!
What later stages may rely on in the accesses of a source text: their paths are complete, their
base is bound by an import of the same file, and the class of a static call is known, has the form
of a class name and is reached through no reserved segment.
-/

namespace AmbientStubs

open Text

/-- An ASCII capital, and then ASCII letters and digits. -/
def Text.IsClassName (name : String) : Prop :=
  ∃ first rest, name.toList = first :: rest ∧ isAsciiUpper first = true ∧
    ∀ character ∈ rest, isAsciiAlphanumeric character = true

theorem Text.isClassName_ofList {name : List Char} (named : Chain.isClassName name = true) :
    IsClassName (String.ofList name) := by
  cases name with
  | nil => simp [Chain.isClassName] at named
  | cons first rest =>
      rw [Chain.isClassName, Bool.and_eq_true, List.all_eq_true] at named
      exact ⟨first, rest, by simp, named.1, named.2⟩

/-- The accesses that a file with the given imports may hold. -/
structure Access.WellFormed (reserved : List String) (imports : List Import) (access : Access) :
    Prop where
  twoSegments : 2 ≤ access.segments.length
  noneEmpty : "" ∉ access.segments
  first : access.segments.head? = some access.base
  last : access.segments.getLast? = some access.member
  bound : ∃ imported ∈ imports, imported.binds access.base = true
  className_iff : access.className.isSome = true ↔ access.context = .staticCall
  owner : ∀ className, access.className = some className → ∃ between,
    access.segments = access.base :: (between ++ [className, access.member]) ∧
      IsClassName className ∧ ∀ segment ∈ between, segment ∉ reserved

namespace Chain

theorem wellFormed_access {reserved : List String} {imports : List Import} {chain : Chain}
    (legible : chain.Legible)
    (bound : ∃ imported ∈ imports, imported.binds (chain.access reserved).base = true) :
    (chain.access reserved).WellFormed reserved imports := by
  have access := legible_access reserved legible
  obtain ⟨way, segments⟩ := access.segments
  refine ⟨?_, ?_, ?_, ?_, bound, ⟨?_, ?_⟩, ?_⟩
  · simp [segments]
  · intro empty
    exact (access.identifiers "" empty).1 rfl
  · rw [segments, List.head?_cons]
  · rw [segments, ← List.cons_append, List.getLast?_concat]
  · intro named
    obtain ⟨className, named⟩ := Option.isSome_iff_exists.mp named
    exact context_access reserved chain named
  · intro isStatic
    obtain ⟨owner, -, named⟩ := className_access reserved chain isStatic
    rw [named, Option.isSome_some]
  · intro className named
    obtain ⟨owner, found, sameName⟩ :=
      className_access reserved chain (context_access reserved chain named)
    obtain rfl : String.ofList owner = className := Option.some.inj (sameName.symm.trans named)
    obtain ⟨between, member, members, hasForm, free⟩ := owner?_eq_some found
    refine ⟨between.map String.ofList, ?_, isClassName_ofList hasForm, ?_⟩
    · rw [segments_access reserved legible, base_access, member_access, Chain.segments, members]
      simp
    · intro segment inside
      obtain ⟨characters, listed, rfl⟩ := List.mem_map.mp inside
      exact free characters listed

end Chain

namespace Access

theorem WellFormed.of_subset {reserved : List String} {imports more : List Import}
    {access : Access} (wellFormed : access.WellFormed reserved imports)
    (grown : imports ⊆ more) : access.WellFormed reserved more := by
  obtain ⟨imported, listed, binds⟩ := wellFormed.bound
  exact { wellFormed with bound := ⟨imported, grown listed, binds⟩ }

theorem wellFormed_of_mem_ofLine {reserved : List String} {imports : List Import}
    {line : List Char} {access : Access} (membership : access ∈ ofLine reserved imports line) :
    access.WellFormed reserved imports := by
  refine forall_mem_ofLine ?_ access membership
  intro access offered
  obtain ⟨ofChain, isBound⟩ := List.mem_filter.mp offered
  obtain ⟨chain, listed, rfl⟩ := List.mem_map.mp ofChain
  exact Chain.wellFormed_access (Chain.legible_of_mem_scan listed) (List.find?_isSome.mp isBound)

theorem WellFormed.exists_binding? {reserved : List String} {imports : List Import}
    {access : Access} (wellFormed : access.WellFormed reserved imports) :
    ∃ imported, Import.binding? imports access.base = some imported := by
  obtain ⟨imported, listed, binds⟩ := wellFormed.bound
  exact Option.isSome_iff_exists.mp (List.find?_isSome.mpr ⟨imported, listed, binds⟩)

end Access

namespace SourceSummary

/-- The imports of a file only grow while its lines are read, so what was recorded stays
well formed. -/
theorem wellFormed_addLine {reserved : List String} {summary : SourceSummary}
    (before : ∀ access ∈ summary.accesses, access.WellFormed reserved summary.imports)
    (line : List Char) :
    ∀ access ∈ (summary.addLine reserved line).accesses,
      access.WellFormed reserved (summary.addLine reserved line).imports := by
  have kept : ∀ access ∈ summary.accesses,
      access.WellFormed reserved (summary.imports ++ Import.ofLine line) :=
    fun access recorded => (before access recorded).of_subset (List.subset_append_left _ _)
  unfold addLine
  split
  · exact before
  · dsimp only
    split
    · rw [addUses, addAccesses, List.forall_mem_append]
      exact ⟨kept, fun access => Access.wellFormed_of_mem_ofLine⟩
    · exact kept

/-- Every access of a source text is well formed, whatever the text. -/
theorem wellFormed_of_mem_ofText {reserved : List String} {path content : String}
    {access : Access} (membership : access ∈ (ofText reserved path content).accesses) :
    access.WellFormed reserved (ofText reserved path content).imports := by
  have run (lines : List (List Char)) (summary : SourceSummary)
      (before : ∀ access ∈ summary.accesses, access.WellFormed reserved summary.imports) :
      ∀ access ∈ (lines.foldl (addLine reserved) summary).accesses,
        access.WellFormed reserved (lines.foldl (addLine reserved) summary).imports := by
    induction lines generalizing summary with
    | nil => exact before
    | cons line rest inductionHypothesis =>
        exact inductionHypothesis _ (wellFormed_addLine before line)
  exact run _ { path := path } (by simp) access membership

end SourceSummary

end AmbientStubs
