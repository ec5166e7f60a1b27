import AmbientStubs.Proofs.Access.Chain
import Mathlib.Data.List.Nodup

/-!
What is left of the uses on a line.  Recording goes through the uses from left to right, replaces
a weaker use of a path in place, and drops what a call covers at the end; the result is said here
without that order of steps, and it hardly depends on it: shuffled uses leave shuffled accesses.
-/

namespace AmbientStubs

open Text

def AccessContext.byStrength : List AccessContext :=
  [.staticCall, .constructorCall, .methodCall, .propertyAccess]

namespace AccessContext

theorem idxOf_byStrength_le_iff {first second : AccessContext} (known : first ∈ byStrength)
    (otherKnown : second ∈ byStrength) :
    byStrength.idxOf first ≤ byStrength.idxOf second ↔ second.rank ≤ first.rank := by
  revert known otherKnown
  cases first <;> cases second <;> decide

theorem isCall_iff {context : AccessContext} (known : context ∈ byStrength) :
    context.isCall = true ↔ context ≠ .propertyAccess := by
  revert known
  cases context <;> decide

theorem eq_propertyAccess_of_rank_le {context : AccessContext} (known : context ∈ byStrength)
    (weak : context.rank ≤ rank .propertyAccess) : context = .propertyAccess := by
  revert known weak
  cases context <;> decide

end AccessContext

namespace Access

/-- A path that is only read on the way to a call: each use of it is a property access, and the
path of some call goes on behind it with further segments. -/
structure Covered (uses : List Access) (path : String) : Prop where
  onlyRead : ∀ use ∈ uses, use.path = path → use.context = .propertyAccess
  extended : ∃ call ∈ uses, call.context ≠ .propertyAccess ∧
    ∃ further, further ≠ [] ∧ call.segments = Text.segments path ++ further

/-- What the uses on a line leave behind, in the order in which the paths first occur. -/
structure Settled (uses recorded : List Access) : Prop where
  ofUse : ∀ access ∈ recorded, access ∈ uses
  strongest : ∀ access ∈ recorded, ∀ use ∈ uses, use.path = access.path →
    AccessContext.byStrength.idxOf access.context ≤ AccessContext.byStrength.idxOf use.context
  inOrder : (recorded.map (·.path)).Pairwise fun earlier later =>
    (uses.map (·.path)).idxOf earlier < (uses.map (·.path)).idxOf later
  uncovered : ∀ path ∈ uses.map (·.path),
    path ∈ recorded.map (·.path) ↔ ¬Covered uses path

/-- The uses found so far: one of the highest rank for each path, in order of first occurrence. -/
structure Found (uses found : List Access) : Prop where
  ofUse : ∀ access ∈ found, access ∈ uses
  highest : ∀ access ∈ found, ∀ use ∈ uses, use.path = access.path →
    use.context.rank ≤ access.context.rank
  inOrder : (found.map (·.path)).Pairwise fun earlier later =>
    (uses.map (·.path)).idxOf earlier < (uses.map (·.path)).idxOf later
  complete : ∀ use ∈ uses, use.path ∈ found.map (·.path)

theorem map_path_record (access : Access) (found : List Access) :
    (record access found).map (·.path) =
      if access.path ∈ found.map (·.path) then found.map (·.path)
      else found.map (·.path) ++ [access.path] := by
  induction found with
  | nil => simp [record]
  | cons existing rest inductionHypothesis =>
      rw [record]
      by_cases same : existing.path = access.path
      · rw [if_pos same]
        split <;> simp_all
      · rw [if_neg same, List.map_cons, inductionHypothesis]
        have different : access.path ≠ existing.path := Ne.symm same
        split <;> simp_all

/-- Recording an access leaves what was found, where it is at least as strong, or puts the access
in the place of what is weaker. -/
theorem mem_record {access other : Access} {found : List Access}
    (distinct : (found.map (·.path)).Nodup) (membership : other ∈ record access found) :
    (other ∈ found ∧
        (access.path = other.path → access.context.rank ≤ other.context.rank)) ∨
      (other = access ∧ ∀ existing ∈ found, existing.path = access.path →
        existing.context.rank ≤ access.context.rank) := by
  induction found with
  | nil => exact .inr ⟨by simpa [record] using membership, by simp⟩
  | cons existing rest inductionHypothesis =>
      rw [List.map_cons, List.nodup_cons] at distinct
      rw [record] at membership
      split at membership
      · next same =>
          -- No later entry has the path of the first one.
          have alone : ∀ later ∈ rest, later.path ≠ access.path := by
            intro later listed equal
            exact distinct.1 (List.mem_map.mpr ⟨later, listed, equal.trans same.symm⟩)
          rcases List.mem_cons.mp membership with rfl | later
          · split
            · next weaker =>
                refine .inr ⟨rfl, List.forall_mem_cons.mpr ⟨fun _ => Nat.le_of_lt weaker, ?_⟩⟩
                exact fun later listed equal => absurd equal (alone later listed)
            · next stronger =>
                exact .inl ⟨List.mem_cons_self, fun _ => Nat.le_of_not_lt stronger⟩
          · exact .inl ⟨List.mem_cons_of_mem _ later,
              fun equal => absurd equal.symm (alone other later)⟩
      · next different =>
          rcases List.mem_cons.mp membership with rfl | later
          · exact .inl ⟨List.mem_cons_self, fun equal => absurd equal.symm different⟩
          · rcases inductionHypothesis distinct.2 later with ⟨old, highest⟩ | ⟨rfl, highest⟩
            · exact .inl ⟨List.mem_cons_of_mem _ old, highest⟩
            · exact .inr ⟨rfl, List.forall_mem_cons.mpr
                ⟨fun equal => absurd equal different, highest⟩⟩

theorem Found.nodup {uses found : List Access} (state : Found uses found) :
    (found.map (·.path)).Nodup :=
  state.inOrder.imp fun before equal => by simp [equal] at before

theorem Found.mem_paths_iff {uses found : List Access} (state : Found uses found)
    {path : String} : path ∈ found.map (·.path) ↔ path ∈ uses.map (·.path) := by
  constructor
  · intro membership
    obtain ⟨access, listed, rfl⟩ := List.mem_map.mp membership
    exact List.mem_map_of_mem (state.ofUse access listed)
  · intro membership
    obtain ⟨use, offered, rfl⟩ := List.mem_map.mp membership
    exact state.complete use offered

theorem found_nil : Found [] [] :=
  ⟨by simp, by simp, by simp, by simp⟩

/-- One more use keeps what holds of the uses found so far. -/
theorem found_record {uses found : List Access} (state : Found uses found) (access : Access) :
    Found (uses ++ [access]) (record access found) where
  ofUse := by
    apply forall_mem_record
    · simp
    · exact fun other listed => List.mem_append_left _ (state.ofUse other listed)
  highest := by
    intro other listed use offered same
    rw [List.mem_append, List.mem_singleton] at offered
    rcases mem_record state.nodup listed with ⟨old, highest⟩ | ⟨rfl, highest⟩
    · rcases offered with before | rfl
      · exact state.highest other old use before same
      · exact highest same
    · rcases offered with before | rfl
      · obtain ⟨existing, there, samePath⟩ := List.mem_map.mp (state.complete use before)
        have stronger := state.highest existing there use before samePath.symm
        exact Nat.le_trans stronger (highest existing there (samePath.trans same))
      · exact Nat.le_refl _
  inOrder := by
    rw [map_path_record, List.map_append, List.map_singleton]
    have earlier {path : String} (membership : path ∈ found.map (·.path)) :
        (uses.map (·.path) ++ [access.path]).idxOf path = (uses.map (·.path)).idxOf path :=
      List.idxOf_append_of_mem (state.mem_paths_iff.mp membership)
    have kept : (found.map (·.path)).Pairwise fun first second =>
        (uses.map (·.path) ++ [access.path]).idxOf first <
          (uses.map (·.path) ++ [access.path]).idxOf second := by
      refine state.inOrder.imp_of_mem fun first second before => ?_
      rwa [earlier first, earlier second]
    split
    · exact kept
    · next absent =>
        rw [state.mem_paths_iff] at absent
        refine List.pairwise_append.mpr ⟨kept, List.pairwise_singleton _ _, ?_⟩
        intro path membership last isLast
        rw [List.mem_singleton.mp isLast, earlier membership,
          List.idxOf_append_of_notMem absent]
        have inside := List.idxOf_lt_length_of_mem (state.mem_paths_iff.mp membership)
        omega
  complete := by
    rw [map_path_record]
    intro use offered
    rw [List.mem_append, List.mem_singleton] at offered
    split
    · next present =>
        rcases offered with before | rfl
        · exact state.complete use before
        · exact present
    · rcases offered with before | rfl
      · exact List.mem_append_left _ (state.complete use before)
      · simp

theorem found_foldl {uses found : List Access} (state : Found uses found) (more : List Access) :
    Found (uses ++ more) (more.foldl (fun found access => record access found) found) := by
  induction more generalizing uses found with
  | nil => simpa using state
  | cons access rest inductionHypothesis =>
      rw [List.append_cons]
      exact inductionHypothesis (found_record state access)

theorem Found.isCovered_iff {uses found : List Access} (state : Found uses found)
    (known : ∀ use ∈ uses, use.context ∈ AccessContext.byStrength) {access : Access}
    (listed : access ∈ found) :
    isCovered found access = true ↔ Covered uses access.path := by
  rw [isCovered, Bool.and_eq_true, decide_eq_true_eq, List.any_eq_true]
  constructor
  · rintro ⟨reads, call, callListed, covers⟩
    rw [Bool.and_eq_true, startsWith_dot_iff] at covers
    have offered := state.ofUse call callListed
    refine ⟨?_, call, offered, (AccessContext.isCall_iff (known call offered)).mp covers.1,
      covers.2⟩
    intro use offered samePath
    apply AccessContext.eq_propertyAccess_of_rank_le (known use offered)
    rw [← reads]
    exact state.highest access listed use offered samePath
  · rintro ⟨onlyRead, call, offered, isCall, further⟩
    refine ⟨onlyRead access (state.ofUse access listed) rfl, ?_⟩
    obtain ⟨strongest, there, samePath⟩ := List.mem_map.mp (state.complete call offered)
    refine ⟨strongest, there, ?_⟩
    rw [Bool.and_eq_true, startsWith_dot_iff, samePath]
    refine ⟨?_, further⟩
    have callRank := (AccessContext.isCall_iff (known call offered)).mpr isCall
    have atLeast := state.highest strongest there call offered samePath.symm
    simp only [AccessContext.isCall, decide_eq_true_eq] at callRank ⊢
    omega

/-- Recording, replacing and dropping leave the strongest use of each path that is not covered. -/
theorem settled_settle {uses : List Access}
    (known : ∀ use ∈ uses, use.context ∈ AccessContext.byStrength) :
    Settled uses (settle uses) := by
  have state : Found uses (uses.foldl (fun found access => record access found) []) := by
    simpa using found_foldl found_nil uses
  unfold settle
  generalize uses.foldl (fun found access => record access found) [] = found at state
  dsimp only
  refine ⟨?_, ?_, ?_, ?_⟩
  · intro access membership
    exact state.ofUse access (List.mem_filter.mp membership).1
  · intro access membership use offered samePath
    have listed := (List.mem_filter.mp membership).1
    apply (AccessContext.idxOf_byStrength_le_iff (known access (state.ofUse access listed))
      (known use offered)).mpr
    exact state.highest access listed use offered samePath
  · exact state.inOrder.sublist (List.filter_sublist.map _)
  · intro path membership
    rw [← state.mem_paths_iff] at membership
    obtain ⟨access, listed, rfl⟩ := List.mem_map.mp membership
    rw [← state.isCovered_iff known listed, List.mem_map]
    constructor
    · rintro ⟨other, kept, samePath⟩ covered
      obtain rfl := List.inj_on_of_nodup_map state.nodup (List.mem_filter.mp kept).1 listed samePath
      simp [covered] at kept
    · intro uncovered
      exact ⟨access, List.mem_filter.mpr ⟨listed, by simpa using uncovered⟩, rfl⟩

def Consistent (uses : List Access) : Prop :=
  ∀ first ∈ uses, ∀ second ∈ uses,
    first.path = second.path → first.context = second.context → first = second

theorem Covered.of_sameUses {uses others : List Access} {path : String}
    (covered : Covered uses path) (same : ∀ use, use ∈ uses ↔ use ∈ others) :
    Covered others path := by
  obtain ⟨onlyRead, call, offered, extended⟩ := covered
  exact ⟨fun use listed => onlyRead use ((same use).mpr listed), call, (same call).mp offered,
    extended⟩

theorem Settled.nodup {uses recorded : List Access} (settled : Settled uses recorded) :
    recorded.Nodup :=
  List.Nodup.of_map _ (settled.inOrder.imp fun before equal => by simp [equal] at before)

/-- Which accesses are left depends on what the uses are and not on their order. -/
theorem Settled.mem_iff {uses recorded : List Access} (settled : Settled uses recorded)
    (known : ∀ use ∈ uses, use.context ∈ AccessContext.byStrength)
    (consistent : Consistent uses) {access : Access} :
    access ∈ recorded ↔ access ∈ uses ∧ ¬Covered uses access.path ∧
      ∀ use ∈ uses, use.path = access.path →
        AccessContext.byStrength.idxOf access.context ≤
          AccessContext.byStrength.idxOf use.context := by
  constructor
  · intro listed
    have offered := settled.ofUse access listed
    exact ⟨offered, (settled.uncovered access.path (List.mem_map_of_mem offered)).mp
      (List.mem_map_of_mem listed), settled.strongest access listed⟩
  · rintro ⟨offered, uncovered, strongest⟩
    obtain ⟨other, listed, samePath⟩ := List.mem_map.mp
      ((settled.uncovered access.path (List.mem_map_of_mem offered)).mpr uncovered)
    have otherOffered := settled.ofUse other listed
    have sameContext : other.context = access.context := by
      apply (List.idxOf_inj (known other otherOffered)).mp
      exact Nat.le_antisymm (settled.strongest other listed access offered samePath.symm)
        (strongest other otherOffered samePath)
    rwa [← consistent other otherOffered access offered samePath sameContext]

theorem Settled.perm {uses others recorded shuffled : List Access}
    (settled : Settled uses recorded) (otherSettled : Settled others shuffled)
    (known : ∀ use ∈ uses, use.context ∈ AccessContext.byStrength)
    (consistent : Consistent uses) (rearranged : others.Perm uses) :
    shuffled.Perm recorded := by
  have same (use : Access) : use ∈ others ↔ use ∈ uses := rearranged.mem_iff
  have otherKnown : ∀ use ∈ others, use.context ∈ AccessContext.byStrength :=
    fun use listed => known use ((same use).mp listed)
  have otherConsistent : Consistent others := fun first firstListed second secondListed =>
    consistent first ((same first).mp firstListed) second ((same second).mp secondListed)
  have coveredAlike (path : String) : Covered others path ↔ Covered uses path :=
    ⟨fun covered => covered.of_sameUses same, fun covered => covered.of_sameUses fun use =>
      (same use).symm⟩
  refine (List.perm_ext_iff_of_nodup otherSettled.nodup settled.nodup).mpr fun access => ?_
  rw [otherSettled.mem_iff otherKnown otherConsistent, settled.mem_iff known consistent]
  simp only [same, coveredAlike]

end Access

end AmbientStubs
