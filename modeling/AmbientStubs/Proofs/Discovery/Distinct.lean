import Mathlib.Data.List.Nodup
import AmbientStubs.Discovery

/-!
Keeping the first path of each kind.  The paths that are kept have different components, and leaving
out some components beforehand is the same as leaving them out afterwards.
-/

namespace AmbientStubs.Discovery

open PathText

section KeepNew

variable {Key Value : Type} [BEq Key] [LawfulBEq Key]

def keepNew (kept : List (Key × Value)) (entry : Key × Value) : List (Key × Value) :=
  if kept.any (·.1 == entry.1) then kept else kept ++ [entry]

omit [LawfulBEq Key] in
theorem mem_keepNew {kept : List (Key × Value)} {entry found : Key × Value}
    (inside : found ∈ keepNew kept entry) : found ∈ kept ∨ found = entry := by
  rw [keepNew] at inside
  split at inside
  · exact .inl inside
  · simpa using inside

omit [LawfulBEq Key] in
theorem mem_foldl_keepNew {entries kept : List (Key × Value)} {found : Key × Value}
    (inside : found ∈ entries.foldl keepNew kept) : found ∈ kept ∨ found ∈ entries := by
  induction entries generalizing kept with
  | nil => exact .inl inside
  | cons first rest inductionHypothesis =>
      rcases inductionHypothesis inside with earlier | later
      · rcases mem_keepNew earlier with old | rfl
        · exact .inl old
        · exact .inr List.mem_cons_self
      · exact .inr (List.mem_cons_of_mem first later)

theorem nodup_keepNew {kept : List (Key × Value)} (nodup : (kept.map (·.1)).Nodup)
    (entry : Key × Value) : ((keepNew kept entry).map (·.1)).Nodup := by
  rw [keepNew]
  split
  · exact nodup
  · next absent =>
      rw [List.map_append, List.map_singleton]
      refine nodup.append (List.nodup_singleton _) ?_
      rw [List.disjoint_singleton]
      intro present
      obtain ⟨old, inside, same⟩ := List.mem_map.mp present
      exact absent (List.any_eq_true.mpr ⟨old, inside, beq_iff_eq.mpr same⟩)

theorem nodup_foldl_keepNew (entries : List (Key × Value)) {kept : List (Key × Value)}
    (nodup : (kept.map (·.1)).Nodup) : ((entries.foldl keepNew kept).map (·.1)).Nodup := by
  induction entries generalizing kept with
  | nil => exact nodup
  | cons first rest inductionHypothesis => exact inductionHypothesis (nodup_keepNew nodup first)

theorem filter_keepNew (keep : Key → Bool) (kept : List (Key × Value)) (entry : Key × Value) :
    (keepNew kept entry).filter (fun found => keep found.1) =
      if keep entry.1 then keepNew (kept.filter fun found => keep found.1) entry
      else kept.filter fun found => keep found.1 := by
  have present (wanted : keep entry.1 = true) :
      (kept.filter fun found => keep found.1).any (·.1 == entry.1) =
        kept.any (·.1 == entry.1) := by
    rw [List.any_filter]
    refine congrArg kept.any (funext fun found => ?_)
    by_cases same : found.1 = entry.1
    · rw [same, wanted, Bool.true_and]
    · rw [beq_eq_false_iff_ne.mpr same, Bool.and_false]
  cases wanted : keep entry.1 with
  | true =>
      rw [if_pos rfl, keepNew, keepNew, present wanted]
      split
      · rfl
      · rw [List.filter_append, List.filter_singleton, wanted, cond_true]
  | false =>
      rw [if_neg (by simp), keepNew]
      split
      · rfl
      · rw [List.filter_append, List.filter_singleton, wanted, cond_false, List.append_nil]

theorem filter_foldl_keepNew (keep : Key → Bool) (entries kept : List (Key × Value)) :
    (entries.foldl keepNew kept).filter (fun found => keep found.1) =
      (entries.filter fun entry => keep entry.1).foldl keepNew
        (kept.filter fun found => keep found.1) := by
  induction entries generalizing kept with
  | nil => rfl
  | cons first rest inductionHypothesis =>
      rw [List.foldl_cons, inductionHypothesis, filter_keepNew]
      cases wanted : keep first.1 with
      | true => rw [List.filter_cons_of_pos (by exact wanted), if_pos rfl, List.foldl_cons]
      | false => rw [List.filter_cons_of_neg (by simp [wanted]), if_neg (by simp)]

theorem foldl_keepNew_of_nodup {entries : List (Key × Value)} (nodup : (entries.map (·.1)).Nodup)
    (kept : List (Key × Value)) :
    entries.foldl keepNew kept =
      kept ++ entries.filter fun entry => !kept.any (·.1 == entry.1) := by
  induction entries generalizing kept with
  | nil => simp
  | cons first rest inductionHypothesis =>
      rw [List.map_cons, List.nodup_cons] at nodup
      rw [List.foldl_cons, inductionHypothesis nodup.2, keepNew]
      cases present : kept.any (·.1 == first.1) with
      | true => simp [present]
      | false =>
          have others : rest.filter (fun entry => !(kept ++ [first]).any (·.1 == entry.1)) =
              rest.filter fun entry => !kept.any (·.1 == entry.1) := by
            refine List.filter_congr fun entry inside => ?_
            have later : (first.1 == entry.1) = false := by
              rw [beq_eq_false_iff_ne]
              intro same
              exact nodup.1 (same ▸ List.mem_map_of_mem inside)
            simp [later]
          rw [if_neg (by simp), others, List.filter_cons_of_pos (by simp [present]),
            List.append_assoc, List.singleton_append]

end KeepNew

section DistinctPaths

/-- The paths that are kept, with the components by which they are told apart. -/
def distinctEntries (paths : List String) : List ((Bool × List String) × String) :=
  (paths.map fun path => (components path, path)).foldl keepNew []

theorem distinctPaths_eq (paths : List String) :
    distinctPaths paths = (distinctEntries paths).map (·.2) := rfl

theorem mem_distinctEntries {paths : List String} {entry : (Bool × List String) × String}
    (inside : entry ∈ distinctEntries paths) : entry.1 = components entry.2 ∧ entry.2 ∈ paths := by
  rcases mem_foldl_keepNew inside with none | labelled
  · cases none
  · obtain ⟨path, given, rfl⟩ := List.mem_map.mp labelled
    exact ⟨rfl, given⟩

theorem mem_of_mem_distinctPaths {paths : List String} {path : String}
    (inside : path ∈ distinctPaths paths) : path ∈ paths := by
  rw [distinctPaths_eq] at inside
  obtain ⟨entry, kept, rfl⟩ := List.mem_map.mp inside
  exact (mem_distinctEntries kept).2

theorem map_components_distinctPaths (paths : List String) :
    (distinctPaths paths).map components = (distinctEntries paths).map (·.1) := by
  rw [distinctPaths_eq, List.map_map]
  exact List.map_congr_left fun entry inside => (mem_distinctEntries inside).1.symm

theorem nodup_components_distinctPaths (paths : List String) :
    ((distinctPaths paths).map components).Nodup := by
  rw [map_components_distinctPaths]
  exact nodup_foldl_keepNew _ List.nodup_nil

/-- Of two lists without repetition the second one loses what the first one has. -/
theorem distinctPaths_append {first second : List String} (nodup : (first.map components).Nodup)
    (nodupSecond : (second.map components).Nodup) :
    distinctPaths (first ++ second) = first ++ second.filter fun path =>
      ∀ earlier ∈ first, components earlier ≠ components path := by
  have label (paths : List String) :
      (paths.map fun path => (components path, path)).map (·.1) = paths.map components := by
    simp
  have fresh (path : String) : (!first.any fun earlier => components earlier == components path) =
      decide (∀ earlier ∈ first, components earlier ≠ components path) := by
    rw [Bool.eq_iff_iff]
    simp
  rw [distinctPaths_eq, distinctEntries, List.map_append, List.foldl_append,
    foldl_keepNew_of_nodup (by rwa [label]), foldl_keepNew_of_nodup (by rwa [label])]
  simp [List.filter_map, Function.comp_def, fresh]

theorem distinctPaths_filter (keep : Bool × List String → Bool) (paths : List String) :
    distinctPaths (paths.filter fun path => keep (components path)) =
      (distinctPaths paths).filter fun path => keep (components path) := by
  have labelled : (paths.filter fun path => keep (components path)).map
        (fun path => (components path, path)) =
      (paths.map fun path => (components path, path)).filter fun entry => keep entry.1 := by
    rw [List.filter_map]
    rfl
  have same : distinctEntries (paths.filter fun path => keep (components path)) =
      (distinctEntries paths).filter fun entry => keep (components entry.2) := by
    rw [distinctEntries, labelled]
    refine (filter_foldl_keepNew keep _ []).symm.trans (List.filter_congr fun entry inside => ?_)
    rw [(mem_distinctEntries inside).1]
  rw [distinctPaths_eq, same, distinctPaths_eq, List.filter_map]
  rfl

end DistinctPaths

end AmbientStubs.Discovery
