import AmbientStubs.Proofs.FileTree.Listing
import AmbientStubs.Proofs.FileStore

/-!
Taking something out of a tree.  What stands at the location and below it is gone, and everything
else stays where it is.
-/

namespace AmbientStubs

namespace FileTree

/-- An entry, of which only something is left if it has the name. -/
def leave (name : String) (left : FileTree → Option FileTree) (entry : String × FileTree) :
    Option (String × FileTree) :=
  if entry.1 = name then (left entry.2).map (entry.1, ·) else some entry

def without : List String → FileTree → Option FileTree
  | [], _ => none
  | _ :: _, file content => some (file content)
  | name :: rest, directory entries =>
      some (directory (entries.filterMap (leave name (without rest))))

section Leave

variable {entries : List (String × FileTree)} {name : String}
  {left : FileTree → Option FileTree}

theorem leave_eq_some_iff {entry kept : String × FileTree} : leave name left entry = some kept ↔
    kept.1 = entry.1 ∧ if entry.1 = name then left entry.2 = some kept.2 else entry.2 = kept.2 := by
  obtain ⟨key, tree⟩ := kept
  rw [leave]
  split
  · simp [eq_comm, and_comm]
  · rw [Option.some.injEq, Prod.ext_iff]
    exact and_congr_left fun _ => eq_comm

theorem mem_filterMap_leave {kept : String × FileTree} :
    kept ∈ entries.filterMap (leave name left) ↔
      ∃ old, (kept.1, old) ∈ entries ∧
        if kept.1 = name then left old = some kept.2 else old = kept.2 := by
  simp only [List.mem_filterMap, leave_eq_some_iff]
  constructor
  · rintro ⟨⟨key, old⟩, inside, rfl, remains⟩
    exact ⟨old, inside, remains⟩
  · rintro ⟨old, inside, remains⟩
    exact ⟨(kept.1, old), inside, rfl, remains⟩

theorem ascending_leave (ascending : (Catalog.mk entries).Ascending) :
    (Catalog.mk (entries.filterMap (leave name left))).Ascending := by
  refine List.Pairwise.filterMap _ ?_ ascending
  intro first second less kept shown other shownOther
  rwa [(leave_eq_some_iff.mp shown).1, (leave_eq_some_iff.mp shownOther).1]

theorem child?_leave (ascending : (Catalog.mk entries).Ascending) (sought : String) :
    (directory (entries.filterMap (leave name left))).child? sought =
      if sought = name then ((directory entries).child? name).bind left
      else (directory entries).child? sought := by
  refine Option.ext fun subtree => ?_
  rw [mem_entries_iff_child? (ascending_leave ascending), mem_filterMap_leave]
  split
  · next same =>
      subst same
      simp only [Option.bind_eq_some_iff, mem_entries_iff_child? ascending]
  · simp [mem_entries_iff_child? ascending]

end Leave

section Without

theorem Sorted.without {tree left : FileTree} {location : List String} (sorted : tree.Sorted)
    (kept : FileTree.without location tree = some left) : left.Sorted := by
  induction location generalizing tree left with
  | nil => cases kept
  | cons name rest inductionHypothesis =>
      cases sorted with
      | file content =>
          cases kept
          exact .file content
      | directory ascending each =>
          cases kept
          refine .directory (ascending_leave ascending) fun entry inside => ?_
          obtain ⟨old, listed, shown⟩ := mem_filterMap_leave.mp inside
          split at shown
          · exact inductionHypothesis (each _ listed) shown
          · exact shown ▸ each _ listed

theorem without_eq_none_iff {tree : FileTree} {location : List String} :
    without location tree = none ↔ location = [] := by
  cases location <;> cases tree <;> simp [without]

/-- What stands at the location or below it is gone, and nothing else is. -/
theorem nodeAt?_without {tree left : FileTree} {location : List String} (sorted : tree.Sorted)
    (kept : without location tree = some left) (sought : List String) :
    left.nodeAt? sought = if location <+: sought then none else tree.nodeAt? sought := by
  induction location generalizing tree left sought with
  | nil => cases kept
  | cons name rest inductionHypothesis =>
      cases sorted with
      | file content =>
          cases kept
          cases sought with
          | nil => rw [if_neg (by simp)]
          | cons first more => exact (ite_self _).symm
      | @directory entries ascending each =>
          cases kept
          cases sought with
          | nil =>
              rw [if_neg (by simp)]
              rfl
          | cons first more =>
              rw [nodeAt?_cons, child?_leave ascending, nodeAt?_cons]
              by_cases same : first = name
              · subst same
                rw [if_pos rfl]
                cases found : (FileTree.directory entries).child? first with
                | none => simp
                | some subtree =>
                    have sortedSubtree := (Sorted.directory ascending each).child found
                    rw [Option.bind_some, Option.bind_some]
                    cases remains : without rest subtree with
                    | none =>
                        obtain rfl := without_eq_none_iff.mp remains
                        simp [List.cons_prefix_cons]
                    | some below =>
                        rw [Option.bind_some, inductionHypothesis sortedSubtree remains more]
                        simp [List.cons_prefix_cons]
              · rw [if_neg same, if_neg fun behind => same (List.cons_prefix_cons.mp behind).1.symm]

end Without

end FileTree

namespace FileStore

variable {store : FileStore} {location : List String}

def remove (store : FileStore) (location : List String) : FileStore :=
  { store with tree := (store.tree.without location).getD .empty }

theorem WellFormed.remove (wellFormed : store.WellFormed) (location : List String) :
    (store.remove location).WellFormed := by
  refine ⟨?_, wellFormed.current⟩
  rw [FileStore.remove]
  cases kept : store.tree.without location with
  | none => exact FileTree.sorted_empty
  | some left => exact wellFormed.sorted.without kept

theorem nodeAt?_remove (wellFormed : store.WellFormed) (below : location ≠ [])
    (sought : List String) : (store.remove location).tree.nodeAt? sought =
      if location <+: sought then none else store.tree.nodeAt? sought := by
  obtain ⟨left, kept⟩ :=
    Option.ne_none_iff_exists'.mp (mt FileTree.without_eq_none_iff.mp below)
  rw [remove, kept]
  exact FileTree.nodeAt?_without wellFormed.sorted kept sought

end FileStore

end AmbientStubs
