import Mathlib.Data.List.Sort
import AmbientStubs.Proofs.FileTree
import AmbientStubs.Proofs.PathText

/-!
What a tree lists.  The files of a sorted tree are listed by ascending location, so two trees with
files at the same locations list the same files, whatever directories they have besides.
-/

namespace AmbientStubs.FileTree

open PathText

inductive Named : FileTree → Prop where
  | file (content : ByteArray) : Named (file content)
  | directory {entries : List (String × FileTree)} (names : ∀ entry ∈ entries, IsName entry.1)
      (each : ∀ entry ∈ entries, Named entry.2) : Named (directory entries)

theorem named_empty : Named empty :=
  .directory (by simp) (by simp)

theorem Named.insertAt {tree new : FileTree} (named : tree.Named) (namedNew : new.Named)
    {location : List String} (names : ∀ name ∈ location, IsName name) :
    (tree.insertAt new location).Named := by
  induction location generalizing tree with
  | nil => cases tree <;> exact namedNew
  | cons name rest inductionHypothesis =>
      rw [List.forall_mem_cons] at names
      cases named with
      | file content => exact .file content
      | directory proper each =>
          refine .directory (fun entry inside => ?_) (Catalog.forall_mem_alterEntries ?_ each)
          · rcases Catalog.mem_alterEntries inside with same | old
            · exact same ▸ names.1
            · exact proper entry old
          · intro old namedOld
            cases old with
            | none => exact inductionHypothesis named_empty names.2
            | some subtree => exact inductionHypothesis (namedOld subtree rfl) names.2

theorem Named.names {tree : FileTree} (named : tree.Named) {location : List String}
    (there : (tree.nodeAt? location).isSome = true) : ∀ name ∈ location, IsName name := by
  induction location generalizing tree with
  | nil => simp
  | cons name rest inductionHypothesis =>
      rw [nodeAt?_cons] at there
      cases named with
      | file content => cases there
      | @directory entries proper each =>
          cases found : (FileTree.directory entries).child? name with
          | none =>
              rw [found] at there
              cases there
          | some subtree =>
              rw [found] at there
              obtain ⟨entry, listed, rfl⟩ := Option.map_eq_some_iff.1 found
              have inside := List.mem_of_find?_eq_some listed
              have same : entry.1 = name := by simpa using List.find?_some listed
              exact List.forall_mem_cons.2
                ⟨same ▸ proper entry inside, inductionHypothesis (each entry inside) there⟩

/-- Where the files of a tree are, in the order in which they are listed. -/
def places (tree : FileTree) : List (List String) :=
  (contents [] tree).map (·.1)

section Contents

mutual

theorem contents_eq (location : List String) (tree : FileTree) :
    contents location tree = (contents [] tree).map fun file => (location ++ file.1, file.2) := by
  match tree with
  | file content => simp [contents]
  | directory entries =>
      rw [contents, contents]
      exact entryContents_eq location entries

theorem entryContents_eq (location : List String) (entries : List (String × FileTree)) :
    entryContents location entries =
      (entryContents [] entries).map fun file => (location ++ file.1, file.2) := by
  match entries with
  | [] => rfl
  | (name, tree) :: rest =>
      rw [entryContents, entryContents, entryContents_eq location rest,
        contents_eq (location ++ [name]) tree, contents_eq ([] ++ [name]) tree]
      simp [Function.comp_def]

end

theorem places_file (content : ByteArray) : (file content).places = [[]] := rfl

theorem places_directory (entries : List (String × FileTree)) :
    (directory entries).places =
      entries.flatMap fun entry => entry.2.places.map (entry.1 :: ·) := by
  rw [places, contents]
  induction entries with
  | nil => rfl
  | cons entry rest inductionHypothesis =>
      obtain ⟨name, tree⟩ := entry
      rw [entryContents, List.map_append, inductionHypothesis, List.flatMap_cons, contents_eq]
      simp [places, Function.comp_def]

mutual

theorem filePaths_eq (path : String) (tree : FileTree) :
    filePaths path tree = tree.places.map (·.foldl push path) := by
  match tree with
  | file content => rfl
  | directory entries =>
      rw [filePaths]
      exact entryFilePaths_eq path entries

theorem entryFilePaths_eq (path : String) (entries : List (String × FileTree)) :
    entryFilePaths path entries = (directory entries).places.map (·.foldl push path) := by
  match entries with
  | [] => rfl
  | (name, tree) :: rest =>
      rw [entryFilePaths, filePaths_eq, entryFilePaths_eq path rest, places_directory,
        places_directory, List.flatMap_cons, List.map_append, List.map_map]
      rfl

end

theorem directFilePaths_eq (path : String) (tree : FileTree) :
    directFilePaths path tree = tree.places.filterMap fun place =>
      match place with
      | [name] => some (push path name)
      | _ => none := by
  cases tree with
  | file content => rfl
  | directory entries =>
      rw [directFilePaths, places_directory]
      induction entries with
      | nil => rfl
      | cons entry rest inductionHypothesis =>
          obtain ⟨name, tree⟩ := entry
          rw [List.filterMap_cons, List.flatMap_cons, List.filterMap_append, inductionHypothesis]
          cases tree with
          | file content => rfl
          | directory inner =>
              have nothing : ((directory inner).places.map (name :: ·)).filterMap (fun place =>
                  match place with
                  | [name] => some (push path name)
                  | _ => none) = [] := by
                rw [places_directory, List.filterMap_eq_nil_iff]
                simp only [List.mem_map, List.mem_flatMap]
                rintro _ ⟨_, ⟨deeper, -, more, -, rfl⟩, rfl⟩
                rfl
              rw [nothing]
              rfl

end Contents

section Sorted

variable {tree : FileTree}

theorem mem_entries_iff_child? {entries : List (String × FileTree)}
    (ascending : (Catalog.mk entries).Ascending) {name : String} {subtree : FileTree} :
    (directory entries).child? name = some subtree ↔ (name, subtree) ∈ entries := by
  constructor
  · intro found
    obtain ⟨⟨present, held⟩, listed, rfl⟩ := Option.map_eq_some_iff.1 found
    have same : present = name := by simpa using List.find?_some listed
    exact same ▸ List.mem_of_find?_eq_some listed
  · exact ascending.get?_of_mem

/-- The places are where the files are. -/
theorem Sorted.mem_places (sorted : tree.Sorted) {location : List String} :
    location ∈ tree.places ↔ (tree.fileAt? location).isSome = true := by
  induction sorted generalizing location with
  | file content => cases location <;> simp [places_file, fileAt?, nodeAt?, lookup?, child?, node,
      Node.content?]
  | @directory entries ascending each inductionHypothesis =>
      rw [places_directory, List.mem_flatMap]
      cases location with
      | nil => simp [fileAt?, node, Node.content?]
      | cons name rest =>
          rw [fileAt?, nodeAt?_cons]
          constructor
          · rintro ⟨⟨present, subtree⟩, inside, listed⟩
            obtain ⟨place, deeper, same⟩ := List.mem_map.1 listed
            obtain ⟨rfl, rfl⟩ := List.cons.inj same
            rw [(mem_entries_iff_child? ascending).2 inside]
            exact (inductionHypothesis _ inside).1 deeper
          · intro there
            cases found : (FileTree.directory entries).child? name with
            | none =>
                rw [found] at there
                cases there
            | some subtree =>
                rw [found] at there
                have inside := (mem_entries_iff_child? ascending).1 found
                exact ⟨(name, subtree), inside,
                  List.mem_map_of_mem ((inductionHypothesis _ inside).2 there)⟩

theorem Sorted.pairwise_places (sorted : tree.Sorted) : tree.places.Pairwise (· < ·) := by
  induction sorted with
  | file content => exact List.pairwise_singleton _ _
  | @directory entries ascending each inductionHypothesis =>
      rw [places_directory, List.pairwise_flatMap]
      refine ⟨fun entry inside => ?_, ascending.imp fun {first second} below => ?_⟩
      · exact (inductionHypothesis entry inside).map _ fun _ _ less =>
          List.cons_lt_cons_iff.2 (.inr ⟨rfl, less⟩)
      · simp only [List.mem_map]
        rintro _ ⟨place, -, rfl⟩ _ ⟨other, -, rfl⟩
        exact List.cons_lt_cons_iff.2 (.inl below)

theorem Sorted.lookup? (sorted : tree.Sorted) {location : List String} {subtree : FileTree}
    (found : tree.lookup? location = some subtree) : subtree.Sorted := by
  induction location generalizing tree with
  | nil =>
      rw [lookup?_nil] at found
      cases found
      exact sorted
  | cons name rest inductionHypothesis =>
      obtain ⟨between, first, later⟩ := Option.bind_eq_some_iff.1 found
      exact inductionHypothesis (sorted.child first) later

theorem mem_entryDirectoryPaths {path listed : String} {entries : List (String × FileTree)} :
    listed ∈ entryDirectoryPaths path entries ↔
      ∃ entry ∈ entries, listed ∈ directoryPaths (push path entry.1) entry.2 := by
  induction entries with
  | nil => simp [entryDirectoryPaths]
  | cons entry rest inductionHypothesis =>
      simp [entryDirectoryPaths, inductionHypothesis]

theorem Sorted.mem_directoryPaths (sorted : tree.Sorted) {path listed : String} :
    listed ∈ directoryPaths path tree ↔
      ∃ location, tree.nodeAt? location = some .directory ∧ listed = location.foldl push path := by
  induction sorted generalizing path with
  | file content =>
      rw [directoryPaths]
      refine ⟨fun inside => absurd inside List.not_mem_nil, ?_⟩
      rintro ⟨location, isDirectory, -⟩
      cases location <;> cases isDirectory
  | @directory entries ascending each inductionHypothesis =>
      rw [directoryPaths, List.mem_cons, mem_entryDirectoryPaths]
      constructor
      · rintro (rfl | ⟨entry, inside, listed⟩)
        · exact ⟨[], rfl, rfl⟩
        · obtain ⟨location, isDirectory, rfl⟩ := (inductionHypothesis entry inside).1 listed
          refine ⟨entry.1 :: location, ?_, rfl⟩
          rw [nodeAt?_cons, (mem_entries_iff_child? ascending).2 inside]
          exact isDirectory
      · rintro ⟨location, isDirectory, rfl⟩
        cases location with
        | nil => exact .inl rfl
        | cons name rest =>
            rw [nodeAt?_cons, Option.bind_eq_some_iff] at isDirectory
            obtain ⟨subtree, found, isDirectory⟩ := isDirectory
            have inside := (mem_entries_iff_child? ascending).1 found
            exact .inr ⟨_, inside, (inductionHypothesis _ inside).2 ⟨rest, isDirectory, rfl⟩⟩

end Sorted

end AmbientStubs.FileTree
