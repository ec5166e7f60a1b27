import AmbientStubs.Proofs.Discovery.Order

/-!
Discovery in a store that has lost files.  As long as the directories are the same ones, the files
that are left are found in the same order and under the same paths.
-/

namespace AmbientStubs

open PathText

namespace FileStore

variable {store : FileStore} {base path : String} {location names : List String}

/-- Where a path leads by its parts, whether anything is there or not. -/
def target (store : FileStore) (path : String) : List String :=
  locate (store.start path) (parts path)

theorem target_eq (store : FileStore) (path : String) :
    store.target path =
      locate (if (components path).1 then [] else store.current) (components path).2 := by
  rw [target, locate_components, components_fst, start]

theorem target_foldl_push (resolved : store.resolve base = .ok location)
    (proper : ∀ name ∈ names, IsName name) :
    store.target (names.foldl push base) = location ++ names := by
  have nonempty := ne_empty_of_accepted (walk_parts_of_resolve resolved).1
  have start : store.start (names.foldl push base) = store.start base := by
    rw [FileStore.start, FileStore.start,
      isAbsolute_foldl_push_iff nonempty (plain_of_names proper)]
  rw [target, start, parts_foldl_push base (plain_of_names proper), locate_append,
    ← eq_locate_of_resolve resolved, locate_names proper]

theorem target_push (nonempty : base ≠ "") (relative : isAbsolute path = false) :
    store.target (push base path) = locate (store.target base) (parts path) := by
  rw [target, start, isAbsolute_push_of_relative nonempty relative,
    parts_push_of_relative base relative, locate_append]
  rfl

/-- One store comes from another by losing files, and by changes to the files that are left. -/
structure Thins (before after : FileStore) : Prop where
  wellFormed : before.WellFormed
  wellFormedAfter : after.WellFormed
  current : after.current = before.current
  directories : ∀ location, after.tree.nodeAt? location = some .directory ↔
    before.tree.nodeAt? location = some .directory
  files : ∀ location, (after.tree.fileAt? location).isSome = true →
    (before.tree.fileAt? location).isSome = true

section Walk

variable {tree other : FileTree} {here parts : List String}

theorem nodeAt?_of_walk (walked : walk tree here parts = .ok location)
    (isDirectory : tree.nodeAt? location = some .directory) :
    tree.nodeAt? here = some .directory := by
  cases parts with
  | nil =>
      cases walked
      exact isDirectory
  | cons part rest => exact (walk_cons_eq_ok.mp walked).1.1

theorem walk_of_directories
    (kept : ∀ location, tree.nodeAt? location = some .directory →
      other.nodeAt? location = some .directory)
    (walked : walk tree here parts = .ok location)
    (isDirectory : tree.nodeAt? location = some .directory) :
    walk other here parts = .ok location := by
  induction parts generalizing here with
  | nil => exact walked
  | cons part rest inductionHypothesis =>
      obtain ⟨⟨there, passable⟩, later⟩ := walk_cons_eq_ok.mp walked
      refine walk_cons_eq_ok.mpr ⟨⟨kept here there, ?_⟩, inductionHypothesis later⟩
      have next := nodeAt?_of_walk later isDirectory
      rw [follow] at next
      split at next
      · next stays => exact .inl stays
      · next moves =>
          split at next
          · next up => exact .inr (.inl up)
          · next down =>
              have short := ((passable.resolve_left moves).resolve_left down).1
              exact .inr (.inr ⟨short, by rw [kept _ next, Option.isSome_some]⟩)

end Walk

namespace Thins

variable {before after : FileStore}

theorem resolve_iff (thins : Thins before after) :
    (after.resolve path = .ok location ∧ after.tree.nodeAt? location = some .directory) ↔
      before.resolve path = .ok location ∧ before.tree.nodeAt? location = some .directory := by
  have start : after.start path = before.start path := by
    rw [FileStore.start, FileStore.start, thins.current]
  rw [resolve, resolve, thins.directories, start]
  cases refusal? path with
  | some cause => rfl
  | none =>
      dsimp only
      constructor
      · rintro ⟨walked, isDirectory⟩
        have there := (thins.directories location).mpr isDirectory
        exact ⟨walk_of_directories (fun place => (thins.directories place).mp) walked there,
          isDirectory⟩
      · rintro ⟨walked, isDirectory⟩
        exact ⟨walk_of_directories (fun place => (thins.directories place).mpr) walked isDirectory,
          isDirectory⟩

theorem isDirectory (thins : Thins before after) (path : String) :
    after.isDirectory path = before.isDirectory path := by
  rw [Bool.eq_iff_iff, isDirectory_iff, isDirectory_iff]
  exact exists_congr fun location => thins.resolve_iff

theorem placesAt (thins : Thins before after) (location : List String) :
    after.placesAt location = (before.placesAt location).filter fun place =>
      (after.tree.fileAt? (location ++ place)).isSome := by
  refine (ascending_placesAt thins.wellFormedAfter).eq_of_mem_iff
    ((ascending_placesAt thins.wellFormed).filter _) fun place => ?_
  rw [List.mem_filter, mem_placesAt thins.wellFormedAfter, mem_placesAt thins.wellFormed]
  exact ⟨fun file => ⟨thins.files _ file, file⟩, And.right⟩

end Thins

end FileStore

namespace Discovery

section Thinned

variable {before after : FileStore} {settings : ScanSettings} {base moduleRoot : String}
  {paths : List String}

def isLeft (before after : FileStore) (path : String) : Bool :=
  (after.tree.fileAt? (before.target path)).isSome

theorem walkPaths_of_thins (thins : before.Thins after) (named : before.tree.Named)
    (limit : Option Nat) :
    walkPaths after settings base limit =
      (walkPaths before settings base limit).filter (isLeft before after) := by
  cases isDirectory : before.isDirectory base with
  | false =>
      rw [walkPaths_eq_nil thins.wellFormed isDirectory,
        walkPaths_eq_nil thins.wellFormedAfter ((thins.isDirectory base).trans isDirectory)]
      rfl
  | true =>
      obtain ⟨location, resolved, there⟩ := FileStore.isDirectory_iff.mp isDirectory
      rw [walkPaths, walkPaths, (thins.resolve_iff.mpr ⟨resolved, there⟩).1, resolved]
      dsimp only
      rw [sourcePlaces, sourcePlaces, thins.placesAt, List.filter_map, List.filter_filter,
        List.filter_filter]
      congr 1
      refine List.filter_congr fun place inside => ?_
      rw [FileStore.mem_placesAt thins.wellFormed] at inside
      have below : FileBelow before base place := ⟨location, resolved, there, inside⟩
      rw [Function.comp_apply, isLeft, FileStore.target_foldl_push resolved (below.names named),
        Bool.and_comm]

theorem listable_of_thins (thins : before.Thins after) (listable : Listable before base) :
    Listable after base := by
  intro location place resolved isDirectory
  have there : after.tree.nodeAt? location = some .directory := by
    cases place with
    | nil => rwa [List.append_nil] at isDirectory
    | cons name rest => exact FileStore.nodeAt?_of_below (by rw [isDirectory, Option.isSome_some])
  exact listable location place (thins.resolve_iff.mp ⟨resolved, there⟩).1
    ((thins.directories _).mp isDirectory)

/-- The files that are left are found, in the order they were found in. -/
theorem sourceFiles_of_thins (thins : before.Thins after) (named : before.tree.Named)
    (found : sourceFiles before settings moduleRoot = .ok paths) :
    sourceFiles after settings moduleRoot = .ok (paths.filter (isLeft before after)) := by
  obtain ⟨isDirectory, listable⟩ := listable_of_sourceFiles found
  have listableAfter := listable_of_thins thins
    ((unlistable?_eq_none_iff thins.wellFormed).mp listable)
  rw [← unlistable?_eq_none_iff thins.wellFormedAfter] at listableAfter
  rw [sourceFiles_eq thins.wellFormed settings isDirectory listable] at found
  cases found
  rw [sourceFiles_eq thins.wellFormedAfter settings
      ((thins.isDirectory moduleRoot).trans isDirectory) listableAfter,
    walkPaths_of_thins thins named, walkPaths_of_thins thins named, ← List.filter_append]
  obtain ⟨keep, byComponents⟩ : ∃ keep : Bool × List String → Bool,
      isLeft before after = fun path => keep (components path) :=
    ⟨fun key => (after.tree.fileAt? (locate (if key.1 then [] else before.current) key.2)).isSome,
      funext fun path => by rw [isLeft, before.target_eq]⟩
  rw [byComponents, distinctPaths_filter]

end Thinned

section Found

variable {store : FileStore} {settings : ScanSettings} {moduleRoot path : String}
  {paths : List String}

theorem exists_below_of_mem_sourceFiles (wellFormed : store.WellFormed) (named : store.tree.Named)
    (found : sourceFiles store settings moduleRoot = .ok paths) (inside : path ∈ paths) :
    ∃ base place, (base = sourceDirectory settings moduleRoot ∨ base = moduleRoot) ∧
      FileBelow store base place ∧ path = place.foldl push base := by
  obtain ⟨isDirectory, listable⟩ := listable_of_sourceFiles found
  rw [sourceFiles_eq wellFormed settings isDirectory listable] at found
  cases found
  have shown {base : String} {limit : Option Nat}
      (listed : path ∈ walkPaths store settings base limit) :
      ∃ place, FileBelow store base place ∧ path = place.foldl push base := by
    obtain ⟨places, ⟨-, complete⟩, shape⟩ := isWalk_walkPaths settings base wellFormed named limit
    rw [shape] at listed
    obtain ⟨place, there, rfl⟩ := List.mem_map.mp listed
    exact ⟨place, ((complete place).mp there).1, rfl⟩
  rcases List.mem_append.mp (mem_of_mem_distinctPaths inside) with deep | direct
  · obtain ⟨place, below, same⟩ := shown deep
    exact ⟨_, place, .inl rfl, below, same⟩
  · obtain ⟨place, below, same⟩ := shown direct
    exact ⟨_, place, .inr rfl, below, same⟩

theorem isSome_fileAt?_target (wellFormed : store.WellFormed) (named : store.tree.Named)
    (found : sourceFiles store settings moduleRoot = .ok paths) (inside : path ∈ paths) :
    (store.tree.fileAt? (store.target path)).isSome = true ∧ store.target path ≠ [] := by
  obtain ⟨base, place, -, below, rfl⟩ :=
    exists_below_of_mem_sourceFiles wellFormed named found inside
  obtain ⟨location, resolved, -, file⟩ := id below
  rw [FileStore.target_foldl_push resolved (below.names named)]
  exact ⟨file, fun none => below.ne_nil (List.append_eq_nil_iff.mp none).2⟩

theorem read_of_thins {after : FileStore} (thins : store.Thins after) (named : store.tree.Named)
    (found : sourceFiles store settings moduleRoot = .ok paths) (inside : path ∈ paths)
    (same : after.tree.fileAt? (store.target path) = store.tree.fileAt? (store.target path)) :
    after.read path = store.read path := by
  obtain ⟨base, place, -, below, rfl⟩ :=
    exists_below_of_mem_sourceFiles thins.wellFormed named found inside
  have proper := below.names named
  have some := below.ne_nil
  obtain ⟨location, resolved, isDirectory, file⟩ := below
  have resolvedAfter := (thins.resolve_iff.mpr ⟨resolved, isDirectory⟩).1
  obtain ⟨bytes, held⟩ := Option.isSome_iff_exists.mp file
  rw [FileStore.target_foldl_push resolved proper] at same
  rw [FileStore.read_below resolved proper some held,
    FileStore.read_below resolvedAfter proper some (same.trans held)]

theorem exists_read_error_of_thins {after : FileStore} (thins : store.Thins after)
    (named : store.tree.Named) (found : sourceFiles store settings moduleRoot = .ok paths)
    (inside : path ∈ paths) {bytes : ByteArray}
    (held : after.tree.fileAt? (store.target path) = some bytes)
    (garbled : String.fromUTF8? bytes = none) : ∃ cause, after.read path = .error cause := by
  obtain ⟨base, place, -, below, rfl⟩ :=
    exists_below_of_mem_sourceFiles thins.wellFormed named found inside
  have proper := below.names named
  have some := below.ne_nil
  obtain ⟨location, resolved, isDirectory, -⟩ := below
  have resolvedAfter := (thins.resolve_iff.mpr ⟨resolved, isDirectory⟩).1
  rw [FileStore.target_foldl_push resolved proper] at held
  rw [FileStore.read_below resolvedAfter proper some held, garbled]
  split
  · next cause _ => exact ⟨cause, rfl⟩
  · split
    · exact ⟨.notUnicode, rfl⟩
    · exact ⟨.nameTooLong, rfl⟩

/-- If the source directory does not lead out of the module, a path that is found has the components
of the module root and then the names on the way from there to its file. -/
theorem exists_names_of_target (wellFormed : store.WellFormed) (named : store.tree.Named)
    (relative : isAbsolute settings.sourceDirectory = false)
    (down : ".." ∉ parts settings.sourceDirectory)
    (found : sourceFiles store settings moduleRoot = .ok paths) (inside : path ∈ paths) :
    ∃ names, store.target path = store.target moduleRoot ++ names ∧
      components path = ((components moduleRoot).1, (components moduleRoot).2 ++ names) := by
  obtain ⟨base, place, which, below, rfl⟩ :=
    exists_below_of_mem_sourceFiles wellFormed named found inside
  obtain ⟨location, resolved, -⟩ := id below
  have leads : store.target base = location := (FileStore.eq_locate_of_resolve resolved).symm
  rw [FileStore.target_foldl_push resolved (below.names named), below.components named, ← leads]
  rcases which with rfl | rfl
  · obtain ⟨root, resolvedRoot, -⟩ :=
      FileStore.isDirectory_iff.mp (listable_of_sourceFiles found).1
    have nonempty := FileStore.ne_empty_of_accepted (FileStore.walk_parts_of_resolve resolvedRoot).1
    refine ⟨(parts settings.sourceDirectory).filter (· ≠ ".") ++ place, ?_, ?_⟩
    · rw [sourceDirectory, FileStore.target_push nonempty relative, locate_parts_of_down down,
        List.append_assoc]
    · rw [sourceDirectory, components_push nonempty relative, List.append_assoc]
  · exact ⟨place, rfl, rfl⟩

theorem components_eq_of_target_eq (wellFormed : store.WellFormed) (named : store.tree.Named)
    (relative : isAbsolute settings.sourceDirectory = false)
    (down : ".." ∉ parts settings.sourceDirectory)
    (found : sourceFiles store settings moduleRoot = .ok paths) {other : String}
    (inside : path ∈ paths) (otherInside : other ∈ paths)
    (same : store.target path = store.target other) : components path = components other := by
  obtain ⟨names, leads, shape⟩ :=
    exists_names_of_target wellFormed named relative down found inside
  obtain ⟨otherNames, otherLeads, otherShape⟩ :=
    exists_names_of_target wellFormed named relative down found otherInside
  rw [leads, otherLeads] at same
  rw [shape, otherShape, List.append_cancel_left same]

/-- Every file is found once, so a path that is found can be taken out of the list by where it
leads. -/
theorem exists_split_of_mem_sourceFiles (wellFormed : store.WellFormed) (named : store.tree.Named)
    (relative : isAbsolute settings.sourceDirectory = false)
    (down : ".." ∉ parts settings.sourceDirectory)
    (found : sourceFiles store settings moduleRoot = .ok paths) (inside : path ∈ paths) :
    ∃ front back, paths = front ++ path :: back ∧
      ∀ other ∈ front ++ back, store.target other ≠ store.target path := by
  obtain ⟨front, back, shape⟩ := List.append_of_mem inside
  refine ⟨front, back, shape, fun other listed same => ?_⟩
  have nodup : (paths.map components).Nodup := by
    obtain ⟨isDirectory, listable⟩ := listable_of_sourceFiles found
    rw [sourceFiles_eq wellFormed settings isDirectory listable] at found
    cases found
    exact nodup_components_distinctPaths _
  have otherInside : other ∈ paths := by
    rw [shape]
    exact (List.mem_append.mp listed).elim (List.mem_append_left _)
      fun later => List.mem_append_right _ (List.mem_cons_of_mem _ later)
  have repeated := components_eq_of_target_eq wellFormed named relative down found otherInside
    inside same
  rw [shape, List.map_append, List.map_cons, List.nodup_middle, List.nodup_cons,
    ← List.map_append] at nodup
  exact nodup.1 (repeated ▸ List.mem_map_of_mem listed)

end Found

end Discovery

end AmbientStubs
