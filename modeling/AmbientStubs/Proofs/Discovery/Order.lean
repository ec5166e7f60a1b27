import AmbientStubs.Proofs.PathText.Components
import AmbientStubs.Proofs.Run.Repetition
import AmbientStubs.Proofs.Text.ByteOrder

/-!
What discovery lists, and in which order: the source files below the source directory, depth first
and by ascending name, then those of the module root that are not listed yet.
-/

namespace AmbientStubs.Discovery

open PathText

def IsSource (settings : ScanSettings) (name : String) : Prop :=
  ∃ stem extension, stem ≠ "" ∧ '.' ∉ extension.toList ∧ name = stem ++ "." ++ extension ∧
    extension ∈ settings.extensions

/-- One place comes before another in a depth-first walk: in the directory where the ways to them
part, its way goes on with the smaller name, compared byte by byte. -/
def WalkedBefore (first second : List String) : Prop :=
  ∃ common name other rest more, first = common ++ name :: rest ∧
    second = common ++ other :: more ∧ Text.bytes name < Text.bytes other

def FileBelow (store : FileStore) (base : String) (place : List String) : Prop :=
  ∃ location, store.resolve base = .ok location ∧
    store.tree.nodeAt? location = some .directory ∧
    (store.tree.fileAt? (location ++ place)).isSome = true

namespace FileBelow

variable {store : FileStore} {base : String} {place : List String}

theorem ne_nil (below : FileBelow store base place) : place ≠ [] := by
  rintro rfl
  obtain ⟨location, -, isDirectory, file⟩ := below
  rw [List.append_nil, FileTree.fileAt?, isDirectory] at file
  cases file

theorem names (named : store.tree.Named) (below : FileBelow store base place) :
    ∀ name ∈ place, IsName name := by
  obtain ⟨location, -, -, file⟩ := below
  intro name inside
  exact named.names (Option.isSome_of_isSome_bind file) name (List.mem_append_right location inside)

theorem components (named : store.tree.Named) (below : FileBelow store base place) :
    PathText.components (place.foldl push base) =
      ((PathText.components base).1, (PathText.components base).2 ++ place) := by
  have proper := below.names named
  obtain ⟨location, resolved, -⟩ := below
  exact components_foldl_push
    (FileStore.ne_empty_of_accepted (FileStore.walk_parts_of_resolve resolved).1) proper

end FileBelow

/-- The places of the source files below a path, down to a depth if there is a limit, in the order
of a depth-first walk. -/
structure WalkedPlaces (store : FileStore) (settings : ScanSettings) (base : String)
    (limit : Option Nat) (places : List (List String)) : Prop where
  ordered : places.Pairwise WalkedBefore
  complete : ∀ place, place ∈ places ↔ FileBelow store base place ∧
    (∀ depth ∈ limit, place.length ≤ depth) ∧ ∃ name ∈ place.getLast?, IsSource settings name

/-- The paths that a walk of the directory at a path shows; none if there is no directory. -/
def IsWalk (store : FileStore) (settings : ScanSettings) (base : String) (limit : Option Nat)
    (paths : List String) : Prop :=
  ∃ places, WalkedPlaces store settings base limit places ∧ paths = places.map (·.foldl push base)

/-- Every directory in or below the one that a path names has a path that is short enough. -/
def Listable (store : FileStore) (base : String) : Prop :=
  ∀ location place, store.resolve base = .ok location →
    store.tree.nodeAt? (location ++ place) = some .directory →
    (place.foldl push base).utf8ByteSize ≤ FileStore.longestPath

section Places

variable {store : FileStore} {settings : ScanSettings} {base : String} {location : List String}

/-- Of two files below a location the one with the smaller place is walked before the other. -/
theorem walkedBefore_of_lt {tree : FileTree} {first second : List String}
    (file : (tree.fileAt? (location ++ first)).isSome = true)
    (there : (tree.nodeAt? (location ++ second)).isSome = true) (less : first < second) :
    WalkedBefore first second := by
  induction first generalizing location second with
  | nil =>
      cases second with
      | nil => exact absurd less (List.lt_irrefl [])
      | cons name rest =>
          rw [List.append_nil, FileTree.fileAt?, FileStore.nodeAt?_of_below there] at file
          cases file
  | cons name rest inductionHypothesis =>
      cases second with
      | nil => exact absurd less (List.not_lt_nil _)
      | cons other more =>
          rcases List.cons_lt_cons_iff.mp less with smaller | ⟨rfl, later⟩
          · exact ⟨[], name, other, rest, more, rfl, rfl, Text.lt_iff_bytes_lt.mp smaller⟩
          · rw [← List.singleton_append, ← List.append_assoc] at file there
            obtain ⟨common, first, second, behind, behindOther, rfl, rfl, smaller⟩ :=
              inductionHypothesis file there later
            exact ⟨name :: common, first, second, behind, behindOther, rfl, rfl, smaller⟩

theorem WalkedBefore.ne {first second : List String} (before : WalkedBefore first second) :
    first ≠ second := by
  rintro rfl
  obtain ⟨common, name, other, rest, more, shape, again, smaller⟩ := before
  rw [shape] at again
  obtain ⟨rfl, -⟩ := List.cons.inj (List.append_cancel_left again)
  exact List.lt_irrefl _ smaller

theorem isSource_iff {name : String} : IsSource settings name ↔
    ∃ extension ∈ extension? name, extension ∈ settings.extensions := by
  constructor
  · rintro ⟨stem, extension, nonempty, plain, shape, configured⟩
    exact ⟨extension, extension?_eq_some_iff.mpr ⟨plain, stem, nonempty, shape⟩, configured⟩
  · rintro ⟨extension, found, configured⟩
    obtain ⟨plain, stem, nonempty, shape⟩ := extension?_eq_some_iff.mp found
    exact ⟨stem, extension, nonempty, plain, shape, configured⟩

theorem hasSourceExtension_foldl_push (settings : ScanSettings) (base : String)
    {place : List String} (plain : ∀ name ∈ place, name ≠ "" ∧ '/' ∉ name.toList)
    (some : place ≠ []) :
    hasSourceExtension settings (place.foldl push base) = true ↔
      ∃ name ∈ place.getLast?, IsSource settings name := by
  obtain ⟨name, last⟩ := Option.ne_none_iff_exists'.mp (mt List.getLast?_eq_none_iff.mp some)
  have shown : (parts (place.foldl push base)).getLast? = .some name := by
    rw [parts_foldl_push base plain, List.getLast?_append_of_ne_nil _ some, last]
  rw [hasSourceExtension, shown, Option.bind_some, last]
  simp only [Option.mem_some_iff, exists_eq_left', isSource_iff]
  cases extension? name with
  | none => simp
  | some extension => simp

def sourcePlaces (store : FileStore) (settings : ScanSettings) (base : String) (limit : Option Nat)
    (location : List String) : List (List String) :=
  (store.placesAt location).filter fun place =>
    decide (place ≠ [] ∧ ∀ depth ∈ limit, place.length ≤ depth) &&
      hasSourceExtension settings (place.foldl push base)

theorem walkedPlaces_sourcePlaces (wellFormed : store.WellFormed) (named : store.tree.Named)
    (resolved : store.resolve base = .ok location)
    (isDirectory : store.tree.nodeAt? location = some .directory) (limit : Option Nat) :
    WalkedPlaces store settings base limit (sourcePlaces store settings base limit location) := by
  constructor
  · refine ((FileStore.ascending_placesAt wellFormed).filter _).imp_of_mem ?_
    intro first second inFirst inSecond less
    have file {place : List String} (inside : place ∈ sourcePlaces store settings base limit
        location) : (store.tree.fileAt? (location ++ place)).isSome = true :=
      (FileStore.mem_placesAt wellFormed).mp (List.mem_of_mem_filter inside)
    exact walkedBefore_of_lt (file inFirst) (Option.isSome_of_isSome_bind (file inSecond)) less
  · intro place
    have isSource_iff (below : FileBelow store base place) :=
      hasSourceExtension_foldl_push settings base (FileStore.plain_of_names (below.names named))
        below.ne_nil
    rw [sourcePlaces, List.mem_filter, FileStore.mem_placesAt wellFormed, Bool.and_eq_true,
      decide_eq_true_eq]
    constructor
    · rintro ⟨file, ⟨-, shallow⟩, isSource⟩
      have below : FileBelow store base place := ⟨location, resolved, isDirectory, file⟩
      exact ⟨below, shallow, (isSource_iff below).mp isSource⟩
    · rintro ⟨below, shallow, isSource⟩
      obtain ⟨reached, leads, -, file⟩ := id below
      obtain rfl : location = reached := by simpa [resolved] using leads
      exact ⟨file, ⟨below.ne_nil, shallow⟩, (isSource_iff below).mpr isSource⟩

def walkPaths (store : FileStore) (settings : ScanSettings) (base : String) (limit : Option Nat) :
    List String :=
  match store.resolve base with
  | .ok location => (sourcePlaces store settings base limit location).map (·.foldl push base)
  | .error _ => []

theorem walkPaths_eq_nil (wellFormed : store.WellFormed)
    (noDirectory : store.isDirectory base = false) (limit : Option Nat) :
    walkPaths store settings base limit = [] := by
  rw [walkPaths]
  cases resolved : store.resolve base with
  | error cause => rfl
  | ok location =>
      have bare : store.tree.nodeAt? location ≠ some .directory := fun isDirectory => by
        rw [FileStore.isDirectory_iff.mpr ⟨location, resolved, isDirectory⟩] at noDirectory
        cases noDirectory
      dsimp only
      rw [sourcePlaces, List.map_eq_nil_iff, List.filter_eq_nil_iff]
      -- The only place that is left is the empty one, that of a regular file.
      intro place inside
      rw [FileStore.mem_placesAt wellFormed, FileTree.fileAt?] at inside
      cases place with
      | nil => simp
      | cons name rest =>
          rw [FileTree.nodeAt?_below bare] at inside
          cases inside

theorem isWalk_walkPaths (settings : ScanSettings) (base : String) (wellFormed : store.WellFormed)
    (named : store.tree.Named) (limit : Option Nat) :
    IsWalk store settings base limit (walkPaths store settings base limit) := by
  cases isDirectory : store.isDirectory base with
  | true =>
      obtain ⟨location, resolved, isDirectory⟩ := FileStore.isDirectory_iff.mp isDirectory
      rw [walkPaths, resolved]
      exact ⟨_, walkedPlaces_sourcePlaces wellFormed named resolved isDirectory limit, rfl⟩
  | false =>
      rw [walkPaths_eq_nil wellFormed isDirectory]
      refine ⟨[], ⟨.nil, fun place => ⟨fun inside => absurd inside List.not_mem_nil, ?_⟩⟩, rfl⟩
      rintro ⟨⟨location, resolved, there, -⟩, -⟩
      rw [FileStore.isDirectory_iff.mpr ⟨location, resolved, there⟩] at isDirectory
      cases isDirectory

theorem nodup_components_of_isWalk (named : store.tree.Named) {limit : Option Nat}
    {paths : List String} (walked : IsWalk store settings base limit paths) :
    (paths.map components).Nodup := by
  obtain ⟨places, ⟨ordered, complete⟩, rfl⟩ := walked
  rw [List.map_map]
  refine List.Pairwise.map _ ?_ (ordered.imp_of_mem ?_ : places.Pairwise fun first second =>
    components (first.foldl push base) ≠ components (second.foldl push base))
  · exact fun first second => id
  · intro first second inFirst inSecond before
    rw [((complete first).mp inFirst).1.components named,
      ((complete second).mp inSecond).1.components named]
    intro same
    exact before.ne (List.append_cancel_left (Prod.mk.inj same).2)

end Places

section Listing

variable {store : FileStore} {settings : ScanSettings} {moduleRoot : String}

theorem filter_filesOfSourceDirectory (wellFormed : store.WellFormed) (settings : ScanSettings)
    (moduleRoot : String) :
    (filesOfSourceDirectory store settings moduleRoot).filter (hasSourceExtension settings) =
      walkPaths store settings (sourceDirectory settings moduleRoot) none := by
  rw [filesOfSourceDirectory_eq wellFormed, walkPaths]
  cases store.resolve (sourceDirectory settings moduleRoot) with
  | error cause => rfl
  | ok location =>
      dsimp only
      rw [sourcePlaces, List.filter_map, List.filter_filter]
      congr 2
      funext place
      simp [Bool.and_comm]

theorem filter_filesOfModuleRoot (wellFormed : store.WellFormed) (settings : ScanSettings)
    (isDirectory : store.isDirectory moduleRoot = true) :
    (filesOfModuleRoot store moduleRoot).filter (hasSourceExtension settings) =
      walkPaths store settings moduleRoot (some 1) := by
  obtain ⟨location, resolved, -⟩ := FileStore.isDirectory_iff.mp isDirectory
  rw [filesOfModuleRoot_eq wellFormed resolved, walkPaths, resolved]
  dsimp only
  rw [sourcePlaces]
  induction store.placesAt location with
  | nil => rfl
  | cons place rest inductionHypothesis =>
      match place with
      | [] => simpa using inductionHypothesis
      | [name] =>
          cases isSource : hasSourceExtension settings (push moduleRoot name) with
          | true => simpa [isSource] using inductionHypothesis
          | false => simpa [isSource] using inductionHypothesis
      | name :: other :: more => simpa using inductionHypothesis

theorem sourceFiles_eq (wellFormed : store.WellFormed) (settings : ScanSettings)
    (isDirectory : store.isDirectory moduleRoot = true)
    (listable : unlistable? store settings moduleRoot = none) :
    sourceFiles store settings moduleRoot =
      .ok (distinctPaths (walkPaths store settings (sourceDirectory settings moduleRoot) none ++
        walkPaths store settings moduleRoot (some 1))) := by
  rw [sourceFiles, if_pos isDirectory, listable]
  dsimp only
  rw [List.filter_append, filter_filesOfSourceDirectory wellFormed,
    filter_filesOfModuleRoot wellFormed _ isDirectory]

theorem unlistable?_eq_none_iff (wellFormed : store.WellFormed) :
    unlistable? store settings moduleRoot = none ↔
      Listable store (sourceDirectory settings moduleRoot) := by
  constructor
  · intro listable location place resolved isDirectory
    apply Classical.byContradiction
    intro long
    exact unlistable?_ne_none wellFormed resolved isDirectory (Nat.lt_of_not_le long) listable
  · intro listable
    apply Classical.byContradiction
    intro some
    obtain ⟨listed, found⟩ := Option.ne_none_iff_exists'.mp some
    obtain ⟨long, location, place, resolved, rfl, isDirectory⟩ :=
      exists_place_of_unlistable? wellFormed found
    exact Nat.not_le.mpr long (listable location place resolved isDirectory)

/-- Discovery shows the walk of the source directory and then the files of the module root that the
walk did not show under the same components, each file once and nothing else.  It fails only at a
directory whose path is too long to list it. -/
theorem sourceFiles_are_the_two_walks (settings : ScanSettings) (wellFormed : store.WellFormed)
    (named : store.tree.Named) (isDirectory : store.isDirectory moduleRoot = true) :
    (Listable store (sourceDirectory settings moduleRoot) →
      ∃ deep direct paths,
        IsWalk store settings (sourceDirectory settings moduleRoot) none deep ∧
        IsWalk store settings moduleRoot (some 1) direct ∧
        sourceFiles store settings moduleRoot = .ok paths ∧
        paths = deep ++ (direct.filter fun path =>
          ∀ earlier ∈ deep, components earlier ≠ components path) ∧
        (∀ path ∈ deep ++ direct, ∃ listed ∈ paths, components listed = components path) ∧
        (∀ listed ∈ paths, listed ∈ deep ++ direct) ∧
        (paths.map components).Nodup) ∧
    (¬ Listable store (sourceDirectory settings moduleRoot) →
      ∃ location place,
        store.resolve (sourceDirectory settings moduleRoot) = .ok location ∧
        store.tree.nodeAt? (location ++ place) = some .directory ∧
        FileStore.longestPath <
          (place.foldl push (sourceDirectory settings moduleRoot)).utf8ByteSize ∧
        sourceFiles store settings moduleRoot =
          .error (.unlistable (sourceDirectory settings moduleRoot)
            (place.foldl push (sourceDirectory settings moduleRoot)) .nameTooLong)) := by
  rw [← unlistable?_eq_none_iff wellFormed]
  constructor
  · intro listable
    have deepWalk :=
      isWalk_walkPaths settings (sourceDirectory settings moduleRoot) wellFormed named none
    have directWalk := isWalk_walkPaths settings moduleRoot wellFormed named (some 1)
    have shape := distinctPaths_append (nodup_components_of_isWalk named deepWalk)
      (nodup_components_of_isWalk named directWalk)
    refine ⟨_, _, _, deepWalk, directWalk,
      sourceFiles_eq wellFormed settings isDirectory listable, shape, ?_,
      fun listed => mem_of_mem_distinctPaths, nodup_components_distinctPaths _⟩
    intro path inside
    rw [shape]
    by_cases shown : ∃ earlier ∈
        walkPaths store settings (sourceDirectory settings moduleRoot) none,
        components earlier = components path
    · obtain ⟨earlier, listed, same⟩ := shown
      exact ⟨earlier, List.mem_append_left _ listed, same⟩
    · have fresh (earlier : String)
          (listed : earlier ∈ walkPaths store settings (sourceDirectory settings moduleRoot) none) :
          components earlier ≠ components path := fun same => shown ⟨earlier, listed, same⟩
      have isDirect := (List.mem_append.mp inside).resolve_left fun listed => fresh path listed rfl
      exact ⟨path, List.mem_append_right _ (List.mem_filter.mpr ⟨isDirect, by simpa using fresh⟩),
        rfl⟩
  · intro unlistable
    obtain ⟨listed, found⟩ := Option.ne_none_iff_exists'.mp unlistable
    obtain ⟨long, location, place, resolved, rfl, tooDeep⟩ :=
      exists_place_of_unlistable? wellFormed found
    refine ⟨location, place, resolved, tooDeep, long, ?_⟩
    rw [sourceFiles, if_pos isDirectory, found]

/-- A module in which the walk shows the files in an order that is not the one of their paths. -/
def pagesModule : FileStore :=
  .ofTexts [(["ws", "entry", "Index.ets"], ""), (["ws", "entry", "notes.txt"], ""),
    (["ws", "entry", "pages-old.ts"], ""), (["ws", "entry", "pages", "Home.ets"], "")]

/-- With the module root as source directory every file is met in both walks but listed once. -/
theorem sourceFiles_pagesModule :
    ∃ deep direct paths,
      IsWalk pagesModule { sourceDirectory := "./" } "/ws/entry/./" none deep ∧
      IsWalk pagesModule { sourceDirectory := "./" } "/ws/entry" (some 1) direct ∧
      sourceFiles pagesModule { sourceDirectory := "./" } "/ws/entry" = .ok paths ∧
      paths = ["/ws/entry/./Index.ets", "/ws/entry/./pages/Home.ets",
        "/ws/entry/./pages-old.ts"] ∧
      (∀ path ∈ deep ++ direct, ∃ listed ∈ paths, components listed = components path) := by
  have wellFormed : pagesModule.WellFormed := FileStore.wellFormed_ofTexts _
  have listable : Listable pagesModule (sourceDirectory { sourceDirectory := "./" } "/ws/entry") :=
    (unlistable?_eq_none_iff wellFormed).mp (by decide +kernel)
  obtain ⟨deep, direct, paths, deepWalk, directWalk, found, -, complete, -⟩ :=
    (sourceFiles_are_the_two_walks { sourceDirectory := "./" } wellFormed
      (FileStore.named_ofTexts (by decide)) (by decide +kernel)).1 listable
  have listed : sourceFiles pagesModule { sourceDirectory := "./" } "/ws/entry" =
      .ok ["/ws/entry/./Index.ets", "/ws/entry/./pages/Home.ets", "/ws/entry/./pages-old.ts"] := by
    decide +kernel
  rw [found] at listed
  exact ⟨deep, direct, paths, deepWalk, directWalk, found, Except.ok.inj listed, complete⟩

def assetsModule : FileStore :=
  .ofTexts [(["ws", "entry", "src", "main", "a.ets"], ""),
    (["ws", "entry", "src", "main", "components", "notes.txt"], "")]

/-- Under a long path of the module the directory cannot be listed, and the source file next to it
is not found either. -/
theorem sourceFiles_assetsModule_fails :
    assetsModule.WellFormed ∧ assetsModule.tree.Named ∧
    isAbsolute (ScanSettings.sourceDirectory {}) = false ∧
    assetsModule.isDirectory (Run.dottedRoot 2035) = true ∧
    FileBelow assetsModule (sourceDirectory {} (Run.dottedRoot 2035)) ["a.ets"] ∧
    ∀ paths, sourceFiles assetsModule {} (Run.dottedRoot 2035) ≠ .ok paths := by
  have wellFormed : assetsModule.WellFormed := FileStore.wellFormed_ofTexts _
  have resolved : assetsModule.resolve (Run.dottedRoot 2035) = .ok ["ws", "entry"] :=
    Run.resolve_dottedRoot (by decide +kernel) rfl (by decide)
  have resolvedSources : assetsModule.resolve (sourceDirectory {} (Run.dottedRoot 2035)) =
      .ok ["ws", "entry", "src", "main"] := by
    rw [sourceDirectory_default]
    exact FileStore.resolve_below_of_short resolved (by decide) (by decide) (by decide)
      ((Run.utf8ByteSize_foldl_dottedRoot (by decide) 2035).trans_le (by decide)) rfl
  have long : FileStore.longestPath <
      (["components"].foldl push (sourceDirectory {} (Run.dottedRoot 2035))).utf8ByteSize := by
    rw [sourceDirectory_default, ← List.foldl_append]
    exact (show _ < _ by decide).trans_eq (Run.utf8ByteSize_foldl_dottedRoot (by decide) 2035).symm
  refine ⟨wellFormed, FileStore.named_ofTexts (by decide), by decide,
    FileStore.isDirectory_iff.mpr ⟨_, resolved, rfl⟩, ⟨_, resolvedSources, rfl, rfl⟩, ?_⟩
  intro paths found
  exact unlistable?_ne_none wellFormed resolvedSources rfl long (listable_of_sourceFiles found).2

end Listing

end AmbientStubs.Discovery
