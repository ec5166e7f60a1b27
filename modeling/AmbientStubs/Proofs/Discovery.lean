import AmbientStubs.Proofs.Discovery.Distinct
import AmbientStubs.Proofs.FileStore.Growth
import AmbientStubs.Proofs.FileTree.Listing

/-!
What is found in a module.  The listed files go by where the files of the module are, so a store
that has grown outside of a module shows the same files in it, and shows them under the same paths.
-/

namespace AmbientStubs

open PathText

namespace FileStore

variable {store : FileStore} {base : String} {location names : List String}

section Below

theorem nodeAt?_of_below {tree : FileTree} {name : String} {rest : List String}
    (there : (tree.nodeAt? (location ++ name :: rest)).isSome = true) :
    tree.nodeAt? location = some .directory := by
  apply Classical.byContradiction
  intro noDirectory
  rw [FileTree.nodeAt?_below noDirectory] at there
  cases there

theorem isSome_nodeAt?_of_file_below {tree : FileTree} {place : List String}
    (file : (tree.fileAt? (location ++ place)).isSome = true) :
    (tree.nodeAt? location).isSome = true := by
  have there : (tree.nodeAt? (location ++ place)).isSome = true :=
    Option.isSome_of_isSome_bind file
  cases place with
  | nil => rwa [List.append_nil] at there
  | cons name rest => rw [nodeAt?_of_below there, Option.isSome_some]

/-- Names that are there are followed, unless one of them is too long. -/
theorem walk_names {tree : FileTree} (proper : ∀ name ∈ names, IsName name)
    (there : (tree.nodeAt? (location ++ names)).isSome = true) :
    walk tree location names =
      if ∀ name ∈ names, name.utf8ByteSize ≤ longestName then .ok (location ++ names)
      else .error .nameTooLong := by
  induction names generalizing location with
  | nil => simp [walk]
  | cons name rest inductionHypothesis =>
      rw [List.forall_mem_cons] at proper
      have isDirectory := nodeAt?_of_below there
      have deeper : (tree.nodeAt? (location ++ [name] ++ rest)).isSome = true := by
        rwa [List.append_assoc, List.singleton_append]
      have present : (tree.nodeAt? (location ++ [name])).isSome = true := by
        cases rest with
        | nil => exact there
        | cons next more => rw [nodeAt?_of_below deeper, Option.isSome_some]
      rw [walk_cons_of_directory isDirectory,
        if_neg (by simp [proper.1.1, proper.1.2.1]), if_neg proper.1.2.2.1]
      by_cases long : longestName < name.utf8ByteSize
      · rw [if_pos long, if_neg]
        intro short
        exact Nat.not_lt.2 (short name List.mem_cons_self) long
      · rw [if_neg long, if_pos present, inductionHypothesis proper.2 deeper]
        simp only [List.forall_mem_cons, Nat.le_of_not_lt long, true_and, List.append_assoc,
          List.singleton_append]

theorem plain_of_names (proper : ∀ name ∈ names, IsName name) :
    ∀ name ∈ names, name ≠ "" ∧ '/' ∉ name.toList :=
  fun name inside => ⟨(proper name inside).1, (proper name inside).2.2.2⟩

theorem resolve_below (resolved : store.resolve base = .ok location)
    (plain : ∀ name ∈ names, name ≠ "" ∧ '/' ∉ name.toList) (some : names ≠ []) :
    store.resolve (names.foldl push base) =
      match refusal? (names.foldl push base) with
      | .some cause => .error cause
      | none => walk store.tree location names := by
  obtain ⟨accepted, walked⟩ := walk_parts_of_resolve resolved
  have start : store.start (names.foldl push base) = store.start base := by
    rw [FileStore.start, FileStore.start,
      isAbsolute_foldl_push_iff (ne_empty_of_accepted accepted) plain]
  cases refused : refusal? (names.foldl push base) with
  | some cause => rw [resolve, refused]
  | none =>
      rw [resolve_eq_walk refused (endsWith_foldl_push some plain), start,
        parts_foldl_push base plain, walk_append, walked]
      rfl

theorem eq_append_of_resolve_below (resolved : store.resolve base = .ok location)
    (proper : ∀ name ∈ names, IsName name) (some : names ≠ []) {reached : List String}
    (below : store.resolve (names.foldl push base) = .ok reached) :
    reached = location ++ names := by
  rw [resolve_below resolved (plain_of_names proper) some] at below
  split at below
  · cases below
  · rw [eq_locate_of_walk below, locate_names proper]

/-- What names below a path lead to does not depend on the store in which they are there. -/
theorem resolve_below_of_there (resolved : store.resolve base = .ok location)
    (proper : ∀ name ∈ names, IsName name) (some : names ≠ [])
    (there : (store.tree.nodeAt? (location ++ names)).isSome = true) :
    store.resolve (names.foldl push base) =
      match refusal? (names.foldl push base) with
      | .some cause => .error cause
      | none =>
          if ∀ name ∈ names, name.utf8ByteSize ≤ longestName then .ok (location ++ names)
          else .error .nameTooLong := by
  rw [resolve_below resolved (plain_of_names proper) some]
  cases refusal? (names.foldl push base) with
  | some cause => rfl
  | none => exact walk_names proper there

/-- What is read below a path goes by the content of the file alone. -/
theorem read_below (resolved : store.resolve base = .ok location)
    (proper : ∀ name ∈ names, IsName name) (some : names ≠ []) {bytes : ByteArray}
    (held : store.tree.fileAt? (location ++ names) = .some bytes) :
    store.read (names.foldl push base) =
      match refusal? (names.foldl push base) with
      | .some cause => .error cause
      | none =>
          if ∀ name ∈ names, name.utf8ByteSize ≤ longestName then
            match String.fromUTF8? bytes with
            | .some text => .ok text
            | none => .error .notUnicode
          else .error .nameTooLong := by
  have there : (store.tree.nodeAt? (location ++ names)).isSome = true :=
    Option.isSome_of_isSome_bind (Option.isSome_iff_exists.2 ⟨bytes, held⟩)
  have found := resolve_below_of_there resolved proper some there
  cases refused : refusal? (names.foldl push base) with
  | some cause =>
      rw [refused] at found
      simp only [read, found, bind, Except.bind]
  | none =>
      rw [refused] at found
      dsimp only at found ⊢
      split
      · next short => exact read_of_fileAt? (found.trans (if_pos short)) held
      · next long => simp only [read, found.trans (if_neg long), bind, Except.bind]

theorem refusal?_eq_none_iff {path : String} : refusal? path = none ↔
    '\x00' ∉ path.toList ∧ path ≠ "" ∧ path.utf8ByteSize ≤ longestPath := by
  rw [refusal?]
  by_cases nul : '\x00' ∈ path.toList
  · simp [nul]
  by_cases empty : path = ""
  · simp [empty]
  by_cases long : longestPath < path.utf8ByteSize
  · simp [nul, empty, long]
  · simp [nul, empty, long, Nat.le_of_not_lt long]

theorem refusal?_foldl_push (accepted : refusal? base = none)
    (clean : ∀ name ∈ names, '\x00' ∉ name.toList)
    (short : (names.foldl push base).utf8ByteSize ≤ longestPath)
    (plain : ∀ name ∈ names, name ≠ "" ∧ '/' ∉ name.toList) :
    refusal? (names.foldl push base) = none := by
  obtain ⟨cleanBase, nonempty, -⟩ := refusal?_eq_none_iff.1 accepted
  refine refusal?_eq_none_iff.2 ⟨fun nul => ?_, ?_, short⟩
  · rcases mem_toList_foldl_push (by decide) nul with inside | ⟨name, listed, inside⟩
    · exact cleanBase inside
    · exact clean name listed inside
  · rcases List.eq_nil_or_concat names with rfl | ⟨front, last, rfl⟩
    · exact nonempty
    · rw [List.concat_eq_append, List.foldl_append]
      exact push_ne_empty _ (plain last (by simp)).1

/-- Names that are there are found below a path, if all is short enough. -/
theorem resolve_below_of_short (resolved : store.resolve base = .ok location)
    (proper : ∀ name ∈ names, IsName name) (some : names ≠ [])
    (clean : ∀ name ∈ names, '\x00' ∉ name.toList ∧ name.utf8ByteSize ≤ longestName)
    (short : (names.foldl push base).utf8ByteSize ≤ longestPath)
    (there : (store.tree.nodeAt? (location ++ names)).isSome = true) :
    store.resolve (names.foldl push base) = .ok (location ++ names) := by
  rw [resolve_below_of_there resolved proper some there,
    refusal?_foldl_push (walk_parts_of_resolve resolved).1
      (fun name inside => (clean name inside).1) short (plain_of_names proper)]
  exact if_pos fun name inside => (clean name inside).2

theorem resolve_dots (resolved : store.resolve base = .ok location)
    (isDirectory : store.tree.nodeAt? location = some .directory) (count : Nat)
    (short : ((List.replicate count ".").foldl push base).utf8ByteSize ≤ longestPath) :
    store.resolve ((List.replicate count ".").foldl push base) = .ok location := by
  have plain : ∀ name ∈ List.replicate count ".", name ≠ "" ∧ '/' ∉ name.toList := by
    intro name inside
    rw [List.eq_of_mem_replicate inside]
    decide
  have clean : ∀ name ∈ List.replicate count ".", '\x00' ∉ name.toList := by
    intro name inside
    rw [List.eq_of_mem_replicate inside]
    decide
  have stays : walk store.tree location (List.replicate count ".") = .ok location := by
    clear short plain clean
    induction count with
    | zero => rfl
    | succ count inductionHypothesis =>
        rw [List.replicate_succ, walk_cons_of_directory isDirectory, if_pos (.inr rfl),
          inductionHypothesis]
  cases count with
  | zero => exact resolved
  | succ count =>
      rw [resolve_below resolved plain (by simp),
        refusal?_foldl_push (walk_parts_of_resolve resolved).1 clean short plain]
      exact stays

/-- Whether a path of names is the path of a file goes by what stands there. -/
theorem isFile_of_names {other : FileStore} {path : String} (absolute : isAbsolute path = true)
    (noSlash : Text.endsWith path "/" = false) (proper : ∀ name ∈ parts path, IsName name)
    (isFile : other.isFile path = true)
    (there : (store.tree.fileAt? (parts path)).isSome = true) : store.isFile path = true := by
  obtain ⟨location, resolved, file⟩ := isFile_iff.1 isFile
  obtain ⟨accepted, walked⟩ := walk_parts_of_resolve resolved
  have sameStart : store.start path = [] ∧ other.start path = [] :=
    ⟨start_of_isAbsolute absolute, start_of_isAbsolute absolute⟩
  have leads := eq_locate_of_walk walked
  rw [sameStart.2, locate_names proper, List.nil_append] at leads
  subst leads
  refine isFile_iff.2 ⟨parts path, ?_, there⟩
  have followed {tree : FileTree} (held : (tree.fileAt? (parts path)).isSome = true) :
      walk tree [] (parts path) = _ :=
    walk_names proper (Option.isSome_of_isSome_bind held)
  rw [sameStart.2, followed file] at walked
  rw [resolve_eq_walk accepted noSlash, sameStart.1, followed there, walked]

end Below

theorem isDirectory_iff : store.isDirectory base = true ↔
    ∃ location, store.resolve base = .ok location ∧
      store.tree.nodeAt? location = some .directory := by
  rw [isDirectory, get?]
  cases store.resolve base with
  | error cause => simp
  | ok location =>
      simp only [Except.ok.injEq, exists_eq_left', FileTree.nodeAt?]
      cases store.tree.lookup? location with
      | none => simp
      | some subtree => cases subtree <;> simp [FileTree.node]

theorem Grows.isDirectory {before after : FileStore} (grows : Grows before after)
    (isDirectory : before.isDirectory base = true) : after.isDirectory base = true := by
  obtain ⟨location, resolved, there⟩ := isDirectory_iff.1 isDirectory
  exact isDirectory_iff.2 ⟨location, grows.resolve resolved, grows.directory location there⟩

theorem named_ofTexts {texts : List (List String × String)}
    (proper : ∀ entry ∈ texts, ∀ name ∈ entry.1, IsName name) : (ofTexts texts).tree.Named := by
  have start : (FileStore.mk .empty []).tree.Named := FileTree.named_empty
  rw [ofTexts]
  generalize FileStore.mk .empty [] = store at start
  induction texts generalizing store with
  | nil => exact start
  | cons entry rest inductionHypothesis =>
      rw [List.forall_mem_cons] at proper
      exact inductionHypothesis proper.2 _ (start.insertAt (.file _) proper.1)

/-- A walk goes through a well-formed store as it is. -/
theorem listing?_eq_get? (wellFormed : store.WellFormed) (path : String) :
    store.listing? path = store.get? path := by
  rw [listing?, get?]
  cases store.resolve path with
  | error cause => rfl
  | ok location =>
      dsimp only
      cases found : store.tree.lookup? location with
      | none => rfl
      | some subtree =>
          rw [Option.map_some, (wellFormed.sorted.lookup? found).inOrder_eq]

/-- Where the files below a location are. -/
def placesAt (store : FileStore) (location : List String) : List (List String) :=
  ((store.tree.lookup? location).map FileTree.places).getD []

theorem mem_placesAt (wellFormed : store.WellFormed) {place : List String} :
    place ∈ store.placesAt location ↔
      (store.tree.fileAt? (location ++ place)).isSome = true := by
  rw [placesAt, FileTree.fileAt?, FileTree.nodeAt?_append]
  cases found : store.tree.lookup? location with
  | none => simp
  | some subtree => exact (wellFormed.sorted.lookup? found).mem_places

theorem ascending_placesAt (wellFormed : store.WellFormed) :
    (store.placesAt location).Pairwise (· < ·) := by
  rw [placesAt]
  cases found : store.tree.lookup? location with
  | none => exact .nil
  | some subtree => exact (wellFormed.sorted.lookup? found).pairwise_places

theorem placesAt_eq {before after : FileStore} (wellFormed : before.WellFormed)
    (wellFormedAfter : after.WellFormed)
    (same : ∀ place, (after.tree.fileAt? (location ++ place)).isSome =
      (before.tree.fileAt? (location ++ place)).isSome) :
    after.placesAt location = before.placesAt location := by
  refine (ascending_placesAt wellFormedAfter).eq_of_mem_iff (ascending_placesAt wellFormed)
    fun place => ?_
  rw [mem_placesAt wellFormedAfter, mem_placesAt wellFormed, same]

end FileStore

namespace Discovery

variable {store : FileStore} {settings : ScanSettings} {moduleRoot : String}
  {location : List String}

theorem filesOfModuleRoot_eq (wellFormed : store.WellFormed)
    (resolved : store.resolve moduleRoot = .ok location) :
    filesOfModuleRoot store moduleRoot = (store.placesAt location).filterMap fun place =>
      match place with
      | [name] => some (push moduleRoot name)
      | _ => none := by
  rw [filesOfModuleRoot, FileStore.listing?_eq_get? wellFormed, FileStore.get?, resolved,
    FileStore.placesAt]
  dsimp only
  cases store.tree.lookup? location with
  | none => rfl
  | some tree => exact FileTree.directFilePaths_eq moduleRoot tree

theorem filesOfSourceDirectory_eq (wellFormed : store.WellFormed) :
    filesOfSourceDirectory store settings moduleRoot =
      match store.resolve (sourceDirectory settings moduleRoot) with
      | .ok location => ((store.placesAt location).filter (· ≠ [])).map
          (·.foldl push (sourceDirectory settings moduleRoot))
      | .error _ => [] := by
  unfold filesOfSourceDirectory
  dsimp only
  rw [FileStore.listing?_eq_get? wellFormed, FileStore.get?]
  cases store.resolve (sourceDirectory settings moduleRoot) with
  | error cause => rfl
  | ok location =>
      dsimp only
      rw [FileStore.placesAt]
      cases store.tree.lookup? location with
      | none => rfl
      | some tree =>
          cases tree with
          | file content => rfl
          | directory entries =>
              have below : ∀ place ∈ (FileTree.directory entries).places, place ≠ [] := by
                rw [FileTree.places_directory]
                simp only [List.mem_flatMap, List.mem_map]
                rintro _ ⟨entry, -, deeper, -, rfl⟩
                exact List.cons_ne_nil _ _
              dsimp only [Option.map_some, Option.getD_some]
              rw [FileTree.entryFilePaths_eq, List.filter_eq_self.2]
              exact fun place inside => by simpa using below place inside

theorem sourceDirectory_default (moduleRoot : String) :
    sourceDirectory {} moduleRoot = ["src", "main"].foldl push moduleRoot := by
  have relative : ¬ isAbsolute "src/main" = true ∧ ¬ isAbsolute "src" = true := by decide
  have inner : push (push moduleRoot "src") "main" = push moduleRoot "src" ++ "/" ++ "main" :=
    push_eq (push_ne_empty moduleRoot (by decide)) (endsWith_push (by decide) (by decide))
      (by decide)
  show push moduleRoot "src/main" = push (push moduleRoot "src") "main"
  rw [inner, push, push, if_neg relative.1, if_neg relative.2]
  split <;> simp [String.append_assoc]

theorem listable_of_sourceFiles {paths : List String}
    (found : sourceFiles store settings moduleRoot = .ok paths) :
    store.isDirectory moduleRoot = true ∧ unlistable? store settings moduleRoot = none := by
  rw [sourceFiles] at found
  split at found
  · next isDirectory =>
      split at found
      · cases found
      · next listable => exact ⟨isDirectory, listable⟩
  · cases found

theorem exists_names_of_mem_sourceFiles (wellFormed : store.WellFormed)
    (resolved : store.resolve moduleRoot = .ok location) {paths : List String}
    (found : sourceFiles store {} moduleRoot = .ok paths) {path : String} (inside : path ∈ paths) :
    ∃ names, names ≠ [] ∧ names ≠ ["oh-package.json5"] ∧ path = names.foldl push moduleRoot ∧
      (store.tree.fileAt? (location ++ names)).isSome = true := by
  rw [sourceFiles] at found
  split at found
  · split at found
    · cases found
    · cases found
      obtain ⟨listed, isSource⟩ := List.mem_filter.1 (mem_of_mem_distinctPaths inside)
      rcases List.mem_append.1 listed with deep | direct
      · rw [filesOfSourceDirectory_eq wellFormed] at deep
        split at deep
        · next reached resolvedSource =>
            obtain ⟨place, inPlace, rfl⟩ := List.mem_map.1 deep
            obtain ⟨there, below⟩ := List.mem_filter.1 inPlace
            rw [sourceDirectory_default] at resolvedSource
            have reachedIs := FileStore.eq_append_of_resolve_below resolved
              (show ∀ name ∈ ["src", "main"], IsName name by decide) (by decide) resolvedSource
            rw [FileStore.mem_placesAt wellFormed, reachedIs, List.append_assoc] at there
            refine ⟨["src", "main"] ++ place, by simp, by simp, ?_, there⟩
            rw [sourceDirectory_default, List.foldl_append]
        · cases deep
      · rw [filesOfModuleRoot_eq wellFormed resolved, List.mem_filterMap] at direct
        obtain ⟨place, there, shown⟩ := direct
        split at shown
        · next name =>
            cases shown
            rw [FileStore.mem_placesAt wellFormed] at there
            refine ⟨[name], by simp, ?_, rfl, there⟩
            intro same
            cases same
            rw [hasSourceExtension, parts_push (by decide) (by decide),
              List.getLast?_concat] at isSource
            cases isSource
        · cases shown
  · cases found

/-- A directory that cannot be listed is the source directory or lies in it, and its path is too
long. -/
theorem exists_place_of_unlistable? (wellFormed : store.WellFormed) {listed : String}
    (found : unlistable? store settings moduleRoot = some listed) :
    FileStore.longestPath < listed.utf8ByteSize ∧
      ∃ reached names, store.resolve (sourceDirectory settings moduleRoot) = .ok reached ∧
        listed = names.foldl push (sourceDirectory settings moduleRoot) ∧
        store.tree.nodeAt? (reached ++ names) = some .directory := by
  unfold unlistable? at found
  dsimp only at found
  rw [FileStore.listing?_eq_get? wellFormed, FileStore.get?] at found
  cases below : store.resolve (sourceDirectory settings moduleRoot) with
  | error cause =>
      rw [below] at found
      cases found
  | ok reached =>
      rw [below] at found
      dsimp only at found
      split at found
      · next tree looked =>
          obtain ⟨names, isDirectory, same⟩ :=
            (wellFormed.sorted.lookup? looked).mem_directoryPaths.1
              (List.mem_of_find?_eq_some found)
          refine ⟨by simpa using List.find?_some found, reached, names, rfl, same, ?_⟩
          rw [FileTree.nodeAt?_append, looked]
          exact isDirectory
      · cases found

theorem exists_names_of_unlistable? (wellFormed : store.WellFormed)
    (resolved : store.resolve moduleRoot = .ok location) {listed : String}
    (found : unlistable? store {} moduleRoot = some listed) :
    FileStore.longestPath < listed.utf8ByteSize ∧
      store.resolve (sourceDirectory {} moduleRoot) = .ok (location ++ ["src", "main"]) ∧
      ∃ names, listed = names.foldl push (sourceDirectory {} moduleRoot) ∧
        store.tree.nodeAt? (location ++ ["src", "main"] ++ names) = some .directory := by
  obtain ⟨long, reached, names, below, same, isDirectory⟩ :=
    exists_place_of_unlistable? wellFormed found
  obtain rfl : reached = location ++ ["src", "main"] :=
    FileStore.eq_append_of_resolve_below resolved (by decide) (by decide)
      (by rwa [← sourceDirectory_default])
  exact ⟨long, below, names, same, isDirectory⟩

theorem unlistable?_ne_none (wellFormed : store.WellFormed)
    (resolved : store.resolve (sourceDirectory settings moduleRoot) = .ok location)
    {names : List String} (isDirectory : store.tree.nodeAt? (location ++ names) = some .directory)
    (long : FileStore.longestPath <
      (names.foldl push (sourceDirectory settings moduleRoot)).utf8ByteSize) :
    unlistable? store settings moduleRoot ≠ none := by
  rw [FileTree.nodeAt?_append, Option.bind_eq_some_iff] at isDirectory
  obtain ⟨tree, looked, isDirectory⟩ := isDirectory
  intro none
  unfold unlistable? at none
  dsimp only at none
  rw [FileStore.listing?_eq_get? wellFormed, FileStore.get?, resolved] at none
  dsimp only at none
  rw [looked] at none
  have listed : names.foldl push (sourceDirectory settings moduleRoot) ∈
      tree.directoryPaths (sourceDirectory settings moduleRoot) :=
    (wellFormed.sorted.lookup? looked).mem_directoryPaths.2 ⟨names, isDirectory, rfl⟩
  exact absurd long (by simpa using List.find?_eq_none.1 none _ listed)

/-- A directory that cannot be listed any more was made in between. -/
theorem exists_made_of_unlistable? {allowed : List String → Prop} {before after : FileStore}
    (wellFormed : before.WellFormed) (builds : before.Builds allowed after)
    (resolved : before.resolve moduleRoot = .ok location)
    (listable : unlistable? before {} moduleRoot = none) {listed : String}
    (found : unlistable? after {} moduleRoot = some listed) :
    FileStore.longestPath < listed.utf8ByteSize ∧
      ∃ names, allowed (location ++ ["src", "main"] ++ names) := by
  obtain ⟨long, resolvedAfter, names, rfl, isDirectory⟩ :=
    exists_names_of_unlistable? (builds.wellFormed wellFormed) (builds.grows.resolve resolved) found
  refine ⟨long, names, (builds.directories _ isDirectory).resolve_left fun already => ?_⟩
  have there : (before.tree.nodeAt? (location ++ ["src", "main"])).isSome = true := by
    cases names with
    | nil => rw [← List.append_nil (location ++ _), already, Option.isSome_some]
    | cons name rest =>
        rw [FileStore.nodeAt?_of_below (by rw [already, Option.isSome_some]), Option.isSome_some]
  refine unlistable?_ne_none wellFormed ?_ already long listable
  have proper : ∀ name ∈ ["src", "main"], IsName name := by decide
  rw [sourceDirectory_default] at resolvedAfter ⊢
  rw [← resolvedAfter, FileStore.resolve_below_of_there resolved proper (by decide) there,
    FileStore.resolve_below_of_there (builds.grows.resolve resolved) proper (by decide)
      (builds.grows.isSome_nodeAt? there)]

/-- A store has grown, but the module at a location has the same files as before, with the same
content except for its manifest. -/
structure KeepsModule (manifestName : String) (location : List String)
    (before after : FileStore) : Prop where
  wellFormed : before.WellFormed
  wellFormedAfter : after.WellFormed
  grows : before.Grows after
  files : ∀ file, location <+: file → file ≠ location ++ [manifestName] →
    after.tree.fileAt? file = before.tree.fileAt? file
  manifest : (after.tree.fileAt? (location ++ [manifestName])).isSome =
    (before.tree.fileAt? (location ++ [manifestName])).isSome

namespace KeepsModule

variable {manifestName : String} {before after : FileStore}

theorem isSome_fileAt? (keeps : KeepsModule manifestName location before after)
    (place : List String) : (after.tree.fileAt? (location ++ place)).isSome =
      (before.tree.fileAt? (location ++ place)).isSome := by
  by_cases manifest : location ++ place = location ++ [manifestName]
  · rw [manifest]
    exact keeps.manifest
  · rw [keeps.files _ (List.prefix_append location place) manifest]

theorem filesOfModuleRoot (keeps : KeepsModule manifestName location before after)
    (resolved : before.resolve moduleRoot = .ok location) :
    Discovery.filesOfModuleRoot after moduleRoot =
      Discovery.filesOfModuleRoot before moduleRoot := by
  rw [filesOfModuleRoot_eq keeps.wellFormed resolved,
    filesOfModuleRoot_eq keeps.wellFormedAfter (keeps.grows.resolve resolved),
    FileStore.placesAt_eq keeps.wellFormed keeps.wellFormedAfter keeps.isSome_fileAt?]

/-- The source directory of a module shows the same files, even if it was made in between. -/
theorem filesOfSourceDirectory (keeps : KeepsModule manifestName location before after)
    (resolved : before.resolve moduleRoot = .ok location) :
    Discovery.filesOfSourceDirectory after {} moduleRoot =
      Discovery.filesOfSourceDirectory before {} moduleRoot := by
  have same (place : List String) := keeps.isSome_fileAt? (["src", "main"] ++ place)
  simp only [← List.append_assoc] at same
  have names : ∀ name ∈ ["src", "main"], IsName name := by decide
  rw [filesOfSourceDirectory_eq keeps.wellFormed, filesOfSourceDirectory_eq keeps.wellFormedAfter]
  have resolvedAfter := FileStore.resolve_below (keeps.grows.resolve resolved)
    (FileStore.plain_of_names names) (by decide)
  have resolvedBefore := FileStore.resolve_below resolved (FileStore.plain_of_names names)
    (by decide)
  rw [← sourceDirectory_default] at resolvedAfter resolvedBefore
  rw [resolvedAfter, resolvedBefore]
  cases FileStore.refusal? (sourceDirectory {} moduleRoot) with
  | some cause => rfl
  | none =>
      dsimp only
      cases walked : FileStore.walk before.tree location ["src", "main"] with
      | ok reached =>
          rw [keeps.grows.walk walked]
          have reachedIs := FileStore.eq_locate_of_walk walked
          rw [locate_names names] at reachedIs
          rw [reachedIs]
          dsimp only
          rw [FileStore.placesAt_eq keeps.wellFormed keeps.wellFormedAfter same]
      | error cause =>
          cases walkedAfter : FileStore.walk after.tree location ["src", "main"] with
          | error other => rfl
          | ok reached =>
              have reachedIs := FileStore.eq_locate_of_walk walkedAfter
              rw [locate_names names] at reachedIs
              have nothing : after.placesAt reached = [] := by
                refine List.eq_nil_iff_forall_not_mem.2 fun place inside => ?_
                rw [FileStore.mem_placesAt keeps.wellFormedAfter, reachedIs, same] at inside
                rw [FileStore.walk_names names (FileStore.isSome_nodeAt?_of_file_below inside),
                  if_pos (by decide)] at walked
                cases walked
              dsimp only
              rw [nothing]
              rfl

/-- The same source files are found, if they still can be listed. -/
theorem sourceFiles (keeps : KeepsModule manifestName location before after)
    (resolved : before.resolve moduleRoot = .ok location) {paths : List String}
    (found : Discovery.sourceFiles before {} moduleRoot = .ok paths) :
    Discovery.sourceFiles after {} moduleRoot =
      match unlistable? after {} moduleRoot with
      | some listed => .error (.unlistable (sourceDirectory {} moduleRoot) listed .nameTooLong)
      | none => .ok paths := by
  obtain ⟨isDirectory, listable⟩ := listable_of_sourceFiles found
  rw [Discovery.sourceFiles, if_pos isDirectory, listable] at found
  rw [Discovery.sourceFiles, if_pos (keeps.grows.isDirectory isDirectory),
    keeps.filesOfSourceDirectory resolved, keeps.filesOfModuleRoot resolved]
  cases unlistable? after {} moduleRoot with
  | some listed => rfl
  | none => exact found

theorem read (keeps : KeepsModule "oh-package.json5" location before after)
    (named : before.tree.Named) (resolved : before.resolve moduleRoot = .ok location)
    {paths : List String} (found : Discovery.sourceFiles before {} moduleRoot = .ok paths)
    {path : String} (inside : path ∈ paths) : after.read path = before.read path := by
  obtain ⟨names, some, noManifest, rfl, file⟩ :=
    exists_names_of_mem_sourceFiles keeps.wellFormed resolved found inside
  have content : after.tree.fileAt? (location ++ names) = before.tree.fileAt? (location ++ names) :=
    keeps.files _ (List.prefix_append location names) (by simpa using noManifest)
  have there : (before.tree.nodeAt? (location ++ names)).isSome = true :=
    Option.isSome_of_isSome_bind file
  have proper : ∀ name ∈ names, IsName name := fun name inside =>
    named.names there name (List.mem_append_right location inside)
  obtain ⟨bytes, held⟩ := Option.isSome_iff_exists.1 file
  rw [FileStore.read_below resolved proper some held,
    FileStore.read_below (keeps.grows.resolve resolved) proper some (content.trans held)]

end KeepsModule

end Discovery

end AmbientStubs
