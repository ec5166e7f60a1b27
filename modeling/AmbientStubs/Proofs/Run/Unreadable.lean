import AmbientStubs.Proofs.Discovery.Thinning
import AmbientStubs.Proofs.FileStore.Removal
import AmbientStubs.Proofs.Run.Options

/-!
Source files that hold no text.  Such a file gives a warning at its place among the others, and for
everything else a run finds it might as well not be there.
-/

namespace AmbientStubs

open PathText Discovery

namespace FileStore

section OneFile

variable {store other : FileStore} {location : List String}

theorem thins_of_nodeAt? (wellFormed : store.WellFormed) (wellFormedOther : other.WellFormed)
    (current : other.current = store.current)
    (file : (store.tree.fileAt? location).isSome = true) {new : Option FileTree.Node}
    (noDirectory : new ≠ some .directory)
    (nodes : ∀ sought, other.tree.nodeAt? sought =
      if sought = location then new else store.tree.nodeAt? sought) : Thins store other := by
  refine ⟨wellFormed, wellFormedOther, current, fun sought => ?_, fun sought there => ?_⟩
  · rw [nodes]
    split
    · next same =>
        subst same
        exact iff_of_false noDirectory (not_directory_of_file file)
    · rfl
  · rw [FileTree.fileAt?, nodes] at there
    split at there
    · next same => exact same ▸ file
    · exact there

theorem fileAt?_of_nodeAt? {new : Option FileTree.Node}
    (nodes : ∀ sought, other.tree.nodeAt? sought =
      if sought = location then new else store.tree.nodeAt? sought) (sought : List String) :
    other.tree.fileAt? sought =
      if sought = location then new.bind FileTree.Node.content? else store.tree.fileAt? sought := by
  rw [FileTree.fileAt?, nodes]
  split <;> rfl

theorem nodeAt?_remove_file (wellFormed : store.WellFormed) (below : location ≠ [])
    (file : (store.tree.fileAt? location).isSome = true) (sought : List String) :
    (store.remove location).tree.nodeAt? sought =
      if sought = location then none else store.tree.nodeAt? sought := by
  rw [nodeAt?_remove wellFormed below]
  by_cases same : sought = location
  · rw [if_pos same, if_pos (same ▸ List.prefix_rfl)]
  · rw [if_neg same]
    split
    · next behind =>
        obtain ⟨rest, rfl⟩ := behind
        cases rest with
        | nil => exact absurd (List.append_nil location) same
        | cons name rest => rw [FileTree.nodeAt?_below (not_directory_of_file file)]
    · rfl

theorem nodeAt?_put_file (wellFormed : store.WellFormed) (below : location ≠ [])
    (file : (store.tree.fileAt? location).isSome = true) (bytes : ByteArray)
    (sought : List String) :
    (store.put location (.file bytes)).tree.nodeAt? sought =
      if sought = location then some (.file bytes) else store.tree.nodeAt? sought := by
  obtain ⟨parent, name, rfl⟩ : ∃ parent name, location = parent ++ [name] := by
    rcases List.eq_nil_or_concat location with none | ⟨parent, name, shape⟩
    · exact absurd none below
    · exact ⟨parent, name, shape.trans List.concat_eq_append⟩
  exact FileTree.nodeAt?_insertAt wellFormed.sorted (fun _ _ => rfl)
    (nodeAt?_of_below (Option.isSome_of_isSome_bind file)) (not_directory_of_file file) sought

theorem thins_remove_file (wellFormed : store.WellFormed) (below : location ≠ [])
    (file : (store.tree.fileAt? location).isSome = true) : Thins store (store.remove location) :=
  thins_of_nodeAt? wellFormed (wellFormed.remove location) rfl file (by simp)
    (nodeAt?_remove_file wellFormed below file)

theorem fileAt?_remove_file (wellFormed : store.WellFormed) (below : location ≠ [])
    (file : (store.tree.fileAt? location).isSome = true) (sought : List String) :
    (store.remove location).tree.fileAt? sought =
      if sought = location then none else store.tree.fileAt? sought :=
  fileAt?_of_nodeAt? (nodeAt?_remove_file wellFormed below file) sought

theorem thins_put_file (wellFormed : store.WellFormed) (below : location ≠ [])
    (file : (store.tree.fileAt? location).isSome = true) (bytes : ByteArray) :
    Thins store (store.put location (.file bytes)) :=
  thins_of_nodeAt? wellFormed (wellFormed.put (.file bytes) location) rfl file (by simp)
    (nodeAt?_put_file wellFormed below file bytes)

theorem fileAt?_put_file (wellFormed : store.WellFormed) (below : location ≠ [])
    (file : (store.tree.fileAt? location).isSome = true) (bytes : ByteArray)
    (sought : List String) :
    (store.put location (.file bytes)).tree.fileAt? sought =
      if sought = location then some bytes else store.tree.fileAt? sought :=
  fileAt?_of_nodeAt? (nodeAt?_put_file wellFormed below file bytes) sought

end OneFile

end FileStore

namespace Discovery

/-- Where only the file of one path is replaced or lost, the other files are found and read as
before. -/
theorem sourceFiles_of_replaced {store other : FileStore} {settings : ScanSettings}
    {moduleRoot path : String} {before after : List String} {new : Option ByteArray}
    (thins : store.Thins other) (named : store.tree.Named)
    (found : sourceFiles store settings moduleRoot = .ok (before ++ path :: after))
    (elsewhere : ∀ listed ∈ before ++ after, store.target listed ≠ store.target path)
    (files : ∀ sought, other.tree.fileAt? sought =
      if sought = store.target path then new else store.tree.fileAt? sought) :
    sourceFiles other settings moduleRoot =
        .ok (before ++ if new.isSome then path :: after else after) ∧
      ∀ listed ∈ before ++ after, other.read listed = store.read listed := by
  have inside (listed : String) (there : listed ∈ before ++ after) :
      listed ∈ before ++ path :: after :=
    ((List.sublist_cons_self path after).append_left before).subset there
  have kept (listed : String) (there : listed ∈ before ++ after) :
      other.tree.fileAt? (store.target listed) = store.tree.fileAt? (store.target listed) :=
    (files _).trans (if_neg (elsewhere listed there))
  have left (listed : String) (there : listed ∈ before ++ after) :
      isLeft store other listed = true := by
    rw [isLeft, kept listed there]
    exact (isSome_fileAt?_target thins.wellFormed named found (inside listed there)).1
  have own : isLeft store other path = new.isSome := by
    rw [isLeft, files, if_pos rfl]
  refine ⟨?_, fun listed there => read_of_thins thins named found (inside listed there)
    (kept listed there)⟩
  rw [List.forall_mem_append] at left
  rw [sourceFiles_of_thins thins named found, List.filter_append, List.filter_cons, own,
    List.filter_eq_self.mpr left.1, List.filter_eq_self.mpr left.2]

end Discovery

namespace Run

section ReadSources

variable {store other : FileStore} {settings : AnalysisSettings} {paths : List String}

theorem readSources_append (first second : List String) :
    readSources store settings (first ++ second) =
      ((readSources store settings first).1 ++ (readSources store settings second).1,
        (readSources store settings first).2 ++ (readSources store settings second).2) := by
  simp only [readSources, List.map_append, List.filterMap_append]

theorem readSources_cons_of_error {path : String} {cause : FileError}
    (failed : store.read path = .error cause) :
    readSources store settings (path :: paths) =
      ((readSources store settings paths).1,
        ⟨path, (RunError.unreadable path cause).message⟩ ::
          (readSources store settings paths).2) := by
  simp [readSources, readSource, failed, Except.toOption]

theorem readSources_cons_of_ok {path text : String} (succeeded : store.read path = .ok text) :
    readSources store settings (path :: paths) =
      (SourceSummary.ofText settings.reservedSegments path text ::
        (readSources store settings paths).1, (readSources store settings paths).2) := by
  simp [readSources, readSource, succeeded, Except.toOption]

theorem readSources_congr (same : ∀ path ∈ paths, other.read path = store.read path) :
    readSources other settings paths = readSources store settings paths := by
  have outcomes : paths.map (readSource other settings) =
      paths.map (readSource store settings) := by
    refine List.map_congr_left fun path inside => ?_
    rw [readSource, readSource, same path inside]
  rw [readSources, readSources, outcomes]

theorem length_readSources (store : FileStore) (settings : AnalysisSettings) (paths : List String) :
    paths.length = (readSources store settings paths).1.length +
      (readSources store settings paths).2.length := by
  induction paths with
  | nil => rfl
  | cons path rest inductionHypothesis =>
      cases read : store.read path with
      | error cause =>
          rw [readSources_cons_of_error read, List.length_cons, List.length_cons,
            inductionHypothesis, Nat.add_assoc]
      | ok text =>
          rw [readSources_cons_of_ok read, List.length_cons, List.length_cons,
            inductionHypothesis, Nat.add_right_comm]

theorem sublist_warnings (store : FileStore) (settings : AnalysisSettings) (paths : List String) :
    ((readSources store settings paths).2.map (·.path)).Sublist paths := by
  induction paths with
  | nil => exact .slnil
  | cons path rest inductionHypothesis =>
      cases read : store.read path with
      | error cause =>
          rw [readSources_cons_of_error read, List.map_cons]
          exact inductionHypothesis.cons_cons path
      | ok text =>
          rw [readSources_cons_of_ok read]
          exact inductionHypothesis.cons path

end ReadSources

section Outcome

variable {settings : Settings} {options : RunOptions} {moduleRoot : String} {store : FileStore}
  {location paths : List String}

theorem filesScanned_of_process {result : RunResult} {after : FileStore}
    (performed : (process settings options moduleRoot).perform store = (.ok result, after)) :
    ∃ paths, sourceFiles store settings.scan moduleRoot = .ok paths ∧
      result.filesScanned =
        (readSources store settings.analysis paths).1.length + result.warnings.length := by
  obtain ⟨analysed, analysis, same⟩ := exists_analyse_of_process performed
  obtain ⟨paths, location, found, -, rfl⟩ := analyse_eq_ok_iff.mp analysis
  rw [← same.filesScanned, ← same.warnings]
  exact ⟨paths, found, length_readSources store settings.analysis paths⟩

/-- A file that holds no text changes the outcome of a dry run as if it were not there, except that
it is counted and warned about at its place. -/
theorem garbled_file_counts_as_removed (settings : Settings) (options : RunOptions) {path : String}
    {bytes : ByteArray} (wellFormed : store.WellFormed) (named : store.tree.Named)
    (relative : isAbsolute settings.scan.sourceDirectory = false)
    (down : ".." ∉ parts settings.scan.sourceDirectory) (dry : options.dryRun = true)
    (found : sourceFiles store settings.scan moduleRoot = .ok paths) (inside : path ∈ paths)
    (garbled : String.fromUTF8? bytes = none) :
    (∃ whole less front back before after cause,
      (process settings options moduleRoot).perform
          (store.put (store.target path) (.file bytes)) =
        (.ok whole, store.put (store.target path) (.file bytes)) ∧
      (process settings options moduleRoot).perform (store.remove (store.target path)) =
        (.ok less, store.remove (store.target path)) ∧
      whole = { less with
        filesScanned := less.filesScanned + 1
        warnings := front ++ ⟨path, (RunError.unreadable path cause).message⟩ :: back } ∧
      less.warnings = front ++ back ∧
      (store.put (store.target path) (.file bytes)).read path = .error cause ∧
      sourceFiles (store.put (store.target path) (.file bytes)) settings.scan moduleRoot =
        .ok (before ++ path :: after) ∧
      sourceFiles (store.remove (store.target path)) settings.scan moduleRoot =
        .ok (before ++ after) ∧
      path ∉ before ++ after ∧
      (front.map (·.path)).Sublist before ∧ (back.map (·.path)).Sublist after) ∧
    ∀ settings options moduleRoot store result after,
      (process settings options moduleRoot).perform store = (.ok result, after) →
      ∃ paths, sourceFiles store settings.scan moduleRoot = .ok paths ∧
        result.filesScanned =
          (readSources store settings.analysis paths).1.length + result.warnings.length := by
  refine ⟨?_, fun _ _ _ _ _ _ => filesScanned_of_process⟩
  obtain ⟨file, below⟩ := isSome_fileAt?_target wellFormed named found inside
  obtain ⟨before, after, shape, elsewhere⟩ :=
    exists_split_of_mem_sourceFiles wellFormed named relative down found inside
  subst shape
  obtain ⟨location, resolved, isDirectory⟩ :=
    FileStore.isDirectory_iff.mp (listable_of_sourceFiles found).1
  have filesPut := FileStore.fileAt?_put_file wellFormed below file bytes
  have filesRemove := FileStore.fileAt?_remove_file wellFormed below file
  have thinsPut := FileStore.thins_put_file wellFormed below file bytes
  have thinsRemove := FileStore.thins_remove_file wellFormed below file
  obtain ⟨foundPut, readPut⟩ := sourceFiles_of_replaced thinsPut named found elsewhere filesPut
  obtain ⟨foundRemove, readRemove⟩ :=
    sourceFiles_of_replaced thinsRemove named found elsewhere filesRemove
  rw [if_pos Option.isSome_some] at foundPut
  rw [Option.isSome_none, if_neg Bool.false_ne_true] at foundRemove
  obtain ⟨cause, failed⟩ := exists_read_error_of_thins thinsPut named found inside
    ((filesPut _).trans (if_pos rfl)) garbled
  have resolvedPut := (thinsPut.resolve_iff.mpr ⟨resolved, isDirectory⟩).1
  have resolvedRemove := (thinsRemove.resolve_iff.mpr ⟨resolved, isDirectory⟩).1
  refine ⟨_, _, (readSources store settings.analysis before).2,
    (readSources store settings.analysis after).2, before, after, cause,
    (perform_process_of_dry dry _ _ _).trans
      (Prod.ext (analyse_eq_outcome foundPut resolvedPut) rfl),
    (perform_process_of_dry dry _ _ _).trans
      (Prod.ext (analyse_eq_outcome foundRemove resolvedRemove) rfl),
    ?_, ?_, failed, foundPut, foundRemove, fun listed => elsewhere path listed rfl,
    sublist_warnings store settings.analysis before, sublist_warnings store settings.analysis after⟩
  · rw [readSources_append, readSources_cons_of_error failed,
      readSources_congr fun other listed => readPut other (List.mem_append_left after listed),
      readSources_congr fun other listed => readPut other (List.mem_append_right before listed),
      readSources_congr readRemove, readSources_append]
    simp only [outcome, List.length_append, List.length_cons, Nat.add_assoc]
  · rw [readSources_congr readRemove, readSources_append]
    rfl

def boxesModule : FileStore :=
  .ofTexts [(["ws", "entry", "src", "main", "a.ets"], "import \x7b Box \x7d from 'lib';"),
    (["ws", "entry", "src", "main", "b.ets"], "import \x7b Lid \x7d from 'lib';"),
    (["ws", "entry", "Index.ets"], "import \x7b Key \x7d from 'keys';")]

/-- Bytes in the second file that are no text cost what that file imports and add a warning. -/
theorem boxesModule_with_garbled_file :
    ∃ whole less cause,
      (process {} { dryRun := true } "/ws/entry").perform
          (boxesModule.put ["ws", "entry", "src", "main", "b.ets"] (.file ⟨#[0xff]⟩)) =
        (.ok whole, boxesModule.put ["ws", "entry", "src", "main", "b.ets"] (.file ⟨#[0xff]⟩)) ∧
      (process {} { dryRun := true } "/ws/entry").perform
          (boxesModule.remove ["ws", "entry", "src", "main", "b.ets"]) =
        (.ok less, boxesModule.remove ["ws", "entry", "src", "main", "b.ets"]) ∧
      whole.packages = less.packages ∧ whole.filesScanned = less.filesScanned + 1 ∧
      less.warnings = [] ∧ whole.warnings = [⟨"/ws/entry/src/main/b.ets",
        (RunError.unreadable "/ws/entry/src/main/b.ets" cause).message⟩] := by
  have found : sourceFiles boxesModule {} "/ws/entry" = .ok
      ["/ws/entry/src/main/a.ets", "/ws/entry/src/main/b.ets", "/ws/entry/Index.ets"] := by
    decide +kernel
  have there : boxesModule.target "/ws/entry/src/main/b.ets" =
      ["ws", "entry", "src", "main", "b.ets"] := by
    decide +kernel
  have wellFormed : boxesModule.WellFormed := FileStore.wellFormed_ofTexts _
  obtain ⟨⟨whole, less, front, back, before, after, cause, performed, performedLess, rfl, warned,
      -⟩, -⟩ :=
    garbled_file_counts_as_removed {} { dryRun := true } wellFormed
      (FileStore.named_ofTexts (by decide)) (by decide) (by decide +kernel) rfl found
      (show "/ws/entry/src/main/b.ets" ∈ _ by decide)
      (show String.fromUTF8? ⟨#[0xff]⟩ = none by decide +kernel)
  rw [there] at performed performedLess
  have quiet : ((process {} { dryRun := true } "/ws/entry").perform
      (boxesModule.remove ["ws", "entry", "src", "main", "b.ets"])).1.toOption.map (·.warnings) =
        some [] := by
    decide +kernel
  rw [performedLess] at quiet
  have none : less.warnings = [] := Option.some.inj quiet
  rw [none] at warned
  obtain ⟨rfl, rfl⟩ := List.append_eq_nil_iff.mp warned.symm
  exact ⟨_, less, cause, performed, performedLess, rfl, rfl, none, rfl⟩

end Outcome

end Run

end AmbientStubs
