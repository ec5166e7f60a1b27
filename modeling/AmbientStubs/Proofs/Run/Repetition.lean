import AmbientStubs.Proofs.Discovery
import AmbientStubs.Proofs.Manifest.Patch
import AmbientStubs.Proofs.Run.Containment
import AmbientStubs.Proofs.StubPackage.Repetition

/-!
Running again.  Stubs that stand outside of the module leave its sources alone, so a second run
finds what the first one found and writes the same; only directories that a module path passes on
its way, before it turns back by `..`, can come to lie among the sources.
-/

namespace AmbientStubs

open PathText

/-- The path of a file is only noted. -/
theorem SourceSummary.ofText_eq (reserved : List String) (path other content : String) :
    ofText reserved path content = { ofText reserved other content with path := path } := by
  have each (lines : List (List Char)) (summary : SourceSummary) :
      lines.foldl (addLine reserved) { summary with path := path } =
        { lines.foldl (addLine reserved) summary with path := path } := by
    induction lines generalizing summary with
    | nil => rfl
    | cons line rest inductionHypothesis =>
        have step : addLine reserved { summary with path := path } line =
            { addLine reserved summary line with path := path } := by
          rw [addLine, addLine]
          dsimp only
          split
          · rfl
          · split <;> rfl
        rw [List.foldl_cons, List.foldl_cons, step, inductionHypothesis]
  exact each _ { path := other }

theorem Package.collect_path (settings : InferenceSettings) (summary : SourceSummary)
    (path : String) :
    collect settings [{ summary with path := path }] = collect settings [summary] := rfl

namespace Run

open StubPackage JsonValue Manifest Discovery

theorem perform_generate_eq_ok_iff {settings : StubSettings} {analysed result : RunResult}
    {store after : FileStore} :
    (generate settings analysed).perform store = (.ok result, after) ↔
      ∃ directories between patch,
        (writeAll settings analysed.projectRoot analysed.packages.values).perform store =
          (.ok directories, between) ∧
        (Manifest.patch settings analysed.modulePath analysed.packages.keys).perform between =
          (.ok patch, after) ∧
        result = { analysed with written := directories, patch := some patch } := by
  rw [generate, FileAction.perform_bind]
  constructor
  · intro performed
    split at performed
    · next directories between wrote =>
        rw [FileAction.perform_bind] at performed
        split at performed
        · next patch final patched =>
            cases performed
            exact ⟨directories, between, patch, wrote, patched, rfl⟩
        · cases performed
    · cases performed
  · rintro ⟨directories, between, patch, wrote, patched, rfl⟩
    rw [wrote]
    dsimp only
    rw [FileAction.perform_bind, patched]
    rfl

/-- A location to which the first parts of some module path lead. -/
def OnTheWay (project : List String) (modules : List String) (location : List String) : Prop :=
  ∃ module ∈ modules, ∃ front, front <+: project ++ parts module ∧ location = locate [] front

structure Generated (settings : StubSettings) (store : FileStore) (location : List String)
    (analysed : RunResult) (directories : List String) (between : FileStore)
    (patch : PatchOutcome) (after : FileStore) : Prop where
  wrote : (writeAll settings (ofLocation location.dropLast) analysed.packages.values).perform
    store = (.ok directories, between)
  patched : (Manifest.patch settings (ofLocation location) analysed.packages.keys).perform between =
    (.ok patch, after)
  stubs : store.Writes (stubFiles settings location.dropLast analysed) between
  begun : store.Builds (OnTheWay location.dropLast analysed.packages.keys) between
  finished : between.Builds (OnTheWay location.dropLast analysed.packages.keys) after
  /-- The patch changes no file but the manifest, and does not make that one. -/
  others : ∀ file, file ≠ location ++ [settings.manifestName] →
    after.tree.fileAt? file = between.tree.fileAt? file
  manifest : (after.tree.fileAt? (location ++ [settings.manifestName])).isSome =
    (between.tree.fileAt? (location ++ [settings.manifestName])).isSome

section Stubs

variable {settings : StubSettings} {store : FileStore} {moduleRoot : String}
  {location : List String} {analysed : RunResult}

theorem repeatable_stubs (wellFormed : store.WellFormed)
    (facts : Analysed store moduleRoot location analysed) :
    FileAction.Repeatable (OnTheWay location.dropLast analysed.packages.keys)
      (writeAll settings (ofLocation location.dropLast) analysed.packages.values) := by
  refine repeatable_writeAll (facts.names wellFormed).2 fun package inside front starts => ?_
  refine ⟨package.modulePath, ?_, front, starts, rfl⟩
  rw [facts.keys]
  exact List.mem_map_of_mem inside

theorem writes_stubs (manifestName : IsName settings.manifestName) (wellFormed : store.WellFormed)
    (facts : Analysed store moduleRoot location analysed) {before after : FileStore}
    (wellFormedBefore : before.WellFormed) {directories : List String}
    (wrote : (writeAll settings (ofLocation location.dropLast) analysed.packages.values).perform
      before = (.ok directories, after)) :
    before.Writes (stubFiles settings location.dropLast analysed) after := by
  obtain ⟨written, -, changed, complete⟩ := outputs_writeAll (facts.names wellFormed).2 manifestName
    analysed.packages.values before wellFormedBefore
  rw [wrote] at changed complete
  obtain ⟨rfl, -⟩ := complete directories rfl
  exact changed

theorem exists_generated {result : RunResult} {after : FileStore} (wellFormed : store.WellFormed)
    (manifestName : IsName settings.manifestName)
    (facts : Analysed store moduleRoot location analysed)
    (performed : (generate settings analysed).perform store = (.ok result, after)) :
    ∃ directories between patch,
      Generated settings store location analysed directories between patch after ∧
      result = { analysed with written := directories, patch := some patch } := by
  obtain ⟨directories, between, patch, wrote, patched, rfl⟩ :=
    perform_generate_eq_ok_iff.1 performed
  rw [facts.projectRoot] at wrote
  rw [facts.modulePath] at patched
  have stubs := writes_stubs manifestName wellFormed facts wellFormed wrote
  have repeatable : FileAction.Repeatable _ (writeAll settings _ _) :=
    repeatable_stubs wellFormed facts
  have begun := repeatable.builds wellFormed
  rw [wrote] at begun
  obtain ⟨written, changed, shape⟩ := writes_patch stubs.wellFormed (facts.names wellFormed).1
    manifestName analysed.packages.keys
  rw [patched] at changed
  refine ⟨directories, between, patch, ⟨wrote, patched, stubs, begun,
    builds_of_patch stubs.wellFormed patched, fun file elsewhere => ?_, ?_⟩, rfl⟩
  · rw [changed.fileAt?]
    apply FileStore.contentAfter_of_forall_ne
    rcases shape with rfl | ⟨members, -, rfl⟩
    · simp
    · simpa using Ne.symm elsewhere
  · rw [changed.fileAt?]
    rcases shape with rfl | ⟨members, read, rfl⟩
    · rfl
    · have there : (between.tree.fileAt? (location ++ [settings.manifestName])).isSome = true := by
        rw [FileStore.jsonAt?] at read
        exact Option.isSome_of_isSome_bind (by rw [read]; rfl)
      rw [there, FileStore.isSome_contentAfter (.inl there)]

theorem not_prefix_of_mem_stubFiles (facts : Analysed store moduleRoot location analysed)
    (apart : ∀ module ∈ analysed.packages.keys, ¬ location <+: place location.dropLast module)
    {between : FileStore}
    (changed : store.Writes (stubFiles settings location.dropLast analysed) between)
    (isDirectory : between.tree.nodeAt? location = some .directory)
    {write : List String × ByteArray}
    (listed : write ∈ stubFiles settings location.dropLast analysed) : ¬ location <+: write.1 := by
  intro starts
  have file : (between.tree.fileAt? write.1).isSome = true := by
    rw [changed.fileAt?]
    exact FileStore.isSome_contentAfter (.inr ⟨write, listed, rfl⟩)
  obtain ⟨module, inside, lies⟩ := exists_module_of_mem_stubFiles facts listed
  have below : ∃ name, write.1 = place location.dropLast module ++ [name] :=
    lies.elim (fun lies => ⟨_, lies⟩) fun lies => ⟨_, lies⟩
  obtain ⟨name, lies⟩ := below
  rw [lies, List.prefix_concat_iff] at starts
  rcases starts with same | deeper
  · rw [lies, ← same] at file
    exact FileStore.not_directory_of_file file isDirectory
  · exact apart module inside deeper

end Stubs

section Again

variable {settings : StubSettings} {store between after : FileStore} {moduleRoot : String}
  {location directories : List String} {analysed : RunResult} {patch : PatchOutcome}

theorem Generated.builds
    (generated : Generated settings store location analysed directories between patch after) :
    store.Builds (OnTheWay location.dropLast analysed.packages.keys) after :=
  generated.begun.trans generated.finished

theorem Generated.outside
    (generated : Generated settings store location analysed directories between patch after)
    (facts : Analysed store moduleRoot location analysed)
    (isDirectory : store.tree.nodeAt? location = some .directory)
    (apart : ∀ module ∈ analysed.packages.keys, ¬ location <+: place location.dropLast module)
    {file : List String} (inside : location <+: file) :
    ∀ write ∈ stubFiles settings location.dropLast analysed, write.1 ≠ file := by
  rintro write listed rfl
  exact not_prefix_of_mem_stubFiles facts apart generated.stubs
    (generated.begun.grows.directory location isDirectory) listed inside

theorem Generated.keepsModule
    (generated : Generated settings store location analysed directories between patch after)
    (wellFormed : store.WellFormed)
    (outside : ∀ file, location <+: file →
      ∀ write ∈ stubFiles settings location.dropLast analysed, write.1 ≠ file) :
    KeepsModule settings.manifestName location store after where
  wellFormed := wellFormed
  wellFormedAfter := generated.builds.wellFormed wellFormed
  grows := generated.builds.grows
  files := by
    intro file inside elsewhere
    rw [generated.others file elsewhere, generated.stubs.fileAt?,
      FileStore.contentAfter_of_forall_ne (outside file inside)]
  manifest := by
    rw [generated.manifest, generated.stubs.fileAt?,
      FileStore.contentAfter_of_forall_ne (outside _ (List.prefix_append _ _))]

/-- The stubs are written again, and no file changes by it. -/
theorem Generated.exists_again
    (generated : Generated settings store location analysed directories between patch after)
    (wellFormed : store.WellFormed) (manifestName : IsName settings.manifestName)
    (facts : Analysed store moduleRoot location analysed)
    (outside : ∀ file, location <+: file →
      ∀ write ∈ stubFiles settings location.dropLast analysed, write.1 ≠ file) :
    ∃ again, (writeAll settings (ofLocation location.dropLast) analysed.packages.values).perform
        after = (.ok directories, again) ∧
      after.Grows again ∧ ∀ file, again.tree.fileAt? file = after.tree.fileAt? file := by
  have wellFormedAfter := generated.builds.wellFormed wellFormed
  have repeatable : FileAction.Repeatable _ (writeAll settings _ _) :=
    repeatable_stubs wellFormed facts
  obtain ⟨again, wrote⟩ := repeatable.again wellFormed generated.wrote generated.finished.grows
    wellFormedAfter
  have changed := writes_stubs manifestName wellFormed facts wellFormedAfter wrote
  have grown := (repeatable.builds wellFormedAfter).grows
  rw [wrote] at grown
  refine ⟨again, wrote, grown, fun file => ?_⟩
  rw [changed.fileAt?]
  by_cases inside : location <+: file
  · exact FileStore.contentAfter_of_forall_ne (outside file inside)
  · -- Outside of the module the same stubs were the last to be written.
    rw [generated.others, generated.stubs.fileAt?, FileStore.contentAfter_again]
    rintro rfl
    exact inside (List.prefix_append _ _)

def patchedAgain (modules : List String) : PatchOutcome → PatchOutcome
  | .missing path => .missing path
  | .patched path _ _ => .patched path [] modules

/-- The manifest is patched again with nothing to add. -/
theorem Generated.patch_again
    (generated : Generated settings store location analysed directories between patch after)
    (wellFormed : store.WellFormed) (manifestName : IsName settings.manifestName)
    (facts : Analysed store moduleRoot location analysed)
    (outside : ∀ write ∈ stubFiles settings location.dropLast analysed,
      write.1 ≠ location ++ [settings.manifestName])
    (quotable : ∀ value, store.jsonAt? (location ++ [settings.manifestName]) = some value →
      value.Quotable)
    (plain : ∀ module ∈ analysed.packages.keys, PlainText module) {again : FileStore}
    (grows : after.Grows again)
    (same : ∀ file, again.tree.fileAt? file = after.tree.fileAt? file) :
    (Manifest.patch settings (ofLocation location) analysed.packages.keys).perform again =
      (.ok (patchedAgain analysed.packages.keys patch), again) := by
  have names := (facts.names wellFormed).1
  have absolute := isAbsolute_push_ofLocation manifestName location
  have target := locate_push_ofLocation names manifestName
  rcases patch_cases generated.patched with ⟨missing, rfl, rfl⟩ |
      ⟨text, members, read, parsed, rfl, done⟩
  · refine perform_patch_of_missing (Bool.eq_false_iff.2 fun isFile => ?_)
    obtain ⟨reached, resolved, file⟩ := FileStore.isFile_iff.1 isFile
    have leads := FileStore.eq_locate_of_resolve resolved
    rw [FileStore.start_of_isAbsolute absolute, target] at leads
    rw [leads, same] at file
    have shape := parts_push_ofLocation names manifestName
    have proper : ∀ name ∈ location ++ [settings.manifestName], IsName name :=
      List.forall_mem_append.2 ⟨names, List.forall_mem_singleton.2 manifestName⟩
    have there := FileStore.isFile_of_names absolute
      (endsWith_push manifestName.1 manifestName.2.2.2) (by rwa [shape]) isFile (by rwa [shape])
    exact absurd (missing.symm.trans there) Bool.false_ne_true
  · have distinct : analysed.packages.keys.Nodup := facts.ascending.keys.imp String.ne_of_lt
    have described : store.jsonAt? (location ++ [settings.manifestName]) =
        some (.object members) := by
      obtain ⟨content, held, decoded⟩ := FileStore.exists_fileAt?_of_read read
      rw [FileStore.start_of_isAbsolute absolute, target, generated.stubs.fileAt?,
        FileStore.contentAfter_of_forall_ne outside] at held
      rw [FileStore.jsonAt?, held, Option.bind_some, decoded, Option.bind_some, parsed]
    obtain ⟨newText, newMembers, readAgain, parsedAgain, complete⟩ :=
      exists_complete_of_patched generated.stubs.wellFormed distinct read parsed done
        (.inr (quotable_written (quotable _ described) plain))
    rw [perform_patch_of_complete (grows.read readAgain same) parsedAgain
      (congrArg Prod.fst complete), complete]
    rfl

/-- Generating again has the same result, but that nothing is added to the manifest, and changes no
file. -/
theorem Generated.generate_again
    (generated : Generated settings store location analysed directories between patch after)
    (wellFormed : store.WellFormed) (manifestName : IsName settings.manifestName)
    (facts : Analysed store moduleRoot location analysed)
    (outside : ∀ file, location <+: file →
      ∀ write ∈ stubFiles settings location.dropLast analysed, write.1 ≠ file)
    (quotable : ∀ value, store.jsonAt? (location ++ [settings.manifestName]) = some value →
      value.Quotable)
    (plain : ∀ module ∈ analysed.packages.keys, PlainText module) :
    ∃ final, (generate settings analysed).perform after =
        (.ok { analysed with
          written := directories
          patch := some (patchedAgain analysed.packages.keys patch) }, final) ∧
      ∀ file, final.tree.fileAt? file = after.tree.fileAt? file := by
  obtain ⟨again, wrote, grows, same⟩ :=
    generated.exists_again wellFormed manifestName facts outside
  have patched := generated.patch_again wellFormed manifestName facts
    (outside _ (List.prefix_append _ _)) quotable plain grows same
  refine ⟨again, perform_generate_eq_ok_iff.2 ⟨directories, again, _, ?_, ?_, rfl⟩, same⟩
  · rw [facts.projectRoot]
    exact wrote
  · rw [facts.modulePath]
    exact patched

end Again

section Process

variable {settings : Settings} {options : RunOptions} {moduleRoot : String}
  {store after : FileStore} {location : List String}

theorem listable_of_analyse {analysed : RunResult}
    (found : analyse settings options moduleRoot store = .ok analysed)
    (resolved : store.resolve moduleRoot = .ok location) :
    store.tree.nodeAt? location = some .directory ∧
      unlistable? store settings.scan moduleRoot = none := by
  obtain ⟨paths, _, listed, -⟩ := analyse_eq_ok_iff.1 found
  obtain ⟨isDirectory, listable⟩ := listable_of_sourceFiles listed
  obtain ⟨reached, resolvedAgain, there⟩ := FileStore.isDirectory_iff.1 isDirectory
  cases resolved.symm.trans resolvedAgain
  exact ⟨there, listable⟩

/-- A module that is kept is analysed as before, if its sources still can be listed. -/
theorem analyse_of_keepsModule {analysed : RunResult} (scan : settings.scan = {})
    (keeps : KeepsModule "oh-package.json5" location store after) (named : store.tree.Named)
    (resolved : store.resolve moduleRoot = .ok location)
    (found : analyse settings options moduleRoot store = .ok analysed) :
    analyse settings options moduleRoot after =
      match unlistable? after {} moduleRoot with
      | some listed => .error (.unlistable (sourceDirectory {} moduleRoot) listed .nameTooLong)
      | none => .ok analysed := by
  obtain ⟨paths, reached, listed, resolvedAgain, rfl⟩ := analyse_eq_ok_iff.1 found
  cases resolved.symm.trans resolvedAgain
  rw [scan] at listed
  have sources : readSources after settings.analysis paths =
      readSources store settings.analysis paths := by
    have each : paths.map (readSource after settings.analysis) =
        paths.map (readSource store settings.analysis) :=
      List.map_congr_left fun path inside => by
        rw [readSource, readSource, keeps.read named resolved listed inside]
    rw [readSources, readSources, each]
  have listedAfter := keeps.sourceFiles resolved listed
  cases listing : unlistable? after {} moduleRoot with
  | some path =>
      rw [listing] at listedAfter
      rw [analyse, scan, listedAfter]
      rfl
  | none =>
      rw [listing, ← scan] at listedAfter
      rw [analyse_eq_outcome listedAfter (keeps.grows.resolve resolved), sources]

theorem grows_of_process {result : RunResult} (wellFormed : store.WellFormed)
    (manifestName : IsName settings.stubs.manifestName)
    (performed : (process settings options moduleRoot).perform store = (.ok result, after)) :
    store.Grows after ∧ after.WellFormed := by
  rcases process_cases performed with ⟨rfl, -⟩ | ⟨location, analysed, -, facts, -, ran⟩
  · exact ⟨.refl after, wellFormed⟩
  · obtain ⟨_, _, _, generated, -⟩ := exists_generated wellFormed manifestName facts ran
    exact ⟨generated.builds.grows, generated.builds.wellFormed wellFormed⟩

theorem perform_process_of_unlistable {listed : String}
    (isDirectory : store.isDirectory moduleRoot = true)
    (found : unlistable? store settings.scan moduleRoot = some listed) :
    (process settings options moduleRoot).perform store =
      (.error (.unlistable (sourceDirectory settings.scan moduleRoot) listed .nameTooLong),
        store) := by
  rw [perform_process, analyse, sourceFiles, if_pos isDirectory, found]
  rfl

theorem patch_of_analyse {analysed : RunResult}
    (found : analyse settings options moduleRoot store = .ok analysed) : analysed.patch = none := by
  obtain ⟨paths, reached, -, -, rfl⟩ := analyse_eq_ok_iff.1 found
  rfl

/-- A module path that leads into a module without ending there turns back. -/
theorem exists_turning_of_onTheWay {modules deeper : List String}
    (names : ∀ name ∈ location, IsName name) (below : deeper ≠ [])
    (apart : ∀ module ∈ modules, ¬ location <+: place location.dropLast module)
    (onTheWay : OnTheWay location.dropLast modules (location ++ deeper)) :
    ∃ module ∈ modules, ".." ∈ parts module ∧
      ∃ front, front <+: parts module ∧ locate location.dropLast front = location ++ deeper := by
  obtain ⟨module, inside, front, starts, leads⟩ := onTheWay
  have above : ∀ name ∈ location.dropLast, IsName name := fun name listed =>
    names name (List.dropLast_subset location listed)
  rcases List.prefix_or_prefix_of_prefix starts (List.prefix_append location.dropLast _) with
    short | ⟨rest, rfl⟩
  · rw [locate_names fun name listed => above name (short.subset listed), List.nil_append] at leads
    have bound := short.length_le
    have positive := List.length_pos_iff.2 below
    rw [← leads, List.length_append, List.length_dropLast] at bound
    omega
  · rw [List.prefix_append_right_inj] at starts
    rw [locate_append, locate_names above, List.nil_append] at leads
    refine ⟨module, inside, ?_, rest, starts, leads.symm⟩
    apply Classical.byContradiction
    intro down
    obtain ⟨more, whole⟩ := starts
    have onward : ".." ∉ more := fun listed => down (whole ▸ List.mem_append_right rest listed)
    refine apart module inside ?_
    rw [place, ← whole, locate_append, ← leads]
    exact (List.prefix_append location deeper).trans (isPrefix_locate onward _)

/-- Running again repeats the run: the result is the same, but that the manifest already names every
module, and no file changes.  Only if the path of some package turns back by `..` from among the
sources of the module can the second run fail, by a directory made there whose path is too long to
list it. -/
theorem running_again_repeats_the_run_unless_a_directory_was_made_among_the_sources
    {result : RunResult} (wellFormed : store.WellFormed) (named : store.tree.Named)
    (scan : settings.scan = {}) (stubs : settings.stubs = {})
    (performed : (process settings options moduleRoot).perform store = (.ok result, after))
    (resolved : store.resolve moduleRoot = .ok location)
    (apart : ∀ module ∈ result.packages.keys, ¬ location <+: place location.dropLast module)
    (quotable : ∀ value, store.jsonAt? (location ++ ["oh-package.json5"]) = some value →
      value.Quotable)
    (plain : ∀ module ∈ result.packages.keys, PlainText module) :
    (∃ final, (process settings options moduleRoot).perform after =
        (.ok { result with patch := result.patch.map (patchedAgain result.packages.keys) }, final) ∧
      ∀ file, final.tree.fileAt? file = after.tree.fileAt? file) ∨
    ∃ listed, (process settings options moduleRoot).perform after =
        (.error (.unlistable (sourceDirectory {} moduleRoot) listed .nameTooLong), after) ∧
      FileStore.longestPath < listed.utf8ByteSize ∧
      ∃ module ∈ result.packages.keys, ".." ∈ parts module ∧ ∃ front, front <+: parts module ∧
        location ++ ["src", "main"] <+: locate location.dropLast front := by
  rw [perform_process] at performed ⊢
  cases found : analyse settings options moduleRoot store with
  | error cause =>
      rw [found] at performed
      cases performed
  | ok analysed =>
      rw [found] at performed
      dsimp only at performed
      split at performed
      · next idle =>
          -- Nothing was written, so the second run is the first one.
          cases performed
          refine .inl ⟨store, ?_, fun _ => rfl⟩
          have same : { result with
              patch := result.patch.map (patchedAgain result.packages.keys) } = result := by
            have nothing := patch_of_analyse found
            cases result
            cases nothing
            rfl
          rw [found, same]
          exact if_pos idle
      next active =>
      obtain ⟨reached, facts⟩ := exists_analysed found
      cases resolved.symm.trans facts.resolved
      have manifestName : IsName ({} : StubSettings).manifestName := by decide
      rw [stubs] at performed
      obtain ⟨directories, between, patch, generated, rfl⟩ :=
        exists_generated wellFormed manifestName facts performed
      obtain ⟨isDirectory, listable⟩ := listable_of_analyse found resolved
      -- The stubs stand outside of the module, which is all that the analysis looks at.
      have outside (file : List String) (inside : location <+: file) :=
        generated.outside facts isDirectory apart inside
      have keeps := generated.keepsModule wellFormed outside
      rw [analyse_of_keepsModule scan keeps named resolved found]
      cases listing : unlistable? after {} moduleRoot with
      | none =>
          obtain ⟨final, again, same⟩ :=
            generated.generate_again wellFormed manifestName facts outside quotable plain
          refine .inl ⟨final, ?_, same⟩
          dsimp only
          rw [if_neg active, stubs]
          exact again
      | some listed =>
          -- All directories could be listed before, so this one was made on the way to some stub.
          rw [scan] at listable
          obtain ⟨long, names, made⟩ := exists_made_of_unlistable? wellFormed generated.builds
            resolved listable listing
          rw [List.append_assoc] at made
          obtain ⟨module, inside, turns, front, starts, leads⟩ :=
            exists_turning_of_onTheWay (facts.names wellFormed).1 (by simp) apart made
          refine .inr ⟨listed, rfl, long, module, inside, turns, front, starts, ?_⟩
          rw [leads, ← List.append_assoc]
          exact List.prefix_append _ names

end Process

def packingProject : FileStore :=
  .ofTexts [(["ws", "entry", "src", "main", "a.ets"], "import \x7b Box \x7d from 'lib';"),
    (["ws", "entry", "oh-package.json5"], (JsonValue.object []).pretty ++ "\n")]

theorem packing_run_is_repeated :
    ∃ result after final, (process {} {} "/ws/entry").perform packingProject = (.ok result, after) ∧
      result.packages.keys = ["lib"] ∧
      result.patch = some (.patched "/ws/entry/oh-package.json5" ["lib"] []) ∧
      (process {} {} "/ws/entry").perform after =
        (.ok { result with patch := some (.patched "/ws/entry/oh-package.json5" [] ["lib"]) },
          final) ∧
      ∀ file, final.tree.fileAt? file = after.tree.fileAt? file := by
  have resolved : packingProject.resolve "/ws/entry" = .ok ["ws", "entry"] := by decide +kernel
  have shown : ((process {} {} "/ws/entry").perform packingProject).1.toOption.map
      (fun result => (result.packages.keys, result.patch)) =
        some (["lib"], some (.patched "/ws/entry/oh-package.json5" ["lib"] [])) := by
    decide +kernel
  have plain : (JsonValue.object []).Plain := .object (by simp) (by simp)
  have read : packingProject.jsonAt? ["ws", "entry", "oh-package.json5"] = some (.object []) :=
    jsonAt?_eq_some_of_pretty plain (.object (by simp) (by simp)) (by decide +kernel)
  obtain ⟨result, after, performed, viewed⟩ := FileAction.exists_perform_eq_ok shown
  obtain ⟨keys, patch⟩ := Prod.mk.inj viewed
  have again := running_again_repeats_the_run_unless_a_directory_was_made_among_the_sources
    (show packingProject.WellFormed from FileStore.wellFormed_ofTexts _)
    (show packingProject.tree.Named from FileStore.named_ofTexts (by decide)) rfl rfl performed
    resolved (by rw [keys]; decide +kernel)
    (fun value found => by
      cases read.symm.trans found
      exact plain.quotable)
    (by rw [keys]; decide)
  rw [keys, patch] at again
  rcases again with ⟨final, repeated, same⟩ | ⟨listed, -, -, module, inside, turns, -⟩
  · exact ⟨result, after, final, performed, keys, patch, repeated, same⟩
  · rw [List.mem_singleton.1 inside] at turns
    exact absurd turns (by decide +kernel)

section Winding

/-- A module path that passes the sources of a module on its way to a package beside it. -/
def windingModule : String := "entry/src/main/components/../../../../lib"

def windingSource : String := "import \x7b Box \x7d from '" ++ windingModule ++ "';"

def windingProject : FileStore :=
  .ofTexts [(["ws", "entry", "src", "main", "a.ets"], windingSource)]

def dottedRoot (count : Nat) : String :=
  (List.replicate count ".").foldl push "/ws/entry"

theorem utf8ByteSize_foldl_push {path : String} {names : List String} (nonempty : path ≠ "")
    (noSlash : Text.endsWith path "/" = false)
    (plain : ∀ name ∈ names, name ≠ "" ∧ '/' ∉ name.toList) :
    (names.foldl push path).utf8ByteSize =
      path.utf8ByteSize + (names.map (·.utf8ByteSize + 1)).sum := by
  induction names generalizing path with
  | nil => rfl
  | cons name rest inductionHypothesis =>
      rw [List.forall_mem_cons] at plain
      rw [List.foldl_cons, inductionHypothesis (push_ne_empty path plain.1.1)
        (endsWith_push plain.1.1 plain.1.2) plain.2,
        utf8ByteSize_push nonempty noSlash plain.1.2, List.map_cons, List.sum_cons, Nat.add_assoc]

theorem utf8ByteSize_foldl_dottedRoot {names : List String}
    (plain : ∀ name ∈ names, name ≠ "" ∧ '/' ∉ name.toList) (count : Nat) :
    (names.foldl push (dottedRoot count)).utf8ByteSize =
      9 + count * 2 + (names.map (·.utf8ByteSize + 1)).sum := by
  have dots : ∀ name ∈ List.replicate count ".", name ≠ "" ∧ '/' ∉ name.toList := by
    intro name inside
    rw [List.eq_of_mem_replicate inside]
    decide
  have base : "/ws/entry".utf8ByteSize = 9 ∧ ".".utf8ByteSize = 1 := by decide
  rw [dottedRoot, ← List.foldl_append, utf8ByteSize_foldl_push (by decide) (by decide +kernel)
    (List.forall_mem_append.2 ⟨dots, plain⟩), List.map_append, List.sum_append, List.map_replicate,
    List.sum_replicate_nat, base.1, base.2, Nat.add_assoc]

theorem resolve_dottedRoot {store : FileStore}
    (resolved : store.resolve "/ws/entry" = .ok ["ws", "entry"])
    (isDirectory : store.tree.nodeAt? ["ws", "entry"] = some .directory) {count : Nat}
    (short : 9 + count * 2 ≤ FileStore.longestPath) :
    store.resolve (dottedRoot count) = .ok ["ws", "entry"] :=
  FileStore.resolve_dots resolved isDirectory count
    ((utf8ByteSize_foldl_dottedRoot (List.forall_mem_nil _) count).trans_le short)

variable {root : String}

theorem sourceFiles_windingProject (resolved : windingProject.resolve root = .ok ["ws", "entry"])
    (short : (["src", "main", "a.ets"].foldl push root).utf8ByteSize ≤ FileStore.longestPath) :
    sourceFiles windingProject {} root = .ok [["src", "main", "a.ets"].foldl push root] ∧
      windingProject.read (["src", "main", "a.ets"].foldl push root) = .ok windingSource := by
  have last : ["src", "main", "a.ets"].foldl push root =
      sourceDirectory {} root ++ "/" ++ "a.ets" := by
    rw [sourceDirectory_default]
    exact push_eq (push_ne_empty _ (show "main" ≠ "" by decide))
      (endsWith_push (show "main" ≠ "" by decide) (by decide)) (show '/' ∉ "a.ets".toList by decide)
  have shortDirectory : (sourceDirectory {} root).utf8ByteSize ≤ FileStore.longestPath := by
    rw [last, String.utf8ByteSize_append, String.utf8ByteSize_append] at short
    omega
  have directory : windingProject.resolve (sourceDirectory {} root) =
      .ok ["ws", "entry", "src", "main"] := by
    rw [sourceDirectory_default] at shortDirectory ⊢
    exact FileStore.resolve_below_of_short resolved (by decide) (by decide) (by decide)
      shortDirectory (by decide +kernel)
  have shown : windingProject.listing? (sourceDirectory {} root) =
      some (.directory [("a.ets", .file windingSource.toUTF8)]) := by
    rw [FileStore.listing?, FileStore.get?, directory]
    rfl
  have isSource : hasSourceExtension {} (["src", "main", "a.ets"].foldl push root) = true := by
    have extension : extension? "a.ets" = some "ets" := by decide +kernel
    rw [hasSourceExtension, parts_foldl_push root (by decide), List.getLast?_append,
      show ["src", "main", "a.ets"].getLast? = some "a.ets" from rfl, Option.some_or,
      Option.bind_some, extension]
    rfl
  constructor
  · have isDirectory : windingProject.isDirectory root = true :=
      FileStore.isDirectory_iff.2 ⟨_, resolved, rfl⟩
    have listable : unlistable? windingProject {} root = none := by
      unfold unlistable?
      dsimp only
      rw [shown]
      simp [FileTree.directoryPaths, FileTree.entryDirectoryPaths, shortDirectory]
    have deep : filesOfSourceDirectory windingProject {} root =
        [["src", "main", "a.ets"].foldl push root] := by
      unfold filesOfSourceDirectory
      dsimp only
      rw [shown, sourceDirectory_default]
      rfl
    have direct : filesOfModuleRoot windingProject root = [] := by
      rw [filesOfModuleRoot, FileStore.listing?, FileStore.get?, resolved]
      rfl
    rw [sourceFiles, if_pos isDirectory, listable, deep, direct, List.append_nil]
    dsimp only
    rw [List.filter_cons_of_pos isSource, List.filter_nil]
    rfl
  · have reached := FileStore.resolve_below_of_short resolved (by decide) (by decide) (by decide)
      short (by decide +kernel)
    rw [FileStore.read_of_fileAt? reached (show _ = some windingSource.toUTF8 from rfl),
      Text.fromUTF8?_toUTF8]

theorem analyse_windingProject (resolved : windingProject.resolve root = .ok ["ws", "entry"])
    (short : (["src", "main", "a.ets"].foldl push root).utf8ByteSize ≤ FileStore.longestPath) :
    analyse {} {} root windingProject = analyse {} {} "/ws/entry" windingProject := by
  have plainly : windingProject.resolve "/ws/entry" = .ok ["ws", "entry"] := by decide +kernel
  obtain ⟨found, read⟩ := sourceFiles_windingProject resolved short
  obtain ⟨foundPlainly, readPlainly⟩ := sourceFiles_windingProject plainly (by decide +kernel)
  have sources {path : String} (read : windingProject.read path = .ok windingSource) :
      readSources windingProject {} [path] =
        ([{ SourceSummary.ofText ({} : AnalysisSettings).reservedSegments "" windingSource with
          path := path }], []) := by
    rw [← SourceSummary.ofText_eq]
    simp only [readSources, readSource, List.map_cons, List.map_nil, read]
    rfl
  have analysed : analyse {} {} root windingProject = _ := analyse_eq_outcome found resolved
  have analysedPlainly : analyse {} {} "/ws/entry" windingProject = _ :=
    analyse_eq_outcome foundPlainly plainly
  rw [analysed, analysedPlainly, sources read, sources readPlainly]
  simp only [outcome, Package.collect_path, List.length_singleton]

theorem winding_run_cannot_be_repeated :
    windingProject.WellFormed ∧ windingProject.tree.Named ∧
    windingProject.resolve (dottedRoot 2035) = .ok ["ws", "entry"] ∧
    windingProject.tree.fileAt? ["ws", "entry", "oh-package.json5"] = none ∧
    ∃ result after listed,
      (process {} {} (dottedRoot 2035)).perform windingProject = (.ok result, after) ∧
      result.packages.keys = [windingModule] ∧ PlainText windingModule ∧
      ¬ ["ws", "entry"] <+: place ["ws"] windingModule ∧
      (process {} {} (dottedRoot 2035)).perform after =
        (.error (.unlistable (sourceDirectory {} (dottedRoot 2035)) listed .nameTooLong),
          after) := by
  have wellFormed : windingProject.WellFormed := FileStore.wellFormed_ofTexts _
  have plainly : windingProject.resolve "/ws/entry" = .ok ["ws", "entry"] := by decide +kernel
  have shortRoot : 9 + 2035 * 2 ≤ FileStore.longestPath := by decide
  have resolved : windingProject.resolve (dottedRoot 2035) = .ok ["ws", "entry"] :=
    resolve_dottedRoot plainly rfl shortRoot
  have short : (["src", "main", "a.ets"].foldl push (dottedRoot 2035)).utf8ByteSize ≤
      FileStore.longestPath :=
    (utf8ByteSize_foldl_dottedRoot (by decide) 2035).trans_le (by decide)
  have alike : (process {} {} (dottedRoot 2035)).perform windingProject =
      (process {} {} "/ws/entry").perform windingProject := by
    rw [perform_process, perform_process, analyse_windingProject resolved short]
  have shown : ((process {} {} "/ws/entry").perform windingProject).1.toOption.map
        (·.packages.keys) = some [windingModule] ∧
      ((process {} {} "/ws/entry").perform windingProject).2.isDirectory
        "/ws/entry/src/main/components" = true := by
    decide +kernel
  obtain ⟨result, after, performed, keys⟩ := FileAction.exists_perform_eq_ok shown.1
  obtain ⟨grows, wellFormedAfter⟩ := grows_of_process wellFormed (by decide) performed
  have resolvedAfter := grows.resolve resolved
  have made := shown.2
  rw [performed] at made
  obtain ⟨reached, leads, made⟩ := FileStore.isDirectory_iff.1 made
  have reachedIs := FileStore.eq_locate_of_resolve leads
  rw [FileStore.start_of_isAbsolute (by decide +kernel)] at reachedIs
  obtain rfl : reached = ["ws", "entry", "src", "main", "components"] :=
    reachedIs.trans (by decide +kernel)
  have sources : after.tree.nodeAt? ["ws", "entry", "src", "main"] = some .directory :=
    FileStore.nodeAt?_of_below (Option.isSome_iff_exists.2 ⟨_, made⟩)
  have resolvedSources : after.resolve (sourceDirectory {} (dottedRoot 2035)) =
      .ok ["ws", "entry", "src", "main"] := by
    rw [sourceDirectory_default]
    exact FileStore.resolve_below_of_short resolvedAfter (by decide) (by decide) (by decide)
      ((utf8ByteSize_foldl_dottedRoot (by decide) 2035).trans_le (by decide))
      (Option.isSome_iff_exists.2 ⟨_, sources⟩)
  have long : FileStore.longestPath <
      (["components"].foldl push (sourceDirectory {} (dottedRoot 2035))).utf8ByteSize := by
    rw [sourceDirectory_default, ← List.foldl_append]
    exact (show _ < _ by decide).trans_eq (utf8ByteSize_foldl_dottedRoot (by decide) 2035).symm
  obtain ⟨listed, found⟩ := Option.ne_none_iff_exists'.1
    (unlistable?_ne_none wellFormedAfter resolvedSources made long)
  refine ⟨wellFormed, FileStore.named_ofTexts (by decide), resolved, rfl, result, after, listed,
    alike.trans performed, keys, by decide +kernel, by decide +kernel, ?_⟩
  exact perform_process_of_unlistable
    (FileStore.isDirectory_iff.2 ⟨_, resolvedAfter, grows.directory _ rfl⟩) found

end Winding

end Run

end AmbientStubs
