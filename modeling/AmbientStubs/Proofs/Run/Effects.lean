import AmbientStubs.Run
import AmbientStubs.Proofs.Manifest
import AmbientStubs.Proofs.Package.FileOrder

/-!
What a run does to the files.  The analysis changes nothing; then the stubs of the packages are
written in the order of their module paths, and last the manifest of the module is patched.
-/

namespace AmbientStubs

open PathText

namespace Package

theorem modulePath_of_mem_collect {settings : InferenceSettings} {summaries : List SourceSummary}
    {key : String} {package : Package}
    (listed : (key, package) ∈ (collect settings summaries).entries) :
    package.modulePath = key := by
  have found := (ascending_collect settings summaries).get?_of_mem listed
  rw [eq_ofUses_of_get?_collect found, modulePath_ofUses]

end Package

namespace Run

theorem modulePath_withExtraDeclarations (extra : Catalog (Catalog String)) (package : Package) :
    (withExtraDeclarations extra package).modulePath = package.modulePath := by
  rw [withExtraDeclarations]
  split
  · rfl
  · next declarations found =>
      clear found
      induction declarations.entries generalizing package with
      | nil => rfl
      | cons entry rest inductionHypothesis => exact inductionHypothesis _

section Analysis

variable {settings : Settings} {options : RunOptions} {moduleRoot : String} {store : FileStore}

def outcome (settings : Settings) (options : RunOptions) (location : List String)
    (filesScanned : Nat) (read : List SourceSummary × List Warning) : RunResult :=
  let all := Package.collect settings.inference read.1
  let skipped := isSkipped settings.stubs options
  { modulePath := PathText.ofLocation location
    projectRoot := PathText.ofLocation location.dropLast
    filesScanned := filesScanned
    warnings := read.2
    packages := (all.filterKeys fun module => !skipped module).mapWithKey
      fun _ package => withExtraDeclarations settings.extraDeclarations package
    skippedSdk := all.keys.filter skipped }

theorem analyse_eq_outcome {paths location : List String}
    (found : Discovery.sourceFiles store settings.scan moduleRoot = .ok paths)
    (resolved : store.resolve moduleRoot = .ok location) :
    analyse settings options moduleRoot store =
      .ok (outcome settings options location paths.length
        (readSources store settings.analysis paths)) := by
  rw [analyse, found, resolved]
  rfl

/-- An analysis succeeds if the source files are found and the module root leads somewhere. -/
theorem analyse_eq_ok_iff {result : RunResult} :
    analyse settings options moduleRoot store = .ok result ↔
      ∃ paths location, Discovery.sourceFiles store settings.scan moduleRoot = .ok paths ∧
        store.resolve moduleRoot = .ok location ∧
        result = outcome settings options location paths.length
          (readSources store settings.analysis paths) := by
  constructor
  · intro analysed
    obtain ⟨paths, found, located⟩ := FileStore.exists_of_bind_eq_ok analysed
    cases resolved : store.resolve moduleRoot with
    | error cause =>
        rw [resolved] at located
        cases located
    | ok location =>
        rw [analyse_eq_outcome found resolved] at analysed
        cases analysed
        exact ⟨paths, location, found, rfl, rfl⟩
  · rintro ⟨paths, location, found, resolved, rfl⟩
    exact analyse_eq_outcome found resolved

structure Analysed (store : FileStore) (moduleRoot : String) (location : List String)
    (result : RunResult) : Prop where
  resolved : store.resolve moduleRoot = .ok location
  modulePath : result.modulePath = ofLocation location
  projectRoot : result.projectRoot = ofLocation location.dropLast
  written : result.written = []
  patch : result.patch = none
  ascending : result.packages.Ascending
  keys : result.packages.keys = result.packages.values.map (·.modulePath)

theorem exists_analysed {result : RunResult}
    (analysed : analyse settings options moduleRoot store = .ok result) :
    ∃ location, Analysed store moduleRoot location result := by
  obtain ⟨paths, location, -, resolved, rfl⟩ := analyse_eq_ok_iff.1 analysed
  have all := Package.ascending_collect settings.inference
    (readSources store settings.analysis paths).1
  have ascending := (all.filterKeys fun module =>
    !isSkipped settings.stubs options module).mapWithKey fun _ package =>
      withExtraDeclarations settings.extraDeclarations package
  refine ⟨location, resolved, rfl, rfl, rfl, rfl, ascending, ?_⟩
  simp only [outcome, Catalog.keys, Catalog.values, Catalog.mapWithKey, Catalog.filterKeys,
    List.map_map]
  refine List.map_congr_left fun entry listed => ?_
  have filed := Package.modulePath_of_mem_collect (List.mem_filter.1 listed).1
  exact ((modulePath_withExtraDeclarations _ entry.2).trans filed).symm

theorem Analysed.names {location : List String} {result : RunResult}
    (analysed : Analysed store moduleRoot location result)
    (wellFormed : store.WellFormed) :
    (∀ name ∈ location, IsName name) ∧ ∀ name ∈ location.dropLast, IsName name := by
  have names := wellFormed.names_of_resolve analysed.resolved
  exact ⟨names, fun name inside => names name (List.dropLast_subset location inside)⟩

end Analysis

theorem perform_process (settings : Settings) (options : RunOptions) (moduleRoot : String)
    (store : FileStore) :
    (process settings options moduleRoot).perform store =
      match analyse settings options moduleRoot store with
      | .error cause => (.error cause, store)
      | .ok result =>
          if options.dryRun || result.packages.isEmpty then (.ok result, store)
          else (generate settings.stubs result).perform store := by
  rw [process, FileAction.perform_get_bind]
  cases analyse settings options moduleRoot store with
  | error cause => rfl
  | ok result =>
      dsimp only
      split <;> rfl

/-- A run only analyses, or it analyses and then generates. -/
theorem process_cases {settings : Settings} {options : RunOptions} {moduleRoot : String}
    {store after : FileStore} {outcome : Except RunError RunResult}
    (performed : (process settings options moduleRoot).perform store = (outcome, after)) :
    (after = store ∧ ∀ result, outcome = .ok result →
      analyse settings options moduleRoot store = .ok result ∧
        (options.dryRun = true ∨ result.packages.isEmpty = true)) ∨
    ∃ location result, analyse settings options moduleRoot store = .ok result ∧
      Analysed store moduleRoot location result ∧ options.dryRun = false ∧
      (generate settings.stubs result).perform store = (outcome, after) := by
  rw [perform_process] at performed
  cases analysed : analyse settings options moduleRoot store with
  | error cause =>
      rw [analysed] at performed
      cases performed
      exact .inl ⟨rfl, nofun⟩
  | ok result =>
      rw [analysed] at performed
      dsimp only at performed
      split at performed
      · next idle =>
          cases performed
          refine .inl ⟨rfl, fun found same => ?_⟩
          cases same
          exact ⟨rfl, by simpa using idle⟩
      · next active =>
          obtain ⟨location, facts⟩ := exists_analysed analysed
          rw [Bool.or_eq_true, not_or, Bool.not_eq_true] at active
          exact .inr ⟨location, result, rfl, facts, active.1, performed⟩

def stubFiles (settings : StubSettings) (project : List String) (result : RunResult) :
    List (List String × ByteArray) :=
  result.packages.values.flatMap (StubPackage.files settings project)

def finished (location : List String) (result : RunResult) (patch : Manifest.PatchOutcome) :
    RunResult :=
  { result with
    written := result.packages.keys.map (StubPackage.directory (ofLocation location.dropLast))
    patch := some patch }

/-- Generating writes the stubs, and if all of them are written, patches the manifest. -/
theorem perform_generate {settings : StubSettings} {store : FileStore} {moduleRoot : String}
    {location : List String} {result : RunResult} (wellFormed : store.WellFormed)
    (manifestName : IsName settings.manifestName)
    (analysed : Analysed store moduleRoot location result) :
    ∃ written between, store.Writes written between ∧
      ((written <+: stubFiles settings location.dropLast result ∧
        ∃ cause, (generate settings result).perform store = (.error cause, between)) ∨
      (written = stubFiles settings location.dropLast result ∧
        (generate settings result).perform store =
          (((Manifest.patch settings (ofLocation location) result.packages.keys).perform
              between).1.map (finished location result),
          ((Manifest.patch settings (ofLocation location) result.packages.keys).perform
            between).2))) := by
  have outputs := StubPackage.outputs_writeAll (analysed.names wellFormed).2 manifestName
    result.packages.values
  obtain ⟨written, begun, changed, complete⟩ := outputs store wellFormed
  rw [generate, FileAction.perform_bind, analysed.projectRoot]
  cases performed : (StubPackage.writeAll settings (ofLocation location.dropLast)
      result.packages.values).perform store with
  | mk outcome between =>
      rw [performed] at changed complete
      refine ⟨written, between, changed, ?_⟩
      cases outcome with
      | error cause => exact .inl ⟨begun, cause, rfl⟩
      | ok directories =>
          obtain ⟨all, listed⟩ := complete directories rfl
          refine .inr ⟨all, ?_⟩
          have inOrder : directories = result.packages.keys.map
              (StubPackage.directory (ofLocation location.dropLast)) := by
            rw [listed, analysed.keys, List.map_map]
            rfl
          dsimp only
          rw [FileAction.perform_bind, analysed.modulePath, inOrder]
          cases (Manifest.patch settings (ofLocation location) result.packages.keys).perform
              between with
          | mk patched after =>
              cases patched with
              | error cause => rfl
              | ok patch =>
                  show _ = (Except.ok (finished location result patch), after)
                  rw [finished, analysed.modulePath, analysed.projectRoot]
                  rfl

/-- Generating that succeeds has written all stubs and then patched the manifest. -/
theorem exists_patch_of_generate {settings : StubSettings} {store after : FileStore}
    {moduleRoot : String} {location : List String} {analysed result : RunResult}
    (wellFormed : store.WellFormed) (manifestName : IsName settings.manifestName)
    (facts : Analysed store moduleRoot location analysed)
    (ran : (generate settings analysed).perform store = (.ok result, after)) :
    ∃ between patch, store.Writes (stubFiles settings location.dropLast analysed) between ∧
      (Manifest.patch settings (ofLocation location) analysed.packages.keys).perform between =
        (.ok patch, after) ∧
      result = finished location analysed patch := by
  obtain ⟨written, between, changed, ⟨-, cause, failed⟩ | ⟨rfl, finishes⟩⟩ :=
    perform_generate wellFormed manifestName facts
  · cases ran.symm.trans failed
  · obtain ⟨succeeded, rfl⟩ := Prod.mk.inj (ran.symm.trans finishes)
    cases patched : (Manifest.patch settings (ofLocation location)
        analysed.packages.keys).perform between with
    | mk outcome last =>
        rw [patched] at succeeded
        cases outcome with
        | error cause => cases succeeded
        | ok patch =>
            cases succeeded
            exact ⟨between, patch, changed, patched, rfl⟩

/-- All that a run writes: stubs, all of them if it succeeds, and the manifest of the module. -/
theorem writes_generate {settings : StubSettings} {store after : FileStore} {moduleRoot : String}
    {location : List String} {result : RunResult} {outcome : Except RunError RunResult}
    (wellFormed : store.WellFormed) (manifestName : IsName settings.manifestName)
    (analysed : Analysed store moduleRoot location result)
    (performed : (generate settings result).perform store = (outcome, after)) :
    ∃ written patched, store.Writes (written ++ patched) after ∧
      written <+: stubFiles settings location.dropLast result ∧
      (∀ write ∈ patched, write.1 = location ++ [settings.manifestName]) ∧
      ∀ final, outcome = .ok final → written = stubFiles settings location.dropLast result ∧
        ∃ patch, final = finished location result patch := by
  have finishes (final : RunResult) (succeeded : outcome = .ok final) :
      ∃ patch, final = finished location result patch := by
    rw [succeeded] at performed
    obtain ⟨_, patch, -, -, same⟩ :=
      exists_patch_of_generate wellFormed manifestName analysed performed
    exact ⟨patch, same⟩
  obtain ⟨written, between, changed, ⟨begun, cause, failed⟩ | ⟨all, ran⟩⟩ :=
    perform_generate wellFormed manifestName analysed
  · rw [failed] at performed
    cases performed
    exact ⟨written, [], by rwa [List.append_nil], begun, by simp, nofun⟩
  · obtain ⟨patched, changedMore, shape⟩ := Manifest.writes_patch changed.wellFormed
      (analysed.names wellFormed).1 manifestName result.packages.keys
    rw [ran] at performed
    cases performed
    refine ⟨written, patched, changed.trans changedMore, all ▸ List.prefix_rfl, ?_, ?_⟩
    · rcases shape with rfl | ⟨members, -, rfl⟩ <;> simp
    · exact fun final succeeded => ⟨all, finishes final succeeded⟩

/-- What a run that is no dry run has done when it succeeds. -/
structure Completed (settings : StubSettings) (store : FileStore) (moduleRoot : String)
    (location : List String) (result : RunResult) (after : FileStore) : Prop where
  resolved : store.resolve moduleRoot = .ok location
  ascending : result.packages.Ascending
  keys : result.packages.keys = result.packages.values.map (·.modulePath)
  written : result.written =
    result.packages.keys.map (StubPackage.directory (ofLocation location.dropLast))
  writes : ∃ patched, store.Writes (stubFiles settings location.dropLast result ++ patched) after ∧
    ∀ write ∈ patched, write.1 = location ++ [settings.manifestName]

theorem exists_completed {settings : Settings} {options : RunOptions} {moduleRoot : String}
    {store after : FileStore} {result : RunResult} (wellFormed : store.WellFormed)
    (manifestName : IsName settings.stubs.manifestName) (wet : options.dryRun = false)
    (performed : (process settings options moduleRoot).perform store = (.ok result, after)) :
    ∃ location, Completed settings.stubs store moduleRoot location result after := by
  rcases process_cases performed with ⟨same, idle⟩ | ⟨location, analysed, -, facts, -, ran⟩
  · obtain ⟨analysed, dry | empty⟩ := idle result rfl
    · exact absurd (wet.symm.trans dry) Bool.false_ne_true
    · obtain ⟨location, facts⟩ := exists_analysed analysed
      rw [Catalog.isEmpty, List.isEmpty_iff] at empty
      refine ⟨location, facts.resolved, facts.ascending, facts.keys, ?_, [], ?_, by simp⟩
      · rw [facts.written, Catalog.keys, empty]
        rfl
      · rw [same, stubFiles, Catalog.values, empty]
        exact .refl wellFormed
  · obtain ⟨written, patched, writes, -, atManifest, complete⟩ :=
      writes_generate wellFormed manifestName facts ran
    obtain ⟨rfl, patch, rfl⟩ := complete result rfl
    exact ⟨location, facts.resolved, facts.ascending, facts.keys, rfl, patched, writes, atManifest⟩

end Run

end AmbientStubs
