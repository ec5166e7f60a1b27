import AmbientStubs.Proofs.Run.Effects

/-!
What the manifest of a module says after a run.  Patching keeps all that it finds, but the stubs are
written before it: a stub whose place is the module itself puts its own manifest there first.
-/

namespace AmbientStubs.Run

open PathText StubPackage JsonValue Manifest

section StubManifest

variable {settings : StubSettings} {package : Package}

theorem regular_manifest : (manifest settings package).Regular := by
  refine .object ?_ ?_
  · show ["name", "version", "description", "main", "types"].Nodup
    decide
  · simp [Regular.text]

theorem plainText_stubName (plain : PlainText package.modulePath) :
    PlainText package.stubName := by
  have kept : ∀ character ∈ package.stubName.toList,
      character = '_' ∨ character ∈ package.modulePath.toList := by
    intro character inside
    rw [Package.stubName, String.toList_ofList] at inside
    obtain ⟨original, listed, rfl⟩ := List.mem_map.1 inside
    split
    · exact .inl rfl
    · right
      split at listed
      · next shape => exact shape ▸ List.mem_cons_of_mem _ listed
      · exact listed
  constructor
  · intro inside
    exact (kept _ inside).elim (by decide) plain.1
  · intro inside
    exact (kept _ inside).elim (by decide) plain.2

theorem plain_manifest (plainModule : PlainText package.modulePath)
    (plainVersion : PlainText settings.stubVersion) : (manifest settings package).Plain := by
  refine .object ?_ ?_
  · simp only [List.forall_mem_cons]
    exact ⟨by decide, by decide, by decide, by decide, by decide, by simp⟩
  · simp only [List.forall_mem_cons]
    exact ⟨.text (plainText_stubName plainModule), .text plainVersion,
      .text (plainText_append (by decide) plainModule), .text (by decide), .text (by decide),
      by simp⟩

end StubManifest

section StubsWritten

variable {settings : StubSettings} {location : List String} {packages : List Package}

/-- Stubs that stand elsewhere leave the manifest of the module alone. -/
theorem contentAfter_files_elsewhere (elsewhere : ∀ package ∈ packages,
      place location.dropLast package.modulePath ≠ location) (old : Option ByteArray) :
    FileStore.contentAfter old (packages.flatMap (files settings location.dropLast))
      (location ++ [settings.manifestName]) = old := by
  apply FileStore.contentAfter_of_forall_ne
  intro write listed same
  obtain ⟨package, inside, listed⟩ := List.mem_flatMap.1 listed
  apply elsewhere package inside
  rcases eq_place_of_mem_files listed with lies | lies
  · exact List.append_inj_left' (lies.symm.trans same) rfl
  · exact List.append_inj_left' (lies.symm.trans same) rfl

/-- The last stub whose place is the module puts its manifest there. -/
theorem contentAfter_files_there {earlier later : List Package} {package : Package}
    (inOrder : packages = earlier ++ package :: later)
    (there : place location.dropLast package.modulePath = location)
    (last : ∀ other ∈ later, place location.dropLast other.modulePath ≠ location)
    (old : Option ByteArray) :
    FileStore.contentAfter old (packages.flatMap (files settings location.dropLast))
        (location ++ [settings.manifestName]) =
      some ((manifest settings package).pretty ++ "\n").toUTF8 := by
  have own (before : Option ByteArray) : FileStore.contentAfter before
      (files settings location.dropLast package) (location ++ [settings.manifestName]) =
        some ((manifest settings package).pretty ++ "\n").toUTF8 := by
    rw [files, there]
    exact if_pos rfl
  rw [inOrder, List.flatMap_append, List.flatMap_cons, FileStore.contentAfter_append,
    FileStore.contentAfter_append, own, contentAfter_files_elsewhere last]

end StubsWritten

/-- What the manifest of the module says once the stubs are written is kept by the rest of the
run. -/
theorem exists_keeps {settings : Settings} {options : RunOptions} {moduleRoot : String}
    {store after : FileStore} {result : RunResult} {location : List String}
    {members : List (String × JsonValue)} (wellFormed : store.WellFormed)
    (manifestName : IsName settings.stubs.manifestName) (wet : options.dryRun = false)
    (performed : (process settings options moduleRoot).perform store = (.ok result, after))
    (resolved : store.resolve moduleRoot = .ok location)
    (plainModules : ∀ module ∈ result.packages.keys, PlainText module)
    (plain : (JsonValue.object members).Plain)
    (read : ∀ between, store.Writes (stubFiles settings.stubs location.dropLast result) between →
      between.jsonAt? (location ++ [settings.stubs.manifestName]) = some (.object members)) :
    ∃ patched, after.jsonAt? (location ++ [settings.stubs.manifestName]) =
        some (.object patched) ∧
      Keeps members patched := by
  rcases process_cases performed with ⟨same, idle⟩ | ⟨reached, analysed, -, facts, -, ran⟩
  · obtain ⟨-, dry | empty⟩ := idle result rfl
    · exact absurd (wet.symm.trans dry) Bool.false_ne_true
    · rw [Catalog.isEmpty, List.isEmpty_iff] at empty
      refine ⟨members, ?_, .refl members⟩
      rw [same]
      apply read
      rw [stubFiles, Catalog.values, empty]
      exact .refl wellFormed
  · cases resolved.symm.trans facts.resolved
    obtain ⟨between, patch, changed, patched, rfl⟩ :=
      exists_patch_of_generate wellFormed manifestName facts ran
    have distinct : analysed.packages.keys.Nodup := facts.ascending.keys.imp String.ne_of_lt
    have kept := jsonAt?_patch changed.wellFormed (facts.names wellFormed).1 manifestName
      (read between changed) plain distinct plainModules
    rwa [patched] at kept

/-- A run keeps all that the manifest of the module says, unless the place of some stub is the
module itself.  Then the manifest says what the manifest of the last such stub says. -/
theorem module_manifest_is_kept_unless_a_stub_takes_its_place {settings : Settings}
    {options : RunOptions} {moduleRoot : String} {store after : FileStore} {result : RunResult}
    {location : List String} {members : List (String × JsonValue)}
    (wellFormed : store.WellFormed) (manifestName : IsName settings.stubs.manifestName)
    (wet : options.dryRun = false)
    (performed : (process settings options moduleRoot).perform store = (.ok result, after))
    (resolved : store.resolve moduleRoot = .ok location)
    (read : store.jsonAt? (location ++ [settings.stubs.manifestName]) = some (.object members))
    (plain : (JsonValue.object members).Plain)
    (plainModules : ∀ module ∈ result.packages.keys, PlainText module) :
    ((∀ module ∈ result.packages.keys, place location.dropLast module ≠ location) →
      ∃ patched, after.jsonAt? (location ++ [settings.stubs.manifestName]) =
          some (.object patched) ∧
        Keeps members patched) ∧
    (∀ earlier package later stub, result.packages.values = earlier ++ package :: later →
      place location.dropLast package.modulePath = location →
      (∀ other ∈ later, place location.dropLast other.modulePath ≠ location) →
      PlainText settings.stubs.stubVersion → manifest settings.stubs package = .object stub →
      ∃ patched, after.jsonAt? (location ++ [settings.stubs.manifestName]) =
          some (.object patched) ∧
        Keeps stub patched) := by
  obtain ⟨reached, completed⟩ := exists_completed wellFormed manifestName wet performed
  have plainPackages : ∀ package ∈ result.packages.values, PlainText package.modulePath := by
    rw [completed.keys, List.forall_mem_map] at plainModules
    exact plainModules
  constructor
  · intro elsewhere
    rw [completed.keys, List.forall_mem_map] at elsewhere
    refine exists_keeps wellFormed manifestName wet performed resolved plainModules plain ?_
    intro between changed
    rw [FileStore.jsonAt?, changed.fileAt?, stubFiles, contentAfter_files_elsewhere elsewhere]
    exact read
  · intro earlier package later stub inOrder there last plainVersion isStub
    have printable := plain_manifest (plainPackages package (by simp [inOrder])) plainVersion
    refine exists_keeps wellFormed manifestName wet performed resolved plainModules
      (isStub ▸ printable) ?_
    intro between changed
    rw [← isStub]
    refine jsonAt?_eq_some_of_pretty printable regular_manifest ?_
    rw [changed.fileAt?]
    exact contentAfter_files_there inOrder there last _

theorem plain_single {key value : String} (plainKey : PlainText key)
    (plainValue : PlainText value) :
    (JsonValue.object [(key, .text value)]).Plain :=
  .object (by simpa using plainKey) (by simpa using .text plainValue)

theorem regular_single (key value : String) : (JsonValue.object [(key, .text value)]).Regular :=
  .object (by simp) (by simp [Regular.text])

def licensedMembers : List (String × JsonValue) :=
  [("license", .text "MIT"), ("dependencies", .object [("lodash", .text "1.0.0")])]

theorem plain_licensedMembers : (JsonValue.object licensedMembers).Plain := by
  refine .object ?_ ?_ <;> simp only [licensedMembers, List.forall_mem_cons]
  · exact ⟨by decide, by decide, by simp⟩
  · exact ⟨.text (by decide), plain_single (by decide) (by decide), by simp⟩

theorem regular_licensedMembers : (JsonValue.object licensedMembers).Regular := by
  refine .object (by decide +kernel) ?_
  simp only [licensedMembers, List.forall_mem_cons]
  exact ⟨.text _, regular_single _ _, by simp⟩

def licensedProject (source : String) : FileStore :=
  .ofTexts [(["ws", "entry", "src", "main", "a.ets"], source),
    (["ws", "entry", "oh-package.json5"], (JsonValue.object licensedMembers).pretty ++ "\n")]

def libImportingProject : FileStore :=
  licensedProject "import \x7b Box \x7d from 'lib';"

theorem lib_importing_module_keeps_its_manifest :
    ∃ result patched, ((process {} {} "/ws/entry").perform libImportingProject).1 = .ok result ∧
      result.packages.keys = ["lib"] ∧
      ((process {} {} "/ws/entry").perform libImportingProject).2.jsonAt?
        ["ws", "entry", "oh-package.json5"] = some (.object patched) ∧
      Keeps licensedMembers patched ∧ member? "license" patched = some (.text "MIT") := by
  have resolved : libImportingProject.resolve "/ws/entry" = .ok ["ws", "entry"] := by
    decide +kernel
  have shown : ((process {} {} "/ws/entry").perform libImportingProject).1.toOption.map
      (·.packages.keys) = some ["lib"] := by
    decide +kernel
  have read : libImportingProject.jsonAt? ["ws", "entry", "oh-package.json5"] =
      some (.object licensedMembers) :=
    jsonAt?_eq_some_of_pretty plain_licensedMembers regular_licensedMembers (by decide +kernel)
  obtain ⟨result, after, performed, keys⟩ := FileAction.exists_perform_eq_ok shown
  obtain ⟨kept, -⟩ := module_manifest_is_kept_unless_a_stub_takes_its_place
    (show libImportingProject.WellFormed from FileStore.wellFormed_ofTexts _) (by decide)
    rfl performed resolved read plain_licensedMembers (by rw [keys]; decide +kernel)
  obtain ⟨patched, readAgain, keeps⟩ := kept (by rw [keys]; decide +kernel)
  rw [performed]
  exact ⟨result, patched, rfl, keys, readAgain, keeps, keeps.members "license" (by decide)⟩

def selfImportingProject : FileStore :=
  licensedProject "import \x7b Box \x7d from 'entry';"

theorem self_importing_module_loses_its_manifest :
    selfImportingProject.WellFormed ∧ IsName ({} : Settings).stubs.manifestName ∧
    selfImportingProject.jsonAt? ["ws", "entry", "oh-package.json5"] =
      some (.object licensedMembers) ∧
    ∃ result patched, ((process {} {} "/ws/entry").perform selfImportingProject).1 = .ok result ∧
      ((process {} {} "/ws/entry").perform selfImportingProject).2.jsonAt?
        ["ws", "entry", "oh-package.json5"] = some (.object patched) ∧
      member? "license" patched = none ∧ ¬ Keeps licensedMembers patched := by
  have wellFormed : selfImportingProject.WellFormed := FileStore.wellFormed_ofTexts _
  have resolved : selfImportingProject.resolve "/ws/entry" = .ok ["ws", "entry"] := by
    decide +kernel
  have shown : ((process {} {} "/ws/entry").perform selfImportingProject).1.toOption.map
      (·.packages.keys) = some ["entry"] := by
    decide +kernel
  refine ⟨wellFormed, by decide,
    jsonAt?_eq_some_of_pretty plain_licensedMembers regular_licensedMembers (by decide +kernel), ?_⟩
  obtain ⟨result, after, performed, keys⟩ := FileAction.exists_perform_eq_ok shown
  obtain ⟨location, completed⟩ := exists_completed wellFormed (by decide) rfl performed
  obtain ⟨package, values, module⟩ :=
    List.map_eq_singleton_iff.1 (completed.keys.symm.trans keys)
  have plain : (manifest {} package).Plain :=
    plain_manifest (by rw [module]; decide) (by decide)
  have inOrder : result.packages.values = [] ++ package :: [] := values
  have there : place ["ws", "entry"].dropLast package.modulePath = ["ws", "entry"] := by
    rw [module]
    decide +kernel
  obtain ⟨patched, readAgain, keeps⟩ := exists_keeps wellFormed (by decide) rfl performed
    resolved (by rw [keys]; decide +kernel) plain fun between changed =>
      jsonAt?_eq_some_of_pretty plain regular_manifest
        ((changed.fileAt? _).trans (contentAfter_files_there inOrder there (by simp) _))
  have lost : member? "license" patched = none := keeps.members "license" (by decide)
  rw [performed]
  refine ⟨result, patched, rfl, readAgain, lost, fun kept => ?_⟩
  exact nomatch lost.symm.trans (kept.members "license" (by decide))

end AmbientStubs.Run
