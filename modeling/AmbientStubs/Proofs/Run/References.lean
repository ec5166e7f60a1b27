import AmbientStubs.Proofs.Manifest.Patch
import AmbientStubs.Proofs.PathText.Components
import AmbientStubs.Proofs.Run.Effects

/-!
References to stubs.  The manifest of a module refers to a stub by the raw module path, while the
directory of the stub is built from its parts; seen from the module both lead to the same place.
After a run the directory is there, and the manifest has the reference.
-/

namespace AmbientStubs

open PathText

namespace StubPackage

theorem eq_directory_of_write {settings : StubSettings} {projectRoot written : String}
    {package : Package} {store after : FileStore}
    (performed : (write settings projectRoot package).perform store = (.ok written, after)) :
    written = directory projectRoot package.modulePath := by
  rw [write] at performed
  obtain ⟨_, _, _, performed⟩ := FileAction.exists_of_perform_bind performed
  obtain ⟨_, _, _, performed⟩ := FileAction.exists_of_perform_bind performed
  obtain ⟨_, _, _, performed⟩ := FileAction.exists_of_perform_bind performed
  cases performed
  rfl

theorem eq_map_of_writeAll {settings : StubSettings} {projectRoot : String}
    {packages : List Package} {store after : FileStore} {written : List String}
    (performed : (writeAll settings projectRoot packages).perform store = (.ok written, after)) :
    written = packages.map fun package => directory projectRoot package.modulePath := by
  induction packages generalizing store written with
  | nil =>
      cases performed
      rfl
  | cons package rest inductionHypothesis =>
      rw [writeAll, List.mapM_cons] at performed
      obtain ⟨first, between, wrote, performed⟩ := FileAction.exists_of_perform_bind performed
      obtain ⟨others, last, wroteAll, performed⟩ := FileAction.exists_of_perform_bind performed
      cases performed
      rw [List.map_cons, ← inductionHypothesis wroteAll, eq_directory_of_write wrote]

/-- A reference gives a relative path that leads to a location, seen from a module root. -/
def RefersTo (moduleRoot reference : String) (location : List String) : Prop :=
  ∃ path, reference = "file:" ++ path ∧ isAbsolute path = false ∧
    locate [] (rawParts (push moduleRoot path)) = location

theorem isAbsolute_up (modulePath : String) : isAbsolute ("../" ++ modulePath) = false := by
  rw [Bool.eq_false_iff, ne_eq, isAbsolute_iff]
  rintro ⟨rest, shape⟩
  simp at shape

/-- Going up from a module and then along a module path leads where the path leads from the
project. -/
theorem locate_up_from {module : List String} (names : ∀ name ∈ module, IsName name)
    (modulePath : String) :
    locate [] (parts (push (ofLocation module) ("../" ++ modulePath))) =
      place module.dropLast modulePath := by
  have split : parts ("../" ++ modulePath) = ".." :: parts modulePath :=
    parts_append_slash ".." modulePath
  rw [parts_push_of_relative _ (isAbsolute_up modulePath), parts_ofLocation names, locate_append,
    locate_names names, split, locate_cons]
  rfl

theorem refersTo_directory {module : List String} (names : ∀ name ∈ module, IsName name)
    (modulePath : String) :
    RefersTo (ofLocation module) (reference modulePath)
      (locate [] (rawParts (directory (ofLocation module.dropLast) modulePath))) := by
  have namesAbove : ∀ name ∈ module.dropLast, IsName name := fun name inside =>
    names name (List.dropLast_subset module inside)
  have shape : reference modulePath = "file:" ++ ("../" ++ modulePath) := by
    rw [reference, ← String.append_assoc]
    rfl
  refine ⟨"../" ++ modulePath, shape, isAbsolute_up modulePath, ?_⟩
  rw [← locate_parts, ← locate_parts, locate_up_from names, locate_directory namesAbove]

end StubPackage

namespace Run

open StubPackage JsonValue Manifest

/-- A run writes the directories of the packages it has found, or none. -/
theorem written_of_process {settings : Settings} {options : RunOptions} {moduleRoot : String}
    {store after : FileStore} {result : RunResult}
    (performed : (process settings options moduleRoot).perform store = (.ok result, after)) :
    ∃ location, store.resolve moduleRoot = .ok location ∧
      result.modulePath = ofLocation location ∧
      result.projectRoot = ofLocation location.dropLast ∧
      (result.written = [] ∨
        result.written = result.packages.keys.map (directory result.projectRoot)) := by
  rcases process_cases performed with ⟨-, idle⟩ | ⟨location, analysed, -, facts, -, ran⟩
  · obtain ⟨location, facts⟩ := exists_analysed (idle result rfl).1
    exact ⟨location, facts.resolved, facts.modulePath, facts.projectRoot, .inl facts.written⟩
  · rw [generate] at ran
    obtain ⟨written, between, wroteAll, ran⟩ := FileAction.exists_of_perform_bind ran
    obtain ⟨patch, last, -, ran⟩ := FileAction.exists_of_perform_bind ran
    cases ran
    refine ⟨location, facts.resolved, facts.modulePath, facts.projectRoot, .inr ?_⟩
    show written = analysed.packages.keys.map _
    rw [eq_map_of_writeAll wroteAll, facts.keys, List.map_map]
    rfl

theorem nodeAt?_place_of_writes {settings : StubSettings} {project : List String}
    {result : RunResult} {patched : List (List String × ByteArray)} {store after : FileStore}
    (writes : store.Writes (stubFiles settings project result ++ patched) after)
    {package : Package} (listed : package ∈ result.packages.values) :
    after.tree.nodeAt? (place project package.modulePath) = some .directory := by
  have written : (place project package.modulePath ++ [declarationFileName],
      package.declarationText.toUTF8) ∈ stubFiles settings project result ++ patched :=
    List.mem_append_left _ (List.mem_flatMap.2 ⟨package, listed, List.mem_cons_self⟩)
  have file : (after.tree.fileAt?
      (place project package.modulePath ++ [declarationFileName])).isSome = true := by
    rw [writes.fileAt?]
    exact FileStore.isSome_contentAfter (.inr ⟨_, written, rfl⟩)
  by_contra noDirectory
  rw [FileTree.fileAt?, FileTree.nodeAt?_below noDirectory] at file
  cases file

/-- What a run leaves behind for every module that it registers: its stub is among the directories
written, and the manifest has the reference to it. -/
def Registers (settings : StubSettings) (result : RunResult) (after : FileStore) : Prop :=
  ∀ path added kept, result.patch = some (.patched path added kept) → added ≠ [] →
    path = push result.modulePath settings.manifestName ∧
    ∃ members, after.read path = .ok ((JsonValue.object members).pretty ++ "\n") ∧
      ∀ modulePath ∈ added, directory result.projectRoot modulePath ∈ result.written ∧
        member? modulePath (dependencies members) = some (.text (reference modulePath))

theorem directories_and_references_of_process {settings : Settings} {options : RunOptions}
    {moduleRoot : String} {store after : FileStore} {result : RunResult}
    (wellFormed : store.WellFormed) (manifestName : IsName settings.stubs.manifestName)
    (performed : (process settings options moduleRoot).perform store = (.ok result, after)) :
    (∀ written ∈ result.written,
      after.tree.nodeAt? (locate [] (rawParts written)) = some .directory) ∧
    Registers settings.stubs result after := by
  rcases process_cases performed with ⟨-, idle⟩ | ⟨location, analysed, -, facts, -, ran⟩
  · obtain ⟨_, facts⟩ := exists_analysed (idle result rfl).1
    refine ⟨fun written inside => ?_, fun path added kept patched => ?_⟩
    · rw [facts.written] at inside
      cases inside
    · rw [facts.patch] at patched
      cases patched
  · obtain ⟨between, patch, changed, patched, rfl⟩ :=
      exists_patch_of_generate wellFormed manifestName facts ran
    obtain ⟨names, namesAbove⟩ := facts.names wellFormed
    constructor
    · intro written inside
      obtain ⟨modulePath, listed, rfl⟩ := List.mem_map.1 inside
      rw [facts.keys] at listed
      obtain ⟨package, inValues, rfl⟩ := List.mem_map.1 listed
      obtain ⟨more, changedMore, -⟩ := Manifest.writes_patch changed.wellFormed names manifestName
        analysed.packages.keys
      rw [patched] at changedMore
      rw [← locate_parts, locate_directory namesAbove]
      exact nodeAt?_place_of_writes (changed.trans changedMore) inValues
    · intro path added kept reported something
      cases reported
      obtain ⟨rfl, members, read, named⟩ :=
        exists_members_of_patched changed.wellFormed patched something
      refine ⟨by rw [finished, facts.modulePath], members, read, fun modulePath listed => ?_⟩
      refine ⟨?_, (named modulePath listed).2⟩
      rw [finished, facts.projectRoot]
      exact List.mem_map_of_mem (named modulePath listed).1

/-- Seen from the module root, the reference to a stub leads to the directory of the stub; and a run
refers to the directories it has written from the module root that it has found.  After the run
these directories are there, and the manifest refers to them. -/
theorem references_lead_to_written_directories {module : List String}
    (names : ∀ name ∈ module, IsName name) :
    (∀ modulePath, RefersTo (ofLocation module) (reference modulePath)
      (locate [] (rawParts (directory (ofLocation module.dropLast) modulePath)))) ∧
    ∀ settings options moduleRoot store result after, store.WellFormed →
      (process settings options moduleRoot).perform store = (.ok result, after) →
      (∃ root, (∀ name ∈ root, IsName name) ∧ result.modulePath = ofLocation root ∧
        result.projectRoot = ofLocation root.dropLast ∧
        ∀ written ∈ result.written, ∃ modulePath ∈ result.packages.keys,
          written = directory result.projectRoot modulePath ∧
          RefersTo result.modulePath (reference modulePath) (locate [] (rawParts written))) ∧
      (IsName settings.stubs.manifestName →
        (∀ written ∈ result.written,
          after.tree.nodeAt? (locate [] (rawParts written)) = some .directory) ∧
        Registers settings.stubs result after) := by
  refine ⟨refersTo_directory names, ?_⟩
  intro settings options moduleRoot store result after wellFormed performed
  refine ⟨?_, fun manifestName =>
    directories_and_references_of_process wellFormed manifestName performed⟩
  obtain ⟨root, resolved, atModule, atProject, wrote⟩ := written_of_process performed
  have rootNames := wellFormed.names_of_resolve resolved
  refine ⟨root, rootNames, atModule, atProject, fun written inside => ?_⟩
  rcases wrote with none | all
  · rw [none] at inside
    cases inside
  · rw [all] at inside
    obtain ⟨modulePath, listed, rfl⟩ := List.mem_map.mp inside
    refine ⟨modulePath, listed, rfl, ?_⟩
    rw [atModule, atProject]
    exact refersTo_directory rootNames modulePath

def paddedProject : FileStore :=
  .ofTexts [(["ws", "entry", "src", "main", "a.ets"],
      "import \x7b Box \x7d from '@pura//./tmp/../utils/';"),
    (["ws", "entry", "oh-package.json5"], "\x7b\x7d")]

/-- The padded path leads to one place from the module, in the tree and by the manifest. -/
theorem padded_reference_leads_to_directory :
    RefersTo "/ws/entry" "file:../@pura//./tmp/../utils/" ["ws", "@pura", "utils"] ∧
    RefersTo "/" "file:../@pura//./tmp/../utils/" ["@pura", "utils"] ∧
    ∃ result members,
      ((process {} {} "/ws/entry").perform paddedProject).1 = .ok result ∧
      result.written = ["/ws/@pura/./tmp/../utils"] ∧
      ((process {} {} "/ws/entry").perform paddedProject).2.tree.nodeAt?
        ["ws", "@pura", "utils"] = some .directory ∧
      ((process {} {} "/ws/entry").perform paddedProject).2.read "/ws/entry/oh-package.json5" =
        .ok ((JsonValue.object members).pretty ++ "\n") ∧
      member? "@pura//./tmp/../utils/" (dependencies members) =
        some (.text "file:../@pura//./tmp/../utils/") := by
  obtain ⟨leads, ran⟩ := references_lead_to_written_directories
    (show ∀ name ∈ ["ws", "entry"], IsName name by decide)
  have below := leads "@pura//./tmp/../utils/"
  have atRoot := (references_lead_to_written_directories
    (show ∀ name ∈ [], IsName name by decide)).1 "@pura//./tmp/../utils/"
  have roots : ofLocation ["ws", "entry"] = "/ws/entry" ∧ ofLocation [] = "/" := by
    decide +kernel
  have shape : reference "@pura//./tmp/../utils/" = "file:../@pura//./tmp/../utils/" := by
    decide +kernel
  have places : locate [] (rawParts (directory (ofLocation ["ws", "entry"].dropLast)
        "@pura//./tmp/../utils/")) = ["ws", "@pura", "utils"] ∧
      locate [] (rawParts (directory (ofLocation [].dropLast) "@pura//./tmp/../utils/")) =
        ["@pura", "utils"] := by
    decide +kernel
  rw [roots.1, shape, places.1] at below
  rw [roots.2, shape, places.2] at atRoot
  have shown : ((process {} {} "/ws/entry").perform paddedProject).1.toOption.map
      (fun result => (result.written, result.patch)) =
        some (["/ws/@pura/./tmp/../utils"],
          some (.patched "/ws/entry/oh-package.json5" ["@pura//./tmp/../utils/"] [])) := by
    decide +kernel
  obtain ⟨result, after, performed, viewed⟩ := FileAction.exists_perform_eq_ok shown
  obtain ⟨written, patched⟩ := Prod.mk.inj viewed
  obtain ⟨-, left⟩ := ran {} {} "/ws/entry" paddedProject result after
    (FileStore.wellFormed_ofTexts _) performed
  obtain ⟨directories, registers⟩ := left (by decide)
  have directory := directories "/ws/@pura/./tmp/../utils" (by rw [written]; decide)
  rw [show locate [] (rawParts "/ws/@pura/./tmp/../utils") = ["ws", "@pura", "utils"] by
    decide +kernel] at directory
  obtain ⟨-, members, read, named⟩ := registers _ _ _ patched (by decide)
  have entry := (named "@pura//./tmp/../utils/" (by decide)).2
  rw [shape] at entry
  rw [performed]
  exact ⟨below, atRoot, result, members, rfl, written, directory, read, entry⟩

end Run

end AmbientStubs
