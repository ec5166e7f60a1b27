import AmbientStubs.Proofs.PathText.Components
import AmbientStubs.Proofs.Run.Effects

/-!
What stands in the directories of the stubs after a run.  Stubs are written one after the other, so
where several module paths lead to one place the last of them has its declarations there.
-/

namespace AmbientStubs.Run

open PathText StubPackage

theorem nodup_components_of_nodup_places {project : List String}
    (names : ∀ name ∈ project, IsName name) {modules : List String}
    (distinct : (modules.map (place project)).Nodup) :
    ((modules.map (directory (ofLocation project))).map components).Nodup := by
  refine List.pairwise_map.2 (List.pairwise_map.2 ((List.pairwise_map.1 distinct).imp ?_))
  intro first second apart same
  apply apart
  rw [← locate_directory names, ← locate_components, same, locate_components,
    locate_directory names]

theorem append_manifestName_ne {settings : StubSettings} {first second : List String}
    (notDeclarations : settings.manifestName ≠ declarationFileName) :
    first ++ [settings.manifestName] ≠ second ++ [declarationFileName] := by
  intro same
  exact notDeclarations (List.cons.inj (List.append_inj_right' same rfl)).1

/-- The declarations of the last package at a place stand there after all stubs are written. -/
theorem contentAfter_stubFiles {settings : StubSettings} {project : List String}
    {result : RunResult} {earlier later : List Package} {package : Package}
    (notDeclarations : settings.manifestName ≠ declarationFileName)
    (inOrder : result.packages.values = earlier ++ package :: later)
    (last : ∀ other ∈ later,
      place project other.modulePath ≠ place project package.modulePath)
    {patched : List (List String × ByteArray)}
    (otherwise : ∀ write ∈ patched,
      write.1 ≠ place project package.modulePath ++ [declarationFileName])
    (old : Option ByteArray) :
    FileStore.contentAfter old (stubFiles settings project result ++ patched)
        (place project package.modulePath ++ [declarationFileName]) =
      some package.declarationText.toUTF8 := by
  rw [stubFiles, inOrder, List.flatMap_append, List.flatMap_cons, files]
  simp only [List.append_assoc, List.cons_append, List.nil_append]
  apply FileStore.contentAfter_last
  rw [List.forall_mem_cons, List.forall_mem_append]
  refine ⟨append_manifestName_ne notDeclarations, fun write listed => ?_, otherwise⟩
  obtain ⟨other, isLater, listed⟩ := List.mem_flatMap.1 listed
  rcases eq_place_of_mem_files listed with lies | lies <;> rw [lies]
  · exact fun same => last other isLater (List.append_inj_left' same rfl)
  · exact append_manifestName_ne notDeclarations

/-- A run that succeeds writes one directory for every package, in the order of the module paths.
The declarations of a package stand in its directory unless a later module path leads to the same
place; so if all module paths lead to places of their own, the directories are different paths and
every package has its own declarations. -/
theorem every_stub_is_its_own_unless_a_later_one_shares_its_place {settings : Settings}
    {options : RunOptions} {moduleRoot : String} {store after : FileStore} {result : RunResult}
    (wellFormed : store.WellFormed) (manifestName : IsName settings.stubs.manifestName)
    (notDeclarations : settings.stubs.manifestName ≠ declarationFileName)
    (wet : options.dryRun = false)
    (performed : (process settings options moduleRoot).perform store = (.ok result, after)) :
    ∃ location, store.resolve moduleRoot = .ok location ∧
      result.packages.keys = result.packages.values.map (·.modulePath) ∧
      result.packages.keys.Pairwise (· < ·) ∧
      result.written =
        result.packages.keys.map (directory (ofLocation location.dropLast)) ∧
      (∀ earlier package later, result.packages.values = earlier ++ package :: later →
        (∀ other ∈ later, place location.dropLast other.modulePath ≠
          place location.dropLast package.modulePath) →
        after.tree.fileAt?
            (place location.dropLast package.modulePath ++ [declarationFileName]) =
          some package.declarationText.toUTF8) ∧
      ((result.packages.keys.map (place location.dropLast)).Nodup →
        (result.written.map components).Nodup ∧
        ∀ package ∈ result.packages.values, after.tree.fileAt?
            (place location.dropLast package.modulePath ++ [declarationFileName]) =
          some package.declarationText.toUTF8) := by
  obtain ⟨location, completed⟩ := exists_completed wellFormed manifestName wet performed
  obtain ⟨patched, writes, atManifest⟩ := completed.writes
  have names : ∀ name ∈ location.dropLast, IsName name := fun name inside =>
    wellFormed.names_of_resolve completed.resolved name (List.dropLast_subset location inside)
  have lastOne : ∀ earlier package later, result.packages.values = earlier ++ package :: later →
      (∀ other ∈ later, place location.dropLast other.modulePath ≠
        place location.dropLast package.modulePath) →
      after.tree.fileAt? (place location.dropLast package.modulePath ++ [declarationFileName]) =
        some package.declarationText.toUTF8 := by
    intro earlier package later inOrder last
    rw [writes.fileAt?]
    refine contentAfter_stubFiles notDeclarations inOrder last (fun write listed => ?_) _
    rw [atManifest write listed]
    exact append_manifestName_ne notDeclarations
  refine ⟨location, completed.resolved, completed.keys, completed.ascending.keys,
    completed.written, lastOne, fun apart => ⟨?_, fun package listed => ?_⟩⟩
  · rw [completed.written]
    exact nodup_components_of_nodup_places names apart
  · obtain ⟨earlier, later, inOrder⟩ := List.append_of_mem listed
    rw [completed.keys, inOrder, List.map_map, List.map_append, List.map_cons,
      List.nodup_append, List.nodup_cons] at apart
    refine lastOne earlier package later inOrder fun other isLater same => apart.2.1.1 ?_
    exact List.mem_map.2 ⟨other, isLater, same⟩

def nestedProject : FileStore :=
  .ofTexts [(["ws", "entry", "src", "main", "a.ets"],
    "import \x7b Box \x7d from 'lib';\nimport \x7b Lid \x7d from 'lib/core';")]

theorem lib_and_lib_core_have_their_own_stubs :
    ∃ result, ((process {} {} "/ws/entry").perform nestedProject).1 = .ok result ∧
      result.written = ["/ws/lib", "/ws/lib/core"] ∧
      (result.written.map components).Nodup ∧
      ∀ package ∈ result.packages.values,
        ((process {} {} "/ws/entry").perform nestedProject).2.tree.fileAt?
            (place ["ws"] package.modulePath ++ ["index.d.ts"]) =
          some package.declarationText.toUTF8 := by
  have resolved : nestedProject.resolve "/ws/entry" = .ok ["ws", "entry"] := by decide +kernel
  have shown : ((process {} {} "/ws/entry").perform nestedProject).1.toOption.map
      (fun result => (result.packages.keys, result.written)) =
        some (["lib", "lib/core"], ["/ws/lib", "/ws/lib/core"]) := by
    decide +kernel
  obtain ⟨result, after, performed, viewed⟩ := FileAction.exists_perform_eq_ok shown
  obtain ⟨keys, written⟩ := Prod.mk.inj viewed
  obtain ⟨location, found, -, -, -, -, own⟩ :=
    every_stub_is_its_own_unless_a_later_one_shares_its_place
      (show nestedProject.WellFormed from FileStore.wellFormed_ofTexts _) (by decide)
      (by decide) rfl performed
  cases resolved.symm.trans found
  obtain ⟨apart, each⟩ := own (by rw [keys]; decide +kernel)
  rw [performed]
  exact ⟨result, rfl, written, apart, each⟩

def slashProject : FileStore :=
  .ofTexts [(["ws", "entry", "src", "main", "a.ets"],
    "import \x7b Box \x7d from 'lib';\nimport \x7b Lid \x7d from 'lib/';")]

theorem lib_loses_its_stub_to_lib_slash :
    slashProject.WellFormed ∧ IsName ({} : Settings).stubs.manifestName ∧
    ({} : Settings).stubs.manifestName ≠ declarationFileName ∧
    ((process {} {} "/ws/entry").perform slashProject).1.toOption.map
      (fun result => (result.packages.keys, result.written)) =
        some (["lib", "lib/"], ["/ws/lib", "/ws/lib"]) ∧
    ((process {} {} "/ws/entry").perform slashProject).2.tree.fileAt?
        ["ws", "lib", "index.d.ts"] ≠
      ((process {} {} "/ws/entry").perform slashProject).1.toOption.bind
        (fun result => (result.packages.get? "lib").map (·.declarationText.toUTF8)) :=
  ⟨FileStore.wellFormed_ofTexts _, by decide +kernel⟩

end AmbientStubs.Run
