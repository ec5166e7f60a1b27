import AmbientStubs.Proofs.Run.Effects

/-!
Where a run writes.  A module path without `..` leads into the project, so its stub is written
there; one that climbs out of the project takes its stub along.
-/

namespace AmbientStubs.Run

open PathText StubPackage

theorem exists_module_of_mem_stubFiles {settings : StubSettings} {project : List String}
    {store : FileStore} {moduleRoot : String} {location : List String} {result : RunResult}
    (analysed : Analysed store moduleRoot location result) {write : List String × ByteArray}
    (listed : write ∈ stubFiles settings project result) :
    ∃ module ∈ result.packages.keys, write.1 = place project module ++ [declarationFileName] ∨
      write.1 = place project module ++ [settings.manifestName] := by
  obtain ⟨package, inside, listed⟩ := List.mem_flatMap.1 listed
  refine ⟨package.modulePath, ?_, eq_place_of_mem_files listed⟩
  rw [analysed.keys]
  exact List.mem_map_of_mem inside

/-- A file of a stub lies in the project unless its module path leads out. -/
theorem inside_or_leads_out {project : List String} {module : String} {written : List String}
    {name : String} (lies : written = place project module ++ [name]) :
    project <+: written ∨ ".." ∈ parts module ∧ ¬ project <+: place project module := by
  by_cases inside : project <+: place project module
  · exact .inl (lies ▸ inside.trans (List.prefix_append _ _))
  · refine .inr ⟨?_, inside⟩
    apply Classical.byContradiction
    intro down
    exact inside (isPrefix_locate down project)

/-- Every file that a run creates or changes lies in the project, whether the run succeeds or not,
but for the two files of a stub whose module path climbs out of the project by `..` parts.  A run
that succeeds does write the stub of every package, wherever its module path leads. -/
theorem changed_files_lie_in_the_project_unless_a_module_path_leads_out {settings : Settings}
    {options : RunOptions} {moduleRoot : String} {store after : FileStore}
    {outcome : Except RunError RunResult} (wellFormed : store.WellFormed)
    (manifestName : IsName settings.stubs.manifestName)
    (performed : (process settings options moduleRoot).perform store = (outcome, after)) :
    (∀ changed, after.tree.fileAt? changed ≠ store.tree.fileAt? changed →
      ∃ location result, store.resolve moduleRoot = .ok location ∧
        analyse settings options moduleRoot store = .ok result ∧ options.dryRun = false ∧
        (location.dropLast <+: changed ∨
          ∃ module ∈ result.packages.keys,
            (".." ∈ parts module ∧ ¬ location.dropLast <+: place location.dropLast module) ∧
            (changed = place location.dropLast module ++ [declarationFileName] ∨
              changed = place location.dropLast module ++ [settings.stubs.manifestName]))) ∧
    ∀ location result, store.resolve moduleRoot = .ok location → outcome = .ok result →
      options.dryRun = false → ∀ module ∈ result.packages.keys,
        (after.tree.fileAt?
          (place location.dropLast module ++ [declarationFileName])).isSome = true := by
  constructor
  · intro changed differs
    rcases process_cases performed with ⟨same, -⟩ | ⟨location, result, analysed, facts, wet, ran⟩
    · exact absurd (by rw [same]) differs
    refine ⟨location, result, facts.resolved, analysed, wet, ?_⟩
    obtain ⟨written, patched, writes, begun, atManifest, -⟩ :=
      writes_generate wellFormed manifestName facts ran
    rw [writes.fileAt?] at differs
    obtain ⟨write, listed, rfl⟩ := FileStore.exists_write_of_contentAfter_ne differs
    rcases List.mem_append.1 listed with stub | manifest
    · obtain ⟨module, inside, lies⟩ :=
        exists_module_of_mem_stubFiles facts (begun.subset stub)
      have side : location.dropLast <+: write.1 ∨ ".." ∈ parts module ∧
          ¬ location.dropLast <+: place location.dropLast module := by
        rcases lies with lies | lies
        · exact inside_or_leads_out lies
        · exact inside_or_leads_out lies
      exact side.imp_right fun leadsOut => ⟨module, inside, leadsOut, lies⟩
    · rw [atManifest write manifest]
      exact .inl ((List.dropLast_prefix location).trans (List.prefix_append _ _))
  · intro location result resolved succeeded wet module inside
    rw [succeeded] at performed
    obtain ⟨reached, completed⟩ := exists_completed wellFormed manifestName wet performed
    cases resolved.symm.trans completed.resolved
    obtain ⟨patched, writes, -⟩ := completed.writes
    rw [completed.keys] at inside
    obtain ⟨package, listed, rfl⟩ := List.mem_map.1 inside
    rw [writes.fileAt?]
    refine FileStore.isSome_contentAfter (.inr ⟨(place location.dropLast package.modulePath ++
      [declarationFileName], package.declarationText.toUTF8), List.mem_append_left _ ?_, rfl⟩)
    exact List.mem_flatMap.2 ⟨package, listed, List.mem_cons_self⟩

def toolsProject : FileStore :=
  .ofTexts [(["ws", "entry", "src", "main", "a.ets"], "import \x7b Box \x7d from 'tools/lib';"),
    (["ws", "entry", "oh-package.json5"], "\x7b\x7d")]

theorem stub_of_tools_lib_lies_in_the_project :
    (∀ changed, ((process {} {} "/ws/entry").perform toolsProject).2.tree.fileAt? changed ≠
        toolsProject.tree.fileAt? changed → ["ws"] <+: changed) ∧
    (((process {} {} "/ws/entry").perform toolsProject).2.tree.fileAt?
      ["ws", "tools", "lib", "index.d.ts"]).isSome = true := by
  have resolved : toolsProject.resolve "/ws/entry" = .ok ["ws", "entry"] := by decide +kernel
  have keys : (analyse {} {} "/ws/entry" toolsProject).toOption.map (·.packages.keys) =
      some ["tools/lib"] := by
    decide +kernel
  have finalKeys : ((process {} {} "/ws/entry").perform toolsProject).1.toOption.map
      (·.packages.keys) = some ["tools/lib"] := by
    decide +kernel
  obtain ⟨contained, present⟩ := changed_files_lie_in_the_project_unless_a_module_path_leads_out
    (show toolsProject.WellFormed from FileStore.wellFormed_ofTexts _) (by decide)
    (Prod.eta ((process {} {} "/ws/entry").perform toolsProject)).symm
  constructor
  · intro changed differs
    obtain ⟨location, result, found, analysed, -, inside | ⟨module, listed, ⟨climbs, -⟩, -⟩⟩ :=
      contained changed differs
    · cases resolved.symm.trans found
      exact inside
    · rw [analysed] at keys
      have only : result.packages.keys = ["tools/lib"] := Option.some.inj keys
      rw [only, List.mem_singleton] at listed
      exact absurd climbs (by rw [listed]; decide +kernel)
  · obtain ⟨result, after, performed, only⟩ := FileAction.exists_perform_eq_ok finalKeys
    exact present _ result resolved (congrArg Prod.fst performed) rfl "tools/lib"
      (only ▸ List.mem_cons_self)

def climbingProject : FileStore :=
  .ofTexts [(["ws", "entry", "src", "main", "a.ets"], "import \x7b Box \x7d from 'a/../../evil';"),
    (["ws", "entry", "oh-package.json5"], "\x7b\x7d")]

theorem stub_of_evil_lies_beside_the_project :
    climbingProject.WellFormed ∧ IsName ({} : Settings).stubs.manifestName ∧
    climbingProject.resolve "/ws/entry" = .ok ["ws", "entry"] ∧
    climbingProject.tree.fileAt? ["evil", "index.d.ts"] = none ∧
    (((process {} {} "/ws/entry").perform climbingProject).2.tree.fileAt?
      ["evil", "index.d.ts"]).isSome = true ∧
    ¬ ["ws", "entry"].dropLast <+: ["evil", "index.d.ts"] :=
  ⟨FileStore.wellFormed_ofTexts _, by decide +kernel⟩

end AmbientStubs.Run
