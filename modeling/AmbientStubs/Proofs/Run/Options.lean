import AmbientStubs.Console
import AmbientStubs.Proofs.Run.Effects

/-!
What the options of a run decide.  The analysis is the same under all of them: it finds packages
and warnings, of which the options select some, and only a run that is no dry run goes on to write.
-/

namespace AmbientStubs

namespace Catalog

variable {Value : Type}

theorem alterEntries_of_forall_lt {key : String} {change : Option Value → Value}
    {entries : List (String × Value)} (below : ∀ entry ∈ entries, entry.1 < key) :
    alterEntries key change entries = entries ++ [(key, change none)] := by
  induction entries with
  | nil => rfl
  | cons first rest inductionHypothesis =>
      obtain ⟨present, value⟩ := first
      rw [List.forall_mem_cons] at below
      rw [alterEntries, if_neg (String.lt_asymm below.1), if_neg (String.ne_of_lt below.1).symm,
        inductionHypothesis below.2, List.cons_append]

theorem foldl_insert_of_ascending {catalog : Catalog Value} (ascending : catalog.Ascending) :
    catalog.entries.foldl (fun filed entry => filed.insert entry.1 entry.2) {} = catalog := by
  obtain ⟨entries⟩ := catalog
  have behind (front : List (String × Value)) (sorted : (Catalog.mk (front ++ entries)).Ascending) :
      entries.foldl (fun filed entry => filed.insert entry.1 entry.2) (Catalog.mk front) =
        Catalog.mk (front ++ entries) := by
    clear ascending
    induction entries generalizing front with
    | nil => simp
    | cons entry rest inductionHypothesis =>
        have below : ∀ earlier ∈ front, earlier.1 < entry.1 := fun earlier inside =>
          (List.pairwise_append.1 sorted).2.2 earlier inside entry List.mem_cons_self
        have next : (Catalog.mk front).insert entry.1 entry.2 = Catalog.mk (front ++ [entry]) := by
          rw [insert, alter, alterEntries_of_forall_lt below]
        rw [List.append_cons] at sorted ⊢
        rw [List.foldl_cons, next]
        exact inductionHypothesis _ sorted
  simpa using behind [] ascending

end Catalog

/-- An action that leaves the files as they are, whatever its outcome. -/
def ReadOnly {Cause Result : Type} (action : ExceptT Cause (StateM FileStore) Result) : Prop :=
  ∀ store : FileStore, ((ExceptT.run action).run store).2 = store

namespace ReadOnly

variable {Cause First Second : Type}

theorem pure (result : First) :
    ReadOnly (Pure.pure result : ExceptT Cause (StateM FileStore) First) :=
  fun _ => rfl

theorem bind {action : ExceptT Cause (StateM FileStore) First}
    {next : First → ExceptT Cause (StateM FileStore) Second} (first : ReadOnly action)
    (second : ∀ value, ReadOnly (next value)) : ReadOnly (action >>= next) := by
  intro store
  have kept := first store
  rw [ExceptT.run_bind, StateT.run_bind]
  cases performed : StateT.run (ExceptT.run action) store with
  | mk outcome after =>
      rw [performed] at kept
      obtain rfl : after = store := kept
      cases outcome with
      | error cause => rfl
      | ok value => exact second value after

theorem read (path : String) : ReadOnly (FileAction.read path) := fun store =>
  congrArg Prod.snd (FileAction.perform_read path store)

theorem load (path : String) : ReadOnly (Settings.load path) := by
  refine (read path).bind fun text => ?_
  split
  · exact .pure _
  · exact fun _ => rfl

theorem resolve (explicit : Option String) (moduleRoot : String) :
    ReadOnly (Settings.resolve explicit moduleRoot) := by
  cases explicit with
  | some path => exact load path
  | none =>
      refine ReadOnly.bind (fun _ => rfl) fun store => ?_
      split
      · exact load _
      · exact .pure _

theorem inContext {action : FileAction First} (readOnly : ReadOnly action) (context : String) :
    ReadOnly (Console.inContext context action) := by
  intro store
  have kept := readOnly store
  show ((ExceptT.run action >>= fun outcome => _).run store).2 = store
  rw [StateT.run_bind]
  cases performed : StateT.run (ExceptT.run action) store with
  | mk outcome after =>
      rw [performed] at kept
      obtain rfl : after = store := kept
      cases outcome <;> rfl

end ReadOnly

namespace Run

/-- The part of a result that options let through. -/
def select (settings : StubSettings) (options : RunOptions) (result : RunResult) : RunResult :=
  { result with
    packages := result.packages.filterKeys fun module => !isSkipped settings options module
    skippedSdk := result.packages.keys.filter (isSkipped settings options) }

/-- The analysis under any options selects from the analysis that leaves nothing out. -/
theorem analyse_eq_select (settings : Settings) (options : RunOptions) (moduleRoot : String)
    (store : FileStore) :
    analyse settings options moduleRoot store =
      (analyse settings { includeSdk := true } moduleRoot store).map
        (select settings.stubs options) := by
  rw [analyse, analyse]
  cases Discovery.sourceFiles store settings.scan moduleRoot with
  | error cause => rfl
  | ok paths =>
      cases store.resolve moduleRoot with
      | error cause => rfl
      | ok location =>
          refine congrArg Except.ok ?_
          simp only [select, isSkipped, Catalog.filterKeys, Catalog.mapWithKey, Catalog.keys,
            Bool.not_true, Bool.false_and, Bool.not_false, List.filter_true, List.filter_map,
            List.map_map, Function.comp_def]

section ExtraDeclarations

theorem extraDeclarations_of_mem_collect {settings : InferenceSettings}
    {summaries : List SourceSummary} {key : String} {package : Package}
    (listed : (key, package) ∈ (Package.collect settings summaries).entries) :
    package.extraDeclarations = {} := by
  have found := (Package.ascending_collect settings summaries).get?_of_mem listed
  rw [Package.eq_ofUses_of_get?_collect found, Package.ofUses, Package.foldl_apply_eq]

theorem foldl_addExtraDeclaration (package : Package) (entries : List (String × String)) :
    (entries.foldl (fun package entry => package.addExtraDeclaration entry.1 entry.2)
        package).extraDeclarations =
      entries.foldl (fun filed entry => filed.insert entry.1 entry.2)
        package.extraDeclarations := by
  induction entries generalizing package with
  | nil => rfl
  | cons entry rest inductionHypothesis => exact inductionHypothesis _

theorem extraDeclarations_withExtraDeclarations {extra : Catalog (Catalog String)}
    (sorted : ∀ entry ∈ extra.entries, entry.2.Ascending) {package : Package}
    (fresh : package.extraDeclarations = {}) :
    (withExtraDeclarations extra package).extraDeclarations =
      (extra.get? package.modulePath).getD {} := by
  rw [withExtraDeclarations]
  cases found : extra.get? package.modulePath with
  | none => exact fresh
  | some declarations =>
      obtain ⟨entry, listed, rfl⟩ := Option.map_eq_some_iff.1 found
      dsimp only
      rw [foldl_addExtraDeclaration, fresh, Option.getD_some]
      exact Catalog.foldl_insert_of_ascending (sorted entry (List.mem_of_find?_eq_some listed))

theorem extraDeclarations_of_analyse {settings : Settings} {options : RunOptions}
    {moduleRoot : String} {store : FileStore} {result : RunResult}
    (sorted : ∀ entry ∈ settings.extraDeclarations.entries, entry.2.Ascending)
    (analysed : analyse settings options moduleRoot store = .ok result) {module : String}
    {package : Package} (listed : (module, package) ∈ result.packages.entries) :
    package.extraDeclarations = (settings.extraDeclarations.get? module).getD {} := by
  obtain ⟨paths, location, -, -, rfl⟩ := analyse_eq_ok_iff.1 analysed
  obtain ⟨entry, kept, same⟩ := List.mem_map.1 listed
  obtain ⟨rfl, rfl⟩ := Prod.mk.inj same
  have collected := (List.mem_filter.1 kept).1
  rw [extraDeclarations_withExtraDeclarations sorted (extraDeclarations_of_mem_collect collected),
    Package.modulePath_of_mem_collect collected]

end ExtraDeclarations

def OfPlatform (settings : StubSettings) (module : String) : Prop :=
  ∃ start ∈ settings.sdkStarts, start.toList <+: module.toList

theorem isSdkModule_iff {settings : StubSettings} {module : String} :
    settings.isSdkModule module = true ↔ OfPlatform settings module := by
  simp only [StubSettings.isSdkModule, List.any_eq_true, Text.startsWith,
    List.isPrefixOf_iff_prefix, OfPlatform]

/-- A result leaves out of another one the packages of the platform, lists them and changes
nothing else. -/
structure LeavesOut (settings : StubSettings) (all chosen : RunResult) : Prop where
  skippedAscending : chosen.skippedSdk.Pairwise (· < ·)
  skipped : ∀ module, module ∈ chosen.skippedSdk ↔
    module ∈ all.packages.keys ∧ OfPlatform settings module
  ascending : chosen.packages.Ascending
  packages : ∀ module package, (module, package) ∈ chosen.packages.entries ↔
    (module, package) ∈ all.packages.entries ∧ ¬ OfPlatform settings module

theorem leavesOut_select {settings : StubSettings} {all : RunResult}
    (ascending : all.packages.Ascending) (dryRun : Bool) :
    LeavesOut settings all (select settings { dryRun } all) where
  skippedAscending := ascending.keys.filter _
  skipped := by
    intro module
    rw [select, List.mem_filter, isSkipped, Bool.not_false, Bool.true_and, isSdkModule_iff]
  ascending := ascending.filterKeys _
  packages := by
    intro module package
    simp only [select, Catalog.filterKeys, List.mem_filter, isSkipped, Bool.not_false,
      Bool.true_and, Bool.not_eq_true', ← isSdkModule_iff, Bool.not_eq_true]

theorem perform_process_of_dry {options : RunOptions} (dry : options.dryRun = true)
    (settings : Settings) (moduleRoot : String) (store : FileStore) :
    (process settings options moduleRoot).perform store =
      (analyse settings options moduleRoot store, store) := by
  rw [perform_process]
  cases analyse settings options moduleRoot store with
  | error cause => rfl
  | ok result => exact if_pos (by rw [dry, Bool.true_or])

theorem readOnly_process_of_dry {options : RunOptions} (dry : options.dryRun = true)
    (settings : Settings) (moduleRoot : String) : ReadOnly (process settings options moduleRoot) :=
  fun store => congrArg Prod.snd (perform_process_of_dry dry settings moduleRoot store)

theorem readOnly_scan (time module : String) (config : Option String) (json : Bool) :
    ReadOnly (Console.run time (.scan module config json)) := by
  refine ReadOnly.bind (ReadOnly.bind ((ReadOnly.resolve config module).inContext _) fun settings =>
    (readOnly_process_of_dry rfl settings module).inContext _) fun result => ?_
  split <;> exact .pure _

/-- A result differs from another one at most by what was written. -/
structure SameAnalysis (first second : RunResult) : Prop where
  modulePath : first.modulePath = second.modulePath
  projectRoot : first.projectRoot = second.projectRoot
  filesScanned : first.filesScanned = second.filesScanned
  warnings : first.warnings = second.warnings
  packages : first.packages = second.packages
  skippedSdk : first.skippedSdk = second.skippedSdk

theorem SameAnalysis.refl (result : RunResult) : SameAnalysis result result :=
  ⟨rfl, rfl, rfl, rfl, rfl, rfl⟩

theorem sameAnalysis_of_generate {settings : StubSettings} {store after : FileStore}
    {result final : RunResult}
    (performed : (generate settings result).perform store = (.ok final, after)) :
    SameAnalysis result final := by
  rw [generate, FileAction.perform_bind] at performed
  split at performed
  · rw [FileAction.perform_bind] at performed
    split at performed
    · cases performed
      exact ⟨rfl, rfl, rfl, rfl, rfl, rfl⟩
    · cases performed
  · cases performed

theorem exists_analyse_of_process {settings : Settings} {options : RunOptions} {moduleRoot : String}
    {store after : FileStore} {result : RunResult}
    (performed : (process settings options moduleRoot).perform store = (.ok result, after)) :
    ∃ analysed, analyse settings options moduleRoot store = .ok analysed ∧
      SameAnalysis analysed result := by
  rcases process_cases performed with ⟨-, idle⟩ | ⟨-, analysed, found, -, -, ran⟩
  · exact ⟨result, (idle result rfl).1, .refl result⟩
  · exact ⟨analysed, found, sameAnalysis_of_generate ran⟩

/-- Options only select: they never change the analysis. -/
theorem options_select_from_one_analysis {settings : Settings}
    (sorted : ∀ entry ∈ settings.extraDeclarations.entries, entry.2.Ascending)
    (moduleRoot : String) (store : FileStore) :
    (∀ options : RunOptions, options.dryRun = true →
      ((process settings options moduleRoot).perform store).2 = store) ∧
    (∀ time module config json,
      ((ExceptT.run (Console.run time (.scan module config json))).run store).2 = store) ∧
    (∀ options result after,
      (process settings options moduleRoot).perform store = (.ok result, after) →
      ∃ dry, (process settings { options with dryRun := true } moduleRoot).perform store =
        (.ok dry, store) ∧ SameAnalysis dry result) ∧
    (∀ cause, (process settings { dryRun := true, includeSdk := true } moduleRoot).perform store =
        (.error cause, store) ↔
      (process settings { dryRun := true } moduleRoot).perform store = (.error cause, store)) ∧
    ∀ all chosen,
      (process settings { dryRun := true, includeSdk := true } moduleRoot).perform store =
        (.ok all, store) →
      (process settings { dryRun := true } moduleRoot).perform store = (.ok chosen, store) →
      LeavesOut settings.stubs all chosen ∧
      ∀ module package, (module, package) ∈ all.packages.entries →
        package.extraDeclarations = (settings.extraDeclarations.get? module).getD {} := by
  refine ⟨fun options dry => readOnly_process_of_dry dry settings moduleRoot store,
    fun time module config json => readOnly_scan time module config json store,
    fun options result after performed => ?_, fun cause => ?_, fun all chosen performedAll
      performedChosen => ?_⟩
  · obtain ⟨analysed, found, same⟩ := exists_analyse_of_process performed
    refine ⟨analysed, ?_, same⟩
    rw [perform_process_of_dry rfl]
    exact Prod.ext found rfl
  · rw [perform_process_of_dry rfl, perform_process_of_dry rfl, analyse_eq_select settings
      { dryRun := true }, Prod.mk.injEq, Prod.mk.injEq, and_iff_left rfl, and_iff_left rfl]
    show analyse settings { includeSdk := true } moduleRoot store = _ ↔ _
    cases analyse settings { includeSdk := true } moduleRoot store <;> simp [Except.map]
  · have found : analyse settings { includeSdk := true } moduleRoot store = .ok all :=
      congrArg Prod.fst ((perform_process_of_dry rfl _ _ _).symm.trans performedAll)
    have selected := congrArg Prod.fst
      ((perform_process_of_dry rfl _ _ _).symm.trans performedChosen)
    rw [analyse_eq_select, found] at selected
    obtain rfl : select settings.stubs { dryRun := true } all = chosen := Except.ok.inj selected
    obtain ⟨location, analysed⟩ := exists_analysed found
    exact ⟨leavesOut_select analysed.ascending true,
      fun module package listed => extraDeclarations_of_analyse sorted found listed⟩

def boxSettings : Settings :=
  { extraDeclarations := ⟨[("lib", ⟨[("Box", "export declare class Box \x7b\x7d")]⟩)]⟩ }

def kitProject : FileStore :=
  .ofTexts [(["ws", "entry", "src", "main", "a.ets"],
    "import \x7b Box \x7d from 'lib';\nimport \x7b util \x7d from '@kit.ArkTS';")]

theorem kit_is_left_out_and_lib_has_its_declaration :
    ∃ all chosen,
      (process boxSettings { dryRun := true, includeSdk := true } "/ws/entry").perform kitProject =
        (.ok all, kitProject) ∧
      (process boxSettings { dryRun := true } "/ws/entry").perform kitProject =
        (.ok chosen, kitProject) ∧
      all.packages.keys = ["@kit.ArkTS", "lib"] ∧ chosen.packages.keys = ["lib"] ∧
      LeavesOut boxSettings.stubs all chosen ∧
      ∀ package, ("lib", package) ∈ all.packages.entries →
        package.extraDeclarations = ⟨[("Box", "export declare class Box \x7b\x7d")]⟩ := by
  have shownAll : ((process boxSettings { dryRun := true, includeSdk := true }
      "/ws/entry").perform kitProject).1.toOption.map (·.packages.keys) =
        some ["@kit.ArkTS", "lib"] := by
    decide +kernel
  have shownChosen : ((process boxSettings { dryRun := true } "/ws/entry").perform
      kitProject).1.toOption.map (·.packages.keys) = some ["lib"] := by
    decide +kernel
  obtain ⟨readOnly, -, -, -, select⟩ := options_select_from_one_analysis
    (show ∀ entry ∈ boxSettings.extraDeclarations.entries, entry.2.Ascending by
      simp [boxSettings, Catalog.Ascending]) "/ws/entry" kitProject
  obtain ⟨all, after, performedAll, allKeys⟩ := FileAction.exists_perform_eq_ok shownAll
  obtain ⟨chosen, final, performedChosen, keys⟩ := FileAction.exists_perform_eq_ok shownChosen
  obtain rfl : after = kitProject := by
    have kept := readOnly { dryRun := true, includeSdk := true } rfl
    rwa [performedAll] at kept
  obtain rfl : final = kitProject := by
    have kept := readOnly { dryRun := true } rfl
    rwa [performedChosen] at kept
  obtain ⟨leavesOut, declarations⟩ := select all chosen performedAll performedChosen
  exact ⟨all, chosen, performedAll, performedChosen, allKeys, keys, leavesOut,
    fun package listed => declarations "lib" package listed⟩

end Run

end AmbientStubs
