import AmbientStubs.Package.Collection
import AmbientStubs.Proofs.Catalog
import AmbientStubs.Proofs.Package.Growth

/-!
The collection seen from one package.  The uses of a package are taken file by file: first
the imports that name it, then the accesses whose base such an import binds in the same
file.  What the collection holds under a module path is the run of these uses, and nothing
that concerns another module path has a part in it.
-/

namespace AmbientStubs.Package

open Text

inductive Use where
  /-- It imports a name from the package. -/
  | ofImport (imported : Import)
  /-- It uses a name that an import from the package binds. -/
  | ofAccess (imported : Import) (access : Access)
  deriving DecidableEq

def Use.apply (settings : InferenceSettings) (package : Package) : Use → Package
  | .ofImport imported => package.addImported settings imported
  | .ofAccess imported access => package.addAccess settings imported access

/-- The accesses of a file that belong to a package, each with the import that binds its
base. -/
def resolvedIn (modulePath : String) (summary : SourceSummary) : List (Import × Access) :=
  summary.accesses.filterMap fun access =>
    ((summary.binding? access.base).filter (·.modulePath == modulePath)).map (·, access)

def resolved (modulePath : String) (summaries : List SourceSummary) : List (Import × Access) :=
  summaries.flatMap (resolvedIn modulePath)

def usesIn (modulePath : String) (summary : SourceSummary) : List Use :=
  (summary.imports.filter (·.modulePath == modulePath)).map .ofImport ++
    (resolvedIn modulePath summary).map fun use => .ofAccess use.1 use.2

/-- All uses of a package, in the order of the files. -/
def uses (modulePath : String) (summaries : List SourceSummary) : List Use :=
  summaries.flatMap (usesIn modulePath)

def ofUses (settings : InferenceSettings) (modulePath : String) (uses : List Use) : Package :=
  uses.foldl (Use.apply settings) { modulePath := modulePath }

theorem mem_resolvedIn {modulePath : String} {summary : SourceSummary} {imported : Import}
    {access : Access} :
    (imported, access) ∈ resolvedIn modulePath summary ↔
      access ∈ summary.accesses ∧ summary.binding? access.base = some imported ∧
        imported.modulePath = modulePath := by
  simp only [resolvedIn, List.mem_filterMap, Option.map_eq_some_iff, Option.filter_eq_some_iff,
    beq_iff_eq, Prod.mk.injEq]
  constructor
  · rintro ⟨access, membership, imported, ⟨bound, same⟩, rfl, rfl⟩
    exact ⟨membership, bound, same⟩
  · rintro ⟨membership, bound, same⟩
    exact ⟨access, membership, imported, ⟨bound, same⟩, rfl, rfl⟩

theorem mem_of_binding? {imports : List Import} {identifier : String} {imported : Import}
    (bound : Import.binding? imports identifier = some imported) : imported ∈ imports :=
  List.mem_of_find?_eq_some bound

theorem mem_usesIn {modulePath : String} {summary : SourceSummary} {use : Use}
    (membership : use ∈ usesIn modulePath summary) :
    (∃ imported ∈ summary.imports, imported.modulePath = modulePath ∧ use = .ofImport imported) ∨
      ∃ imported ∈ summary.imports, imported.modulePath = modulePath ∧
        ∃ access ∈ summary.accesses, use = .ofAccess imported access := by
  rcases List.mem_append.mp membership with direct | bound
  · obtain ⟨imported, found, rfl⟩ := List.mem_map.mp direct
    obtain ⟨found, same⟩ := List.mem_filter.mp found
    exact .inl ⟨imported, found, beq_iff_eq.mp same, rfl⟩
  · obtain ⟨⟨imported, access⟩, found, rfl⟩ := List.mem_map.mp bound
    obtain ⟨used, bound, same⟩ := mem_resolvedIn.mp found
    exact .inr ⟨imported, mem_of_binding? bound, same, access, used, rfl⟩

theorem ofImport_mem_uses {modulePath : String} {summaries : List SourceSummary}
    {imported : Import} :
    .ofImport imported ∈ uses modulePath summaries ↔
      ∃ summary ∈ summaries, imported ∈ summary.imports ∧ imported.modulePath = modulePath := by
  simp [uses, usesIn]

theorem ofAccess_mem_uses {modulePath : String} {summaries : List SourceSummary}
    {imported : Import} {access : Access} :
    .ofAccess imported access ∈ uses modulePath summaries ↔
      (imported, access) ∈ resolved modulePath summaries := by
  simp [uses, usesIn, resolved]

section Projection

variable (settings : InferenceSettings) (modulePath : String)

def grow (package : Option Package) (use : Use) : Option Package :=
  some (use.apply settings (package.getD { modulePath := modulePath }))

theorem foldl_grow_some (package : Package) (uses : List Use) :
    uses.foldl (grow settings modulePath) (some package) =
      some (uses.foldl (Use.apply settings) package) := by
  induction uses generalizing package with
  | nil => rfl
  | cons use rest inductionHypothesis => exact inductionHypothesis (use.apply settings package)

theorem foldl_grow_none (uses : List Use) :
    uses.foldl (grow settings modulePath) none =
      if uses.isEmpty then none else some (ofUses settings modulePath uses) := by
  cases uses with
  | nil => rfl
  | cons use rest => simpa [ofUses, grow] using foldl_grow_some settings modulePath _ rest

namespace Collection

/-- What holds of the collection while a file is taken in: keys ascend, no key names a local
file, and the packages that the file imports from are there. -/
structure Ready (imports : List Import) (packages : Collection) : Prop where
  ascending : packages.Ascending
  external : ∀ key package, packages.get? key = some package → startsWith key "." = false
  present : ∀ imported ∈ imports, imported.isExternal = true →
    (packages.get? imported.modulePath).isSome = true

theorem get?_addImport {packages : Collection} (ascending : packages.Ascending)
    (imported : Import) (key : String) :
    (addImport settings packages imported).get? key =
      if imported.isExternal = true ∧ imported.modulePath = key then
        grow settings key (packages.get? key) (.ofImport imported)
      else packages.get? key := by
  unfold addImport
  by_cases external : imported.isExternal = true
  · rw [if_pos external, Catalog.get?_alter ascending]
    by_cases same : imported.modulePath = key
    · subst same
      simp [external, grow, Use.apply]
    · simp [same, Ne.symm same]
  · simp [external]

theorem Ready.addImport {imports : List Import} {packages : Collection}
    (ready : Ready imports packages) (imported : Import) :
    Ready (imports ++ [imported]) (addImport settings packages imported) where
  ascending := by
    unfold Collection.addImport
    split
    · exact ready.ascending.alter _ _
    · exact ready.ascending
  external := by
    intro key package found
    rw [get?_addImport settings ready.ascending] at found
    split at found
    · next taken =>
        obtain ⟨external, rfl⟩ := taken
        simpa [Import.isExternal] using external
    · exact ready.external key package found
  present := by
    intro other membership external
    rw [get?_addImport settings ready.ascending]
    split
    · rfl
    · next untouched =>
        rcases List.mem_append.mp membership with old | new
        · exact ready.present other old external
        · rw [List.mem_singleton] at new
          subst new
          exact absurd ⟨external, rfl⟩ untouched

/-- An access changes the package that it is resolved to, and no other. -/
theorem get?_addAccess {imports : List Import} {packages : Collection}
    (ready : Ready imports packages) (access : Access) {key : String}
    (external : startsWith key "." = false) :
    (addAccess settings imports packages access).get? key =
      match (Import.binding? imports access.base).filter (·.modulePath == key) with
      | some imported => grow settings key (packages.get? key) (.ofAccess imported access)
      | none => packages.get? key := by
  unfold addAccess
  cases bound : Import.binding? imports access.base with
  | none => rfl
  | some imported =>
      by_cases same : imported.modulePath = key
      · subst same
        have found := ready.present imported (mem_of_binding? bound)
          (by simpa [Import.isExternal] using external)
        obtain ⟨package, found⟩ := Option.isSome_iff_exists.mp found
        simp only [found, Catalog.get?_insert ready.ascending]
        simp [grow, Use.apply, Option.filter]
      · have elsewhere :
            (some imported).filter (fun imported => imported.modulePath == key) = none := by
          simp [Option.filter, same]
        rw [elsewhere]
        cases found : packages.get? imported.modulePath with
        | none => simp [found]
        | some package =>
            simp only [found, Catalog.get?_insert ready.ascending, if_neg (Ne.symm same)]

theorem Ready.addAccess {imports : List Import} {packages : Collection}
    (ready : Ready imports packages) (access : Access) :
    Ready imports (addAccess settings imports packages access) := by
  unfold Collection.addAccess
  split
  · exact ready
  · next imported bound =>
      split
      · exact ready
      · next package found =>
          refine ⟨ready.ascending.alter _ _, ?_, ?_⟩
          · intro key other present
            rw [Catalog.get?_insert ready.ascending] at present
            split at present
            · next same => exact same ▸ ready.external _ _ found
            · exact ready.external key other present
          · intro other membership external
            rw [Catalog.get?_insert ready.ascending]
            split
            · rfl
            · exact ready.present other membership external

theorem Ready.foldl_addImport {before : List Import} {packages : Collection}
    (ready : Ready before packages) (imports : List Import) :
    Ready (before ++ imports) (imports.foldl (Collection.addImport settings) packages) := by
  induction imports generalizing before packages with
  | nil => simpa using ready
  | cons imported rest inductionHypothesis =>
      simpa using inductionHypothesis (ready.addImport settings imported)

theorem get?_foldl_addImport {before : List Import} {packages : Collection}
    (ready : Ready before packages) (imports : List Import) {key : String}
    (external : startsWith key "." = false) :
    (imports.foldl (addImport settings) packages).get? key =
      ((imports.filter (·.modulePath == key)).map Use.ofImport).foldl (grow settings key)
        (packages.get? key) := by
  induction imports generalizing before packages with
  | nil => rfl
  | cons imported rest inductionHypothesis =>
      rw [List.foldl_cons, inductionHypothesis (ready.addImport settings imported),
        get?_addImport settings ready.ascending]
      by_cases same : imported.modulePath = key
      · have outside : imported.isExternal = true := by
          simpa [Import.isExternal, same] using external
        simp [same, outside]
      · simp [same]

theorem Ready.foldl_addAccess {imports : List Import} {packages : Collection}
    (ready : Ready imports packages) (accesses : List Access) :
    Ready imports (accesses.foldl (Collection.addAccess settings imports) packages) := by
  induction accesses generalizing packages with
  | nil => exact ready
  | cons access rest inductionHypothesis =>
      exact inductionHypothesis (ready.addAccess settings access)

theorem get?_foldl_addAccess {summary : SourceSummary} {packages : Collection}
    (ready : Ready summary.imports packages) (accesses : List Access) {key : String}
    (external : startsWith key "." = false) :
    (accesses.foldl (addAccess settings summary.imports) packages).get? key =
      ((resolvedIn key { summary with accesses := accesses }).map
        fun use => Use.ofAccess use.1 use.2).foldl (grow settings key) (packages.get? key) := by
  induction accesses generalizing packages with
  | nil => rfl
  | cons access rest inductionHypothesis =>
      rw [List.foldl_cons, inductionHypothesis (ready.addAccess settings access),
        get?_addAccess settings ready access external]
      simp only [resolvedIn, SourceSummary.binding?, List.filterMap_cons]
      cases (Import.binding? summary.imports access.base).filter (·.modulePath == key) with
      | none => rfl
      | some imported => rfl

theorem Ready.addSummary {packages : Collection} (ready : Ready [] packages)
    (summary : SourceSummary) : Ready [] (addSummary settings packages summary) := by
  have imported := ready.foldl_addImport settings summary.imports
  have complete := imported.foldl_addAccess settings summary.accesses
  exact ⟨complete.ascending, complete.external, by simp⟩

theorem get?_addSummary {packages : Collection} (ready : Ready [] packages)
    (summary : SourceSummary) {key : String} (external : startsWith key "." = false) :
    (addSummary settings packages summary).get? key =
      (usesIn key summary).foldl (grow settings key) (packages.get? key) := by
  have imported := ready.foldl_addImport settings summary.imports
  rw [addSummary, get?_foldl_addAccess settings imported summary.accesses external,
    get?_foldl_addImport settings ready summary.imports external, usesIn, List.foldl_append]

theorem ready_empty : Ready [] ({} : Collection) :=
  ⟨Catalog.ascending_empty, by simp, by simp⟩

theorem ready_foldl_addSummary {packages : Collection} (ready : Ready [] packages)
    (summaries : List SourceSummary) :
    Ready [] (summaries.foldl (addSummary settings) packages) := by
  induction summaries generalizing packages with
  | nil => exact ready
  | cons summary rest inductionHypothesis =>
      exact inductionHypothesis (ready.addSummary settings summary)

theorem get?_foldl_addSummary {packages : Collection} (ready : Ready [] packages)
    (summaries : List SourceSummary) {key : String} (external : startsWith key "." = false) :
    (summaries.foldl (addSummary settings) packages).get? key =
      (uses key summaries).foldl (grow settings key) (packages.get? key) := by
  induction summaries generalizing packages with
  | nil => rfl
  | cons summary rest inductionHypothesis =>
      rw [List.foldl_cons, inductionHypothesis (ready.addSummary settings summary),
        get?_addSummary settings ready summary external]
      simp [uses, List.foldl_append]

end Collection

/-- The collection holds under a module path what the uses of that package lead to. -/
theorem get?_collect (summaries : List SourceSummary)
    (external : startsWith modulePath "." = false) :
    (collect settings summaries).get? modulePath =
      if (uses modulePath summaries).isEmpty then none
      else some (ofUses settings modulePath (uses modulePath summaries)) := by
  rw [collect, Collection.get?_foldl_addSummary settings Collection.ready_empty summaries external]
  exact foldl_grow_none settings modulePath (uses modulePath summaries)

theorem ready_collect (summaries : List SourceSummary) :
    Collection.Ready [] (collect settings summaries) :=
  Collection.ready_foldl_addSummary settings Collection.ready_empty summaries

theorem external_of_get?_collect {summaries : List SourceSummary} {package : Package}
    (found : (collect settings summaries).get? modulePath = some package) :
    startsWith modulePath "." = false := by
  exact (ready_collect settings summaries).external _ _ found

variable {settings modulePath}

theorem eq_ofUses_of_get?_collect {summaries : List SourceSummary} {package : Package}
    (found : (collect settings summaries).get? modulePath = some package) :
    package = ofUses settings modulePath (uses modulePath summaries) := by
  have external := external_of_get?_collect settings modulePath found
  rw [get?_collect settings modulePath summaries external] at found
  split at found
  · simp at found
  · exact (Option.some.inj found).symm

/-- Two lists of files lead to packages that look the same if their uses of it do. -/
theorem map_get?_collect {View : Type} (view : Package → View) (settings : InferenceSettings)
    {summaries others : List SourceSummary}
    (sameEmpty : (uses modulePath others).isEmpty = (uses modulePath summaries).isEmpty)
    (same : view (ofUses settings modulePath (uses modulePath others)) =
      view (ofUses settings modulePath (uses modulePath summaries))) :
    ((collect settings others).get? modulePath).map view =
      ((collect settings summaries).get? modulePath).map view := by
  cases isLocal : startsWith modulePath "." with
  | false =>
      rw [get?_collect settings modulePath summaries isLocal,
        get?_collect settings modulePath others isLocal, sameEmpty]
      split
      · rfl
      · rw [Option.map_some, Option.map_some, same]
  | true =>
      have absent (files : List SourceSummary) :
          (collect settings files).get? modulePath = none := by
        rw [Option.eq_none_iff_forall_ne_some]
        intro package found
        have external := external_of_get?_collect settings modulePath found
        rw [isLocal] at external
        contradiction
      rw [absent, absent]

theorem get?_collect_congr (settings : InferenceSettings)
    {summaries others : List SourceSummary}
    (same : uses modulePath others = uses modulePath summaries) :
    (collect settings others).get? modulePath = (collect settings summaries).get? modulePath := by
  have view := map_get?_collect id settings (congrArg List.isEmpty same)
    (congrArg (ofUses settings modulePath) same)
  rwa [Option.map_id] at view

theorem get?_collect_of_uses (settings : InferenceSettings) {summaries : List SourceSummary}
    {use : Use} {more : List Use} (inOrder : uses modulePath summaries = use :: more)
    (external : startsWith modulePath "." = false) :
    (collect settings summaries).get? modulePath =
      some (ofUses settings modulePath (use :: more)) := by
  rw [get?_collect settings modulePath summaries external, inOrder]
  rfl

end Projection

end AmbientStubs.Package
