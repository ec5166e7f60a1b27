import AmbientStubs.Proofs.Package.MethodBodies

/-!
Imported owners.  A class or interface that a file imports by its name keeps its methods at the
module level, unless a static call hides the import: of two symbols with one identity the first is
kept, and the interface that stands in for the class of a call does not show that its name was
imported.
-/

namespace AmbientStubs

open Text Convention

/-- Whether the module level of a text has a class or interface with exactly the given lines, and
no alias in its place. -/
def Outline.KeepsMethods (items : List Outline) (owner : String) (lines : List String) : Prop :=
  (∃ body ∈ bodies [] items, body.path = [] ∧ body.name = owner ∧ body.lines = lines) ∧
    ∀ item ∈ items, declared? item.head ≠ some ("type", owner)

namespace Package

/-- The first use of a package that makes a name known at the top level. -/
def firstNaming (modulePath name : String) (summaries : List SourceSummary) : Option Use :=
  (uses modulePath summaries).find? fun use => use.topLevelNames.contains name

section Signatures

variable {settings : InferenceSettings} {package : Package} {owner : String}

theorem isImportedOwner_of_not_hasTopLevel (unknown : package.hasTopLevel owner = false) :
    package.isImportedOwner owner = false := by
  rw [Bool.eq_false_iff, ne_eq, isImportedOwner_iff]
  rintro ⟨symbol, membership, top, rfl, -⟩
  have known : package.hasTopLevel symbol.name = true := by
    rw [hasTopLevel_iff]
    exact ⟨symbol.kind, List.mem_map.mpr ⟨symbol, membership, by simp [Symbol.identity, top]⟩⟩
  rw [unknown] at known
  contradiction

/-- Once an interface stands in for an owner, no later use shows that the owner was imported, if
its imports call for an interface too. -/
theorem isImportedOwner_apply {use : Use} (known : package.Knows ⟨owner, .interfaceType, none⟩)
    (unsigned : package.isImportedOwner owner = false)
    (interfaces : ∀ imported, use = .ofImport imported → imported.rootName = owner →
      imported.isWildcard = false →
        importedKind settings imported.modulePath owner = .interfaceType) :
    (use.apply settings package).isImportedOwner owner = false := by
  rw [Bool.eq_false_iff, ne_eq, isImportedOwner_iff] at unsigned ⊢
  rintro ⟨symbol, membership, top, named, kind, signed⟩
  rw [apply_eq] at membership
  rcases new_of_mem_appendAllNew Symbol.identity membership with before | ⟨offered, new⟩
  · exact unsigned ⟨symbol, before, top, named, kind, signed⟩
  · cases use with
    | ofImport imported =>
        rw [Use.symbols, Use.standIns, List.append_nil, List.mem_singleton] at offered
        subst offered
        cases wildcard : imported.isWildcard with
        | true => simp [rootSymbol, wildcard] at kind
        | false =>
            have sameKind := interfaces imported rfl named wildcard
            apply new
            rw [identity_rootSymbol]
            change imported.rootName = owner at named
            have identity : (rootSymbol settings imported).kind = .interfaceType := by
              simp [rootSymbol, wildcard, named, sameKind]
            rw [named, identity]
            exact known
    | ofAccess imported access =>
        rcases List.mem_append.mp offered with inside | standing
        · have nested := nestedSymbols_nested inside
          simp [Symbol.isTopLevel, top] at nested
        · obtain ⟨other, -, rfl⟩ := List.mem_map.mp standing
          simp [standIn] at signed

theorem isImportedOwner_foldl_apply {uses : List Use}
    (known : package.Knows ⟨owner, .interfaceType, none⟩)
    (unsigned : package.isImportedOwner owner = false)
    (interfaces : ∀ imported, .ofImport imported ∈ uses → imported.rootName = owner →
      imported.isWildcard = false →
        importedKind settings imported.modulePath owner = .interfaceType) :
    (uses.foldl (Use.apply settings) package).isImportedOwner owner = false := by
  induction uses generalizing package with
  | nil => exact unsigned
  | cons use rest inductionHypothesis =>
      apply inductionHypothesis
      · exact knows_apply (.inl known)
      · apply isImportedOwner_apply known unsigned
        rintro imported rfl
        exact interfaces imported List.mem_cons_self
      · intro imported later
        exact interfaces imported (List.mem_cons_of_mem use later)

/-- A package that knows a name never lets an interface stand in for it. -/
theorem standIn_not_mem_foldl_apply {uses : List Use} (known : package.hasTopLevel owner = true)
    (absent : standIn owner ∉ package.symbols) :
    standIn owner ∉ (uses.foldl (Use.apply settings) package).symbols := by
  induction uses generalizing package with
  | nil => exact absent
  | cons use rest inductionHypothesis =>
      apply inductionHypothesis
      · exact (hasTopLevel_apply settings package use).mpr (.inl known)
      · intro membership
        rw [apply_eq] at membership
        rcases mem_of_mem_appendAllNew Symbol.identity membership with before | offered
        · exact absent before
        · cases use with
          | ofImport imported => simp [Use.symbols, Use.standIns, rootSymbol, standIn] at offered
          | ofAccess imported access =>
              rcases List.mem_append.mp offered with inside | standing
              · simpa [Symbol.isTopLevel, standIn] using nestedSymbols_nested inside
              · obtain ⟨other, unknown, same⟩ := List.mem_map.mp standing
                obtain rfl : other = owner := congrArg Symbol.name same
                simp [known] at unknown

end Signatures

section Naming

variable {settings : InferenceSettings} {modulePath owner : String}
  {summaries : List SourceSummary}

theorem exists_split_of_firstNaming (settings : InferenceSettings) {use : Use}
    (first : firstNaming modulePath owner summaries = some use) :
    owner ∈ use.topLevelNames ∧ ∃ before after,
      uses modulePath summaries = before ++ use :: after ∧
        ((ofUses settings modulePath before).hasTopLevel owner) = false := by
  obtain ⟨names, before, after, split, silent⟩ := List.find?_eq_some_iff_append.mp first
  refine ⟨by simpa using names, before, after, split, ?_⟩
  rw [Bool.eq_false_iff, ne_eq, ofUses, hasTopLevel_foldl_apply]
  rintro (fresh | named)
  · simp [hasTopLevel, topLevel] at fresh
  · obtain ⟨earlier, listed, inUse⟩ := List.mem_flatMap.mp named
    simpa [inUse] using silent earlier listed

/-- An owner whose imports call for an interface is hidden by a static call that names it first. -/
theorem isImportedOwner_of_firstNaming_access {imported : Import} {access : Access}
    (kind : importedKind settings modulePath owner = .interfaceType)
    (first : firstNaming modulePath owner summaries = some (.ofAccess imported access)) :
    (ofUses settings modulePath (uses modulePath summaries)).isImportedOwner owner = false := by
  obtain ⟨names, before, after, split, unknown⟩ := exists_split_of_firstNaming settings first
  rw [split, ofUses, List.foldl_append, List.foldl_cons]
  change (after.foldl _ (Use.apply settings (ofUses settings modulePath before) _)).isImportedOwner
    owner = false
  have standing : standIn owner ∈
      Use.standIns (ofUses settings modulePath before) (.ofAccess imported access) :=
    List.mem_map.mpr ⟨owner, List.mem_filter.mpr ⟨names, by simp [unknown]⟩, rfl⟩
  apply isImportedOwner_foldl_apply
  · rw [Knows, apply_eq, mem_map_appendAllNew]
    exact .inr (List.mem_map.mpr ⟨_, List.mem_append_right _ standing, rfl⟩)
  · have before := isImportedOwner_of_not_hasTopLevel unknown
    rw [Bool.eq_false_iff, ne_eq, isImportedOwner_iff] at before ⊢
    rintro ⟨symbol, membership, top, named, other, signed⟩
    rcases mem_symbols_apply top membership with earlier | adds
    · exact before ⟨symbol, earlier, top, named, other, signed⟩
    · cases adds
      simp [standIn] at signed
  · intro other later _ _
    have listed : .ofImport other ∈ uses modulePath summaries :=
      split ▸ List.mem_append_right _ (List.mem_cons_of_mem _ later)
    obtain ⟨-, -, -, ofModule⟩ := ofImport_mem_uses.mp listed
    rw [ofModule]
    exact kind

theorem standIn_not_mem_of_firstNaming_import {imported : Import}
    (first : firstNaming modulePath owner summaries = some (.ofImport imported)) :
    standIn owner ∉ (ofUses settings modulePath (uses modulePath summaries)).symbols := by
  obtain ⟨names, before, after, split, unknown⟩ := exists_split_of_firstNaming settings first
  rw [split, ofUses, List.foldl_append, List.foldl_cons]
  change _ ∉ (after.foldl _ (Use.apply settings (ofUses settings modulePath before) _)).symbols
  apply standIn_not_mem_foldl_apply
  · exact (hasTopLevel_apply settings _ _).mpr (.inr names)
  · intro membership
    rcases mem_symbols_apply rfl membership with earlier | adds
    · have known : (ofUses settings modulePath before).hasTopLevel owner = true := by
        rw [hasTopLevel_iff]
        exact ⟨.interfaceType, List.mem_map.mpr ⟨_, earlier, rfl⟩⟩
      rw [unknown] at known
      contradiction
    · generalize standing : standIn owner = symbol at adds
      cases adds
      simp [standIn, rootSymbol] at standing

/-- An owner that is imported by its name is taken for an imported one, unless its imports call for
an interface and a static call names it first. -/
theorem isImportedOwner_eq_false_iff (settings : InferenceSettings) {imported : Import}
    (listed : .ofImport imported ∈ uses modulePath summaries)
    (named : imported.isWildcard = false) (same : imported.importedName = owner) :
    (ofUses settings modulePath (uses modulePath summaries)).isImportedOwner owner = false ↔
      importedKind settings modulePath owner = .interfaceType ∧
        ∃ bound access,
          firstNaming modulePath owner summaries = some (.ofAccess bound access) := by
  constructor
  · intro unsigned
    obtain ⟨-, -, -, ofModule⟩ := ofImport_mem_uses.mp listed
    have rootName : imported.rootName = owner := by simp [Import.rootName, named, same]
    have kindOf : (rootSymbol settings imported).kind = importedKind settings modulePath owner := by
      simp [rootSymbol, named, rootName, ofModule]
    have known : (ofUses settings modulePath (uses modulePath summaries)).Knows
        (rootSymbol settings imported).identity :=
      knows_rootSymbol (mem_imports_ofUses.mpr listed)
    rw [identity_rootSymbol, rootName, kindOf] at known
    obtain ⟨symbol, membership, sameName, sameKind, top⟩ := knows_iff.mp known
    -- The symbol with the identity of the import does not show it, so an interface stands in.
    have standing : symbol = standIn owner := by
      obtain ⟨use, -, adds⟩ := exists_use_of_topLevel membership top
      cases adds with
      | root =>
          rw [Bool.eq_false_iff, ne_eq, isImportedOwner_iff] at unsigned
          exact absurd ⟨_, membership, top, sameName,
            sameKind ▸ importedKind_ne_namespaceScope settings modulePath owner, rfl⟩ unsigned
      | owner _ => exact congrArg standIn sameName
    rw [standing] at membership sameKind
    refine ⟨sameKind.symm, ?_⟩
    cases first : firstNaming modulePath owner summaries with
    | none => simpa [Use.topLevelNames, rootName] using List.find?_eq_none.mp first _ listed
    | some use =>
        cases use with
        | ofImport other => exact absurd membership (standIn_not_mem_of_firstNaming_import first)
        | ofAccess bound access => exact ⟨bound, access, rfl⟩
  · rintro ⟨kind, bound, access, first⟩
    exact isImportedOwner_of_firstNaming_access kind first

def Use.resolved? : Use → Option (Import × Access)
  | .ofImport _ => none
  | .ofAccess imported access => some (imported, access)

theorem filterMap_uses :
    (uses modulePath summaries).filterMap Use.resolved? = resolved modulePath summaries := by
  have accesses (bound : List (Import × Access)) :
      (bound.map fun use => Use.ofAccess use.1 use.2).filterMap Use.resolved? = bound := by
    simp [List.filterMap_map, Function.comp_def, Use.resolved?]
  have noImport (imports : List Import) :
      (imports.map Use.ofImport).filterMap Use.resolved? = [] := by
    simp [List.filterMap_map, Function.comp_def, Use.resolved?]
  simp only [uses, resolved, List.filterMap_flatMap, usesIn, List.filterMap_append, noImport,
    accesses, List.nil_append]

theorem firstCallOn_of_firstNaming {imported : Import} {access : Access}
    (first : firstNaming modulePath owner summaries = some (.ofAccess imported access)) :
    firstCallOn modulePath owner summaries = some (imported, access) := by
  obtain ⟨names, before, after, split, silent⟩ := List.find?_eq_some_iff_append.mp first
  have static : staticOwner? access = some owner := by simpa [Use.topLevelNames] using names
  have noEarlier : (before.filterMap Use.resolved?).find?
      (fun use => staticOwner? use.2 == some owner) = none := by
    rw [List.find?_eq_none]
    rintro ⟨bound, other⟩ listed call
    obtain ⟨use, earlier, same⟩ := List.mem_filterMap.mp listed
    cases use with
    | ofImport _ => contradiction
    | ofAccess _ _ =>
        obtain ⟨rfl, rfl⟩ := Prod.mk.inj (Option.some.inj same)
        simpa [Use.topLevelNames, beq_iff_eq.mp call] using silent _ earlier
  rw [firstCallOn, ← filterMap_uses, split, List.filterMap_append, List.find?_append, noEarlier]
  simp [Use.resolved?, static]

end Naming

/-- A static call hides the imports of an owner: they call for an interface, the call names the
owner before any of them, and it was observed away from the module level. -/
def HidesImports (package : Package) (settings : InferenceSettings) (modulePath owner : String)
    (summaries : List SourceSummary) : Prop :=
  importedKind settings modulePath owner = .interfaceType ∧
    ∃ imported access way,
      firstNaming modulePath owner summaries = some (.ofAccess imported access) ∧
      access.segments = access.base :: (way ++ [owner, access.member]) ∧
      (way ≠ [] ∨ package.standsForModule imported.rootName = false)

section Placement

variable {settings : InferenceSettings} {modulePath owner : String}
  {summaries : List SourceSummary} {package : Package}
  (built : package = ofUses settings modulePath (uses modulePath summaries))
  (readable : ∀ summary ∈ summaries, summary.Legible)

include built readable

theorem placement_eq_moduleLevel_iff {imported : Import}
    (listed : .ofImport imported ∈ uses modulePath summaries)
    (named : imported.isWildcard = false) (same : imported.importedName = owner) :
    package.placement owner = .moduleLevel ↔
      ¬ package.HidesImports settings modulePath owner summaries := by
  have shows := isImportedOwner_eq_false_iff settings listed named same
  rw [← built] at shows
  cases answer : package.isImportedOwner owner with
  | true =>
      have placed : package.placement owner = .moduleLevel := by
        rw [placement, answer, if_pos rfl]
      refine iff_of_true placed ?_
      rintro ⟨kind, bound, access, way, first, -⟩
      rw [shows.mpr ⟨kind, bound, access, first⟩] at answer
      contradiction
  | false =>
      obtain ⟨kind, bound, access, first⟩ := shows.mp answer
      have firstCall := firstCallOn_of_firstNaming first
      obtain ⟨membership, static⟩ := static_of_firstCallOn firstCall
      obtain ⟨way, segments⟩ := segments_of_staticOwner?
        (legible_of_mem_resolved readable membership).2 static
      have hides : package.HidesImports settings modulePath owner summaries ↔
          way ≠ [] ∨ package.standsForModule bound.rootName = false := by
        constructor
        · rintro ⟨-, other, call, otherWay, otherFirst, otherSegments, away⟩
          rw [first, Option.some.injEq, Use.ofAccess.injEq] at otherFirst
          obtain ⟨rfl, rfl⟩ := otherFirst
          obtain rfl : way = otherWay := by simpa [segments] using otherSegments
          exact away
        · intro away
          exact ⟨kind, bound, access, way, first, segments, away⟩
      rw [hides, placement_of_firstCallOn built readable answer firstCall
        (membersOf_of_segments segments), ite_eq_left_iff]
      simp

end Placement

section Text

variable {package : Package} {owner : String}

theorem keyword_ne_of_hosted {relocations : List Relocation} {levels : Nat}
    {atModuleLevel : Bool} {entries : List Entry} {owners : List String}
    {declaration : Declaration} (listed : owner ∈ package.methodOwners) (hosted : owner ∈ owners)
    (membership : declaration ∈ package.scopeDeclarations relocations (levels + 1) atModuleLevel
      entries owners) (named : declaration.name = owner) : declaration.keyword ≠ "type" := by
  obtain ⟨entry, -, inGroup⟩ := mem_scopeDeclarations.mp membership
  obtain rfl : entry.name = owner := by rw [← named, name_of_mem_group inGroup]
  obtain ⟨own, asOwn, shape⟩ := typeOf_of_hosted relocations atModuleLevel listed hosted
  rcases mem_group.mp inGroup with plain | block
  · rcases mem_plainDeclarations.mp plain with asType | asAlias | asValue
    · rw [asOwn, Option.some.injEq] at asType
      rcases shape with rfl | rfl <;> rw [← asType] <;> simp [Declaration.keyword]
    · rw [(aliasOf_eq_some asAlias).1] at asOwn
      contradiction
    · rcases valueDeclaration?_eq_some (valueOf_eq_some asValue).2 with rfl | ⟨⟨_, rfl, -⟩, -⟩ <;>
        simp [Declaration.keyword]
  · rw [(mem_blockOf.mp block).2]
    simp [Declaration.keyword]

end Text

section Collected

variable {settings : InferenceSettings} {modulePath owner : String}
  {summaries : List SourceSummary} {package : Package}
  (built : package = ofUses settings modulePath (uses modulePath summaries))
  (readable : ∀ summary ∈ summaries, summary.Legible)

include built readable

theorem keepsMethods_iff (legible : package.Legible) (listed : owner ∈ package.methodOwners) :
    Outline.KeepsMethods package.declarationFile.outlines owner (package.methodLines owner) ↔
      package.placement owner = .moduleLevel := by
  rw [Outline.KeepsMethods, DeclarationFile.bodies_outlines legible.declarationFile]
  constructor
  · rintro ⟨⟨body, membership, path, rfl, -⟩, -⟩
    obtain ⟨-, -, placed⟩ := bodies_moduleDeclarations_placed legible membership
    rw [path] at placed
    exact placedIn_nil_iff.mp placed
  · intro placed
    refine ⟨?_, ?_⟩
    · obtain ⟨body, membership, rfl⟩ := exists_body_of_owner built readable listed
      obtain ⟨-, shows, inside⟩ := bodies_moduleDeclarations_placed legible membership
      rw [PlacedIn, placed] at inside
      exact ⟨body, membership, inside, rfl, shows.lines⟩
    · intro item inText shown
      have hosted : owner ∈ package.moduleLevelOwners :=
        List.mem_filter.mpr ⟨listed, by simpa using placed⟩
      obtain ⟨scope, reached, declares⟩ :=
        DeclarationFile.exists_declarations_of_outlines legible.declarationFile .here
      obtain ⟨declaration, inScope, -, -, keyword, named⟩ := declares item inText _ _ shown
      cases reached
      exact keyword_ne_of_hosted listed hosted inScope named keyword

end Collected

/-- An owner that a file imports by its name has all its methods in its class or interface at the
module level, and no alias there, unless a static call hides the import. -/
theorem imported_owners_keep_their_methods_unless_hidden (settings : Settings)
    (sources : List (String × String)) {summary : SourceSummary}
    (listed : summary ∈ summariesOf settings sources) {imported : Import}
    (imports : imported ∈ summary.imports) (named : imported.isWildcard = false)
    {package : Package}
    (found : (collect settings.inference (summariesOf settings sources)).get?
      imported.modulePath = some package)
    (owns : imported.importedName ∈ package.methodOwners) :
    ∃ items, Outline.ofText? package.declarationText = some items ∧
      (Outline.KeepsMethods items imported.importedName
          (package.methodLines imported.importedName) ↔
        ¬ package.HidesImports settings.inference imported.modulePath imported.importedName
          (summariesOf settings sources)) := by
  have readable := legible_summariesOf settings sources
  have legible := legible_of_get?_collect readable found
  have built := eq_ofUses_of_get?_collect found
  have importUse : .ofImport imported ∈ uses imported.modulePath (summariesOf settings sources) :=
    ofImport_mem_uses.mpr ⟨summary, listed, imports, rfl⟩
  refine ⟨_, legible.ofText?_declarationText, ?_⟩
  rw [keepsMethods_iff built readable legible owns,
    placement_eq_moduleLevel_iff built readable importUse named rfl]

def callingFile : String × String :=
  ("a.ets", "import * as Kit from '@kit.Lib';\nKit.core.Box.open();")

def importingFile : String × String :=
  ("b.ets", "import \x7b Box \x7d from '@kit.Lib';")

theorem uses_importingFile_callingFile :
    uses "@kit.Lib" (summariesOf {} [importingFile, callingFile]) =
      [.ofImport (.named "@kit.Lib" "Box" none false),
        .ofImport (.wholeModule "@kit.Lib" "Kit" false),
        .ofAccess (.wholeModule "@kit.Lib" "Kit" false)
          ⟨"Kit", "Kit.core.Box.open", "open", .staticCall, some "Box"⟩] := by
  decide +kernel

theorem box_keeps_its_methods_before_the_call :
    ∃ package items,
      (collect {} (summariesOf {} [importingFile, callingFile])).get? "@kit.Lib" = some package ∧
      Outline.ofText? package.declarationText = some items ∧
      package.methodLines "Box" = ["static open(args: unknown): unknown;"] ∧
      Outline.KeepsMethods items "Box" (package.methodLines "Box") := by
  have found := get?_collect_of_uses {} uses_importingFile_callingFile (by decide)
  have used : .ofImport (.named "@kit.Lib" "Box" none false) ∈
      uses "@kit.Lib" (summariesOf {} [importingFile, callingFile]) := by
    simp [uses_importingFile_callingFile]
  obtain ⟨summary, listed, imports, -⟩ := ofImport_mem_uses.mp used
  obtain ⟨items, read, keeps⟩ := imported_owners_keep_their_methods_unless_hidden {}
    [importingFile, callingFile] listed imports rfl found (by decide +kernel)
  have naming : firstNaming "@kit.Lib" "Box" (summariesOf {} [importingFile, callingFile]) =
      some (.ofImport (.named "@kit.Lib" "Box" none false)) := by
    rw [firstNaming, uses_importingFile_callingFile]
    decide +kernel
  refine ⟨_, items, found, read, by decide +kernel, keeps.mpr ?_⟩
  rintro ⟨-, bound, access, way, first, -⟩
  exact absurd (naming.symm.trans first) (by simp)

def LosesMethods (settings : Settings) (sources : List (String × String)) : Prop :=
  ∃ summary ∈ summariesOf settings sources, ∃ imported ∈ summary.imports, ∃ package items,
    imported.isWildcard = false ∧
    (collect settings.inference (summariesOf settings sources)).get? imported.modulePath =
      some package ∧
    imported.importedName ∈ package.methodOwners ∧
    Outline.ofText? package.declarationText = some items ∧
    ¬ Outline.KeepsMethods items imported.importedName (package.methodLines imported.importedName)

/-- The class is relocated if the file with the call comes first. -/
theorem box_loses_its_methods_after_the_call :
    LosesMethods {} [callingFile, importingFile] := by
  have inOrder : uses "@kit.Lib" (summariesOf {} [callingFile, importingFile]) =
      [.ofImport (.wholeModule "@kit.Lib" "Kit" false),
        .ofAccess (.wholeModule "@kit.Lib" "Kit" false)
          ⟨"Kit", "Kit.core.Box.open", "open", .staticCall, some "Box"⟩,
        .ofImport (.named "@kit.Lib" "Box" none false)] := by
    decide +kernel
  have found := get?_collect_of_uses {} inOrder (by decide)
  have used : .ofImport (.named "@kit.Lib" "Box" none false) ∈
      uses "@kit.Lib" (summariesOf {} [callingFile, importingFile]) := by
    simp [inOrder]
  obtain ⟨summary, listed, imports, -⟩ := ofImport_mem_uses.mp used
  have readable := legible_summariesOf {} [callingFile, importingFile]
  have legible := legible_of_get?_collect readable found
  refine ⟨summary, listed, _, imports, _, _, rfl, found, by decide +kernel,
    legible.ofText?_declarationText, ?_⟩
  rw [keepsMethods_iff (eq_ofUses_of_get?_collect found) readable legible (by decide +kernel)]
  decide +kernel

end Package

end AmbientStubs
