import AmbientStubs.Proofs.Package.Survival

/-!
Where static calls are declared.  A package has one class for all static calls on one name, and
its body has a line for each of them.  The class stands at the module level if the name itself is
imported, and where the first static call on it was observed if no file imports it.
-/

namespace AmbientStubs

open Text Convention

/-- Whether a scope of a text has a class with a line for a static method. -/
def Outline.DeclaresStatic (scope : List Outline) (className method : String) : Prop :=
  ∃ head inner, .block head inner ∈ scope ∧ declared? head = some ("class", className) ∧
    ∃ line rest, .line line ∈ inner ∧
      content line = "static ".toList ++ (method.toList ++ '(' :: rest)

def Outline.DeclaresStaticAt (items : List Outline) (path : List String)
    (className method : String) : Prop :=
  ∃ scope, ScopeAt items path scope ∧ DeclaresStatic scope className method

namespace Declaration

theorem declaresStatic_of_mem {depth : Nat} {scope : List Outline} {name : String}
    {methods : List Method} {method : Method}
    (shown : outline depth (.classBody name methods) ∈ scope)
    (named : Outline.declared? (outline depth (.classBody name methods)).head =
      some ("class", name))
    (listed : method ∈ methods) (static : method.isStatic = true)
    (identifier : IsIdentifier method.name) : Outline.DeclaresStatic scope name method.name := by
  have nonempty : methods.isEmpty = false := by
    rw [List.isEmpty_eq_false_iff]
    exact List.ne_nil_of_mem listed
  obtain ⟨rest, content⟩ := content_method identifier (depth + 1)
  rw [static, if_pos rfl] at content
  simp only [outline, bodyOutline, nonempty, Bool.false_eq_true, if_false, Outline.head]
    at shown named
  exact ⟨_, _, shown, named, _, rest, List.mem_map.mpr ⟨method, listed, rfl⟩, content⟩

end Declaration

namespace Package

/-- Whether some import of a package by the given name is that of the whole module. -/
def standsForModule (package : Package) (name : String) : Bool :=
  package.imports.any fun imported => imported.isWildcard && imported.rootName == name

/-- A file imports a class by its name, and the class is not an interface that a static call
of an earlier file stands in for. -/
def ImportsOwner (settings : InferenceSettings) (modulePath owner : String)
    (summaries : List SourceSummary) : Prop :=
  ∃ before file after imported, summaries = before ++ file :: after ∧
    imported ∈ file.imports ∧ imported.modulePath = modulePath ∧
    imported.isWildcard = false ∧ imported.importedName = owner ∧
    (importedKind settings modulePath owner ≠ .interfaceType ∨
      firstCallOn modulePath owner before = none)

theorem isImportedOwner_of_importsOwner {settings : InferenceSettings}
    {modulePath owner : String} {summaries : List SourceSummary}
    (imports : ImportsOwner settings modulePath owner summaries) :
    (ofUses settings modulePath (uses modulePath summaries)).isImportedOwner owner = true := by
  obtain ⟨before, file, after, imported, rfl, inFile, rfl, notWildcard, named, noStandIn⟩ := imports
  have listed : imported ∈ file.imports.filter (·.modulePath == imported.modulePath) :=
    List.mem_filter.mpr ⟨inFile, by simp⟩
  obtain ⟨first, second, split⟩ := List.append_of_mem listed
  have order : uses imported.modulePath (before ++ file :: after) =
      (uses imported.modulePath before ++ first.map .ofImport) ++ .ofImport imported ::
        (second.map .ofImport ++
          (resolvedIn imported.modulePath file).map (fun use => .ofAccess use.1 use.2) ++
          uses imported.modulePath after) := by
    simp [uses, usesIn, split]
  refine isImportedOwner_of_import order ⟨notWildcard, named⟩ (noStandIn.imp id ?_)
  intro absent bound access membership
  rw [List.mem_append] at membership
  rcases membership with earlier | inFile
  · simpa using List.find?_eq_none.mp absent _ (ofAccess_mem_uses.mp earlier)
  · simp at inFile

section Owners

variable {package : Package} {owner : String}

/-- The class of an owner with a static method is declared in every scope that hosts it. -/
theorem classBody_mem_scopeDeclarations {entries : List Entry} {owners : List String}
    {relocations : List Relocation} (levels : Nat) (atModuleLevel : Bool)
    (hosted : owner ∈ owners) (entry : ∃ entry ∈ entries, entry.name = owner)
    (static : (package.methodsOf owner).any (·.isStatic) = true) :
    .classBody owner (package.methodsOf owner) ∈
      package.scopeDeclarations relocations (levels + 1) atModuleLevel entries owners := by
  obtain ⟨entry, listed, rfl⟩ := entry
  refine mem_scopeDeclarations.mpr ⟨entry, listed, mem_group.mpr (.inl ?_)⟩
  refine mem_plainDeclarations.mpr (.inl ?_)
  simp [typeOf, scopeMethods, hosted, typeDeclaration?, static]

theorem classBody_mem_moduleDeclarations (listed : owner ∈ package.methodOwners)
    (placed : package.placement owner = .moduleLevel)
    (static : (package.methodsOf owner).any (·.isStatic) = true) :
    .classBody owner (package.methodsOf owner) ∈ package.moduleDeclarations := by
  refine classBody_mem_scopeDeclarations (package.longestParentPath + 2) true ?_
    (Entry.mem_names_withOwners listed) static
  exact List.mem_filter.mpr ⟨listed, by simpa using placed⟩

theorem exists_static_iff {name : String} :
    (∃ method ∈ package.methodsOf owner, method.isStatic = true ∧ method.name = name) ↔
      ⟨name, owner, true⟩ ∈ package.methods.map Method.identity := by
  constructor
  · rintro ⟨method, ofOwner, static, rfl⟩
    obtain ⟨listed, named⟩ := List.mem_filter.mp ofOwner
    exact List.mem_map.mpr ⟨method, listed, by simp [Method.identity, static, beq_iff_eq.mp named]⟩
  · intro known
    obtain ⟨method, listed, same⟩ := List.mem_map.mp known
    simp only [Method.identity, Method.Identity.mk.injEq] at same
    exact ⟨method, List.mem_filter.mpr ⟨listed, by simp [same.2.1]⟩, same.2.2, same.1⟩

theorem static_of_relocated {container : String}
    (placed : package.placement owner = .relocated container) :
    owner ∈ package.methodOwners ∧ (package.methodsOf owner).any (·.isStatic) = true := by
  obtain ⟨method, firstStatic, -⟩ := Option.bind_eq_some_iff.mp (placement_eq_relocated placed).1
  have ofOwner := List.mem_of_find?_eq_some firstStatic
  obtain ⟨listed, named⟩ := List.mem_filter.mp ofOwner
  exact ⟨mem_methodOwners.mpr ⟨method, listed, beq_iff_eq.mp named⟩,
    List.any_eq_true.mpr ⟨method, ofOwner, List.find?_some firstStatic⟩⟩

end Owners

theorem static_of_firstCallOn {modulePath owner : String} {summaries : List SourceSummary}
    {first : Import × Access} (firstCall : firstCallOn modulePath owner summaries = some first) :
    first ∈ resolved modulePath summaries ∧ staticOwner? first.2 = some owner :=
  ⟨List.mem_of_find?_eq_some firstCall, by simpa using List.find?_some firstCall⟩

theorem exists_firstCallOn {modulePath owner : String} {summaries : List SourceSummary}
    {imported : Import} {access : Access}
    (membership : (imported, access) ∈ resolved modulePath summaries)
    (static : staticOwner? access = some owner) :
    ∃ first, firstCallOn modulePath owner summaries = some first := by
  rw [← Option.isSome_iff_exists, firstCallOn, List.find?_isSome]
  exact ⟨_, membership, by simp [static]⟩

theorem legible_of_mem_resolved {modulePath : String} {summaries : List SourceSummary}
    (readable : ∀ summary ∈ summaries, summary.Legible) {use : Import × Access}
    (membership : use ∈ resolved modulePath summaries) : use.1.Legible ∧ use.2.Legible := by
  obtain ⟨summary, listed, inFile⟩ := List.mem_flatMap.mp membership
  obtain ⟨used, bound, -⟩ := mem_resolvedIn.mp inFile
  exact ⟨(readable summary listed).imports _ (mem_of_binding? bound),
    (readable summary listed).accesses _ used⟩

/-- The segments of a path below the root of a use are read back. -/
theorem segments_below_root {modulePath : String} {summaries : List SourceSummary}
    (readable : ∀ summary ∈ summaries, summary.Legible) {use : Import × Access}
    (membership : use ∈ resolved modulePath summaries) {way : List String}
    (onTheWay : way ⊆ membersOf use.2) :
    segments (dotted (use.1.rootName :: way)) = use.1.rootName :: way := by
  obtain ⟨importLegible, accessLegible⟩ := legible_of_mem_resolved readable membership
  apply segments_dotted (by simp)
  rw [List.forall_mem_cons]
  refine ⟨importLegible.rootName.not_mem (by decide), ?_⟩
  intro segment inside
  exact (isIdentifier_of_mem_membersOf accessLegible (onTheWay inside)).not_mem (by decide)

theorem Legible.declaresStaticAt {package : Package} (legible : package.Legible)
    {path : List String} {scope : List Declaration} {owner : String} {method : Method}
    (reached : Declaration.ScopeAt package.moduleDeclarations path scope)
    (body : .classBody owner (package.methodsOf owner) ∈ scope)
    (listed : method ∈ package.methodsOf owner) (static : method.isStatic = true) :
    Outline.DeclaresStaticAt package.declarationFile.outlines path owner method.name := by
  obtain ⟨found, inText, shown⟩ := legible.exists_scopeAt reached
  exact ⟨found, inText, Declaration.declaresStatic_of_mem (shown _ body).1 (shown _ body).2 listed
    static (legible.methodsOf owner method listed).name⟩

theorem staticOwner?_of_segments {access : Access} {way : List String} {className : String}
    (static : access.context = .staticCall) (named : access.className = some className)
    (segments : access.segments = access.base :: (way ++ [className, access.member])) :
    staticOwner? access = some className := by
  simp [staticOwner?, static, membersOf, segments, named]

theorem segments_of_staticOwner? {access : Access} (legible : access.Legible) {owner : String}
    (static : staticOwner? access = some owner) :
    ∃ way, access.segments = access.base :: (way ++ [owner, access.member]) := by
  unfold staticOwner? at static
  split at static
  · next call =>
      obtain ⟨way, className, named, segments⟩ := legible.staticCall call.1
      rw [static, Option.some.injEq] at named
      exact ⟨way, named ▸ segments⟩
  · contradiction

theorem membersOf_of_segments {access : Access} {way : List String}
    (segments : access.segments = access.base :: way) : membersOf access = way := by
  rw [membersOf, segments, List.drop_succ_cons, List.drop_zero]

def classPath (package : Package) (modulePath : String) (summaries : List SourceSummary)
    (owner : String) : List String :=
  match package.placement owner, firstCallOn modulePath owner summaries with
  | .relocated _, some first => scopePath first.1 (membersOf first.2).dropLast.dropLast
  | _, _ => []

/-- Whether a path is the place for the class of an owner, given the first static call on it and
the way from the root of that call to the owner.  An import by a name that also stands for
the whole module leaves open what is directly below it. -/
structure IsHome (package : Package) (settings : InferenceSettings) (modulePath owner : String)
    (summaries : List SourceSummary) (first : Import × Access) (way path : List String) :
    Prop where
  atModuleLevel_or_firstCall : path = [] ∨ path = scopePath first.1 way
  atModuleLevel : ImportsOwner settings modulePath owner summaries → path = []
  atFirstCall :
    (∀ imported ∈ package.imports, imported.isWildcard = true ∨ imported.importedName ≠ owner) →
    (way = [] → first.1.isWildcard = false →
      package.standsForModule first.1.rootName = false) →
    path = scopePath first.1 way

section ClassPath

variable {package : Package} {modulePath owner : String} {summaries : List SourceSummary}

theorem classPath_of_moduleLevel (placed : package.placement owner = .moduleLevel) :
    package.classPath modulePath summaries owner = [] := by
  rw [classPath, placed]

theorem classPath_of_relocated {container : String} {first : Import × Access} {way : List String}
    (placed : package.placement owner = .relocated container)
    (firstCall : firstCallOn modulePath owner summaries = some first)
    (split : membersOf first.2 = way ++ [owner, first.2.member]) :
    package.classPath modulePath summaries owner = scopePath first.1 way := by
  rw [classPath, placed, firstCall]
  simp [split]

end ClassPath

section FirstCall

variable {settings : InferenceSettings} {modulePath owner : String}
  {summaries : List SourceSummary} {package : Package}
  (built : package = ofUses settings modulePath (uses modulePath summaries))
  {first : Import × Access} {way : List String}

include built

theorem mem_flattenedRoots_iff {name : String} :
    name ∈ package.flattenedRoots ↔ package.standsForModule name = true := by
  rw [built, mem_flattenedRoots_ofUses]
  simp [standsForModule]

theorem legible_of_mem_imports (readable : ∀ summary ∈ summaries, summary.Legible)
    {imported : Import} (membership : imported ∈ package.imports) : imported.Legible := by
  rw [built, mem_imports_ofUses, ofImport_mem_uses] at membership
  obtain ⟨summary, listed, inFile, -⟩ := membership
  exact (readable summary listed).imports imported inFile

/-- Only a name without dots stands for the whole module. -/
theorem dotted_mem_flattenedRoots_iff (readable : ∀ summary ∈ summaries, summary.Legible)
    {root : String} :
    dotted (root :: way) ∈ package.flattenedRoots ↔
      way = [] ∧ package.standsForModule root = true := by
  cases way with
  | nil =>
      rw [dotted_singleton, mem_flattenedRoots_iff built]
      simp
  | cons segment rest =>
      constructor
      · rw [built, mem_flattenedRoots_ofUses, ← built]
        rintro ⟨imported, listed, -, named⟩
        have identifier := (legible_of_mem_imports built readable listed).rootName
        rw [named] at identifier
        have noDot : '.' ∉ (dotted (root :: segment :: rest)).toList :=
          identifier.not_mem (by decide)
        simp [List.intercalate] at noDot
      · rintro ⟨different, -⟩
        contradiction

theorem exists_static_method {imported : Import} {access : Access}
    (membership : (imported, access) ∈ resolved modulePath summaries)
    (static : staticOwner? access = some owner) :
    ∃ method ∈ package.methodsOf owner, method.isStatic = true ∧ method.name = access.member := by
  rw [exists_static_iff, built, methods_ofUses, mem_map_appendAllNew]
  right
  have observed : inferredMethod settings true owner access.member
      (dotted (imported.rootName :: membersOf access)) ∈
        (observedMethod? settings imported access).toList := by
    rw [observedMethod?_of_staticOwner? static, Option.toList_some, List.mem_singleton]
  exact List.mem_map.mpr ⟨_, List.mem_flatMap.mpr ⟨_, membership, observed⟩, rfl⟩

/-- An owner that no import names is placed where the first static call on it was observed. -/
theorem placement_of_firstCallOn (readable : ∀ summary ∈ summaries, summary.Legible)
    (unnamed : package.isImportedOwner owner = false)
    (firstCall : firstCallOn modulePath owner summaries = some first)
    (split : membersOf first.2 = way ++ [owner, first.2.member]) :
    package.placement owner =
      if way.isEmpty && package.standsForModule first.1.rootName then .moduleLevel
      else .relocated (dotted (first.1.rootName :: way)) := by
  obtain ⟨membership, static⟩ := static_of_firstCallOn firstCall
  have qualifier : segments (dotted (first.1.rootName :: membersOf first.2)) =
      (first.1.rootName :: way) ++ [owner, first.2.member] := by
    rw [segments_below_root readable membership (List.Subset.refl _), split, List.cons_append]
  have container : container? (inferredMethod settings true owner first.2.member
      (dotted (first.1.rootName :: membersOf first.2))) =
        some (dotted (first.1.rootName :: way)) :=
    container?_eq_some qualifier (by simp)
  have firstMethod : ((package.methodsOf owner).find? (·.isStatic)).bind container? =
      some (dotted (first.1.rootName :: way)) := by
    rw [built, find?_methodsOf, firstCall, Option.bind_some,
      observedMethod?_of_staticOwner? static, Option.bind_some, container]
  rw [placement, unnamed, firstMethod]
  simp only [Bool.false_eq_true, if_false, List.contains_iff_mem,
    dotted_mem_flattenedRoots_iff built readable, Bool.and_eq_true, List.isEmpty_iff]

theorem leads_of_firstCallOn (firstCall : firstCallOn modulePath owner summaries = some first)
    (split : membersOf first.2 = way ++ [owner, first.2.member])
    (placed : package.placement owner = .relocated (dotted (first.1.rootName :: way))) :
    package.Leads first.1.rootName way (dotted (first.1.rootName :: way)) := by
  obtain ⟨membership, static⟩ := static_of_firstCallOn firstCall
  have isStatic : first.2.isStaticCall = true := by
    unfold staticOwner? at static
    split at static
    · next call => simp [Access.isStaticCall, call.1, static]
    · contradiction
  have nested : nestedSymbols first.1 first.2 = constantsBelow first.1.rootName way := by
    simp [nestedSymbols, isStatic, split]
  have knows := knows_of_mem_resolved settings membership
  rw [← built, nested, List.forall_mem_cons] at knows
  apply leads_of_constantsBelow knows.2
  exact .inr ⟨owner, mem_relocations.mpr ⟨(static_of_relocated placed).1, placed⟩⟩

/-- The way to the container of an owner leads to its class, below every import with the root of
that way. -/
theorem exists_classBody_of_leads {imported : Import} {container : String}
    (placed : package.placement owner = .relocated container)
    (leads : package.Leads imported.rootName way container)
    (imports : imported ∈ package.imports) :
    ∃ scope, Declaration.ScopeAt package.moduleDeclarations (scopePath imported way) scope ∧
      .classBody owner (package.methodsOf owner) ∈ scope := by
  obtain ⟨listed, hasStatic⟩ := static_of_relocated placed
  have relocated : ⟨owner, container⟩ ∈ package.relocations :=
    mem_relocations.mpr ⟨listed, placed⟩
  have root : package.Knows (rootSymbol settings imported).identity := by
    rw [built] at imports ⊢
    exact knows_rootSymbol imports
  obtain ⟨levels, level, entries, owners, reached, serves⟩ :=
    leads.exists_scopeAt root (.inr ⟨owner, relocated⟩)
  obtain ⟨hosted, entry⟩ := serves.hosted owner relocated
  exact ⟨_, reached, classBody_mem_scopeDeclarations levels level hosted entry hasStatic⟩

/-- An owner is relocated nowhere but to where the first static call on it was observed. -/
theorem container_of_firstCallOn (readable : ∀ summary ∈ summaries, summary.Legible)
    {container : String} (placed : package.placement owner = .relocated container)
    (firstCall : firstCallOn modulePath owner summaries = some first)
    (split : membersOf first.2 = way ++ [owner, first.2.member]) :
    container = dotted (first.1.rootName :: way) := by
  cases unnamed : package.isImportedOwner owner with
  | true =>
      rw [placement, unnamed, if_pos rfl] at placed
      contradiction
  | false =>
      rw [placement_of_firstCallOn built readable unnamed firstCall split] at placed
      split at placed
      · contradiction
      · exact (Placement.relocated.inj placed).symm

theorem exists_leads_of_relocated (readable : ∀ summary ∈ summaries, summary.Legible)
    {container : String} (placed : package.placement owner = .relocated container) :
    ∃ imported ∈ package.imports, ∃ way, segments container = imported.rootName :: way ∧
      package.Leads imported.rootName way container := by
  obtain ⟨method, firstStatic, -⟩ := Option.bind_eq_some_iff.mp (placement_eq_relocated placed).1
  rw [built, find?_methodsOf] at firstStatic
  obtain ⟨first, firstCall, -⟩ := Option.bind_eq_some_iff.mp firstStatic
  obtain ⟨membership, static⟩ := static_of_firstCallOn firstCall
  obtain ⟨way, shape⟩ := segments_of_staticOwner?
    (legible_of_mem_resolved readable membership).2 static
  have split := membersOf_of_segments shape
  obtain rfl := container_of_firstCallOn built readable placed firstCall split
  refine ⟨first.1, mem_imports_of_mem_resolved built membership, way, ?_,
    leads_of_firstCallOn built firstCall split placed⟩
  apply segments_below_root readable membership
  rw [split]
  exact List.subset_append_left _ _

/-- A relocated owner has its class where its first static call was observed, below every import
with the root of that call. -/
theorem exists_classBody_of_relocated (readable : ∀ summary ∈ summaries, summary.Legible)
    {container : String} (placed : package.placement owner = .relocated container) :
    ∃ root way, segments container = root :: way ∧
      (∃ imported ∈ package.imports, imported.rootName = root) ∧
      ∀ imported ∈ package.imports, imported.rootName = root →
        ∃ scope, Declaration.ScopeAt package.moduleDeclarations (scopePath imported way) scope ∧
          .classBody owner (package.methodsOf owner) ∈ scope := by
  obtain ⟨first, firstImports, way, split, leads⟩ := exists_leads_of_relocated built readable placed
  refine ⟨first.rootName, way, split, ⟨first, firstImports, rfl⟩, ?_⟩
  intro imported imports sameRoot
  rw [← sameRoot] at leads
  exact exists_classBody_of_leads built placed leads imports

theorem static_of_mem_resolved {use : Import × Access}
    (membership : use ∈ resolved modulePath summaries) (static : staticOwner? use.2 = some owner) :
    owner ∈ package.methodOwners ∧ (package.methodsOf owner).any (·.isStatic) = true := by
  obtain ⟨method, inBody, isStatic, -⟩ := exists_static_method built membership static
  obtain ⟨inPackage, ofOwner⟩ := List.mem_filter.mp inBody
  exact ⟨mem_methodOwners.mpr ⟨method, inPackage, beq_iff_eq.mp ofOwner⟩,
    List.any_eq_true.mpr ⟨method, inBody, isStatic⟩⟩

theorem exists_scopeAt_classPath (readable : ∀ summary ∈ summaries, summary.Legible)
    (firstCall : firstCallOn modulePath owner summaries = some first)
    (split : membersOf first.2 = way ++ [owner, first.2.member]) :
    ∃ scope, Declaration.ScopeAt package.moduleDeclarations
        (package.classPath modulePath summaries owner) scope ∧
      .classBody owner (package.methodsOf owner) ∈ scope := by
  obtain ⟨membership, static⟩ := static_of_firstCallOn firstCall
  obtain ⟨listed, hasStatic⟩ := static_of_mem_resolved built membership static
  cases placed : package.placement owner with
  | moduleLevel =>
      rw [classPath_of_moduleLevel placed]
      exact ⟨_, .here, classBody_mem_moduleDeclarations listed placed hasStatic⟩
  | relocated container =>
      rw [classPath_of_relocated placed firstCall split]
      obtain rfl := container_of_firstCallOn built readable placed firstCall split
      exact exists_classBody_of_leads built placed
        (leads_of_firstCallOn built firstCall split placed)
        (mem_imports_of_mem_resolved built membership)

theorem isHome_classPath (readable : ∀ summary ∈ summaries, summary.Legible)
    (firstCall : firstCallOn modulePath owner summaries = some first)
    (split : membersOf first.2 = way ++ [owner, first.2.member]) :
    package.IsHome settings modulePath owner summaries first way
      (package.classPath modulePath summaries owner) where
  atModuleLevel_or_firstCall := by
    cases placed : package.placement owner with
    | moduleLevel => exact .inl (classPath_of_moduleLevel placed)
    | relocated _ => exact .inr (classPath_of_relocated placed firstCall split)
  atModuleLevel := by
    intro importsOwner
    apply classPath_of_moduleLevel
    rw [placement, built, isImportedOwner_of_importsOwner importsOwner, if_pos rfl]
  atFirstCall := by
    intro unnamed plainRoot
    rw [built] at unnamed
    have placed := placement_of_firstCallOn built readable
      (built ▸ isImportedOwner_eq_false unnamed) firstCall split
    split at placed
    · next whole =>
        rw [classPath_of_moduleLevel placed]
        obtain ⟨rfl, standsForModule⟩ : way = [] ∧
            package.standsForModule first.1.rootName = true := by simpa using whole
        cases wildcard : first.1.isWildcard with
        | true => rw [scopePath, wildcard, if_pos rfl]
        | false =>
            rw [plainRoot rfl wildcard] at standsForModule
            contradiction
    · exact classPath_of_relocated placed firstCall split

end FirstCall

/-- Every static call is declared with its class.  Each class name has one place, chosen before the
calls: the class there has a line for every static call on it, wherever that was observed. -/
theorem every_static_call_is_declared_with_its_class (settings : Settings)
    (sources : List (String × String)) (modulePath : String) :
    ∃ place : String → List String,
      ∀ summary ∈ summariesOf settings sources, ∀ access ∈ summary.accesses, ∀ imported,
        access.context = .staticCall → summary.binding? access.base = some imported →
        imported.modulePath = modulePath → imported.isExternal = true →
        ∃ package items way className first firstWay,
          (collect settings.inference (summariesOf settings sources)).get? modulePath =
            some package ∧
          Outline.ofText? package.declarationText = some items ∧
          access.className = some className ∧
          access.segments = access.base :: (way ++ [className, access.member]) ∧
          Outline.DeclaresStaticAt items (place className) className access.member ∧
          firstCallOn modulePath className (summariesOf settings sources) = some first ∧
          first.2.segments = first.2.base :: (firstWay ++ [className, first.2.member]) ∧
          package.IsHome settings.inference modulePath className (summariesOf settings sources)
            first firstWay (place className) := by
  have readable := legible_summariesOf settings sources
  obtain ⟨package, built⟩ : ∃ package, package = ofUses settings.inference modulePath
      (uses modulePath (summariesOf settings sources)) := ⟨_, rfl⟩
  refine ⟨package.classPath modulePath (summariesOf settings sources), ?_⟩
  rintro summary listed access used imported static bound rfl external
  obtain ⟨way, className, named, segments⟩ :=
    ((readable summary listed).accesses access used).staticCall static
  have membership := mem_resolved listed used bound
  have found := get?_collect_of_mem_resolved settings.inference membership external
  rw [← built] at found
  have legible := legible_of_get?_collect readable found
  have owner := staticOwner?_of_segments static named segments
  obtain ⟨first, firstCall⟩ := exists_firstCallOn membership owner
  obtain ⟨firstMembership, firstOwner⟩ := static_of_firstCallOn firstCall
  obtain ⟨firstWay, firstSegments⟩ := segments_of_staticOwner?
    (legible_of_mem_resolved readable firstMembership).2 firstOwner
  have split := membersOf_of_segments firstSegments
  refine ⟨package, _, way, className, first, firstWay, found, legible.ofText?_declarationText,
    named, segments, ?_, firstCall, firstSegments, isHome_classPath built readable firstCall split⟩
  obtain ⟨method, inBody, isStatic, methodName⟩ := exists_static_method built membership owner
  obtain ⟨scope, reached, body⟩ := exists_scopeAt_classPath built readable firstCall split
  rw [← methodName]
  exact legible.declaresStaticAt reached body inBody isStatic

def twoContainersText : String :=
  "import * as Lib from 'm';\nLib.a.Box.open();\nLib.b.Box.close();"

theorem uses_twoContainersText :
    uses "m" (summariesOf {} [("a.ets", twoContainersText)]) =
      [.ofImport (.wholeModule "m" "Lib" false),
        .ofAccess (.wholeModule "m" "Lib" false)
          ⟨"Lib", "Lib.a.Box.open", "open", .staticCall, some "Box"⟩,
        .ofAccess (.wholeModule "m" "Lib" false)
          ⟨"Lib", "Lib.b.Box.close", "close", .staticCall, some "Box"⟩] := by
  decide +kernel

theorem open_and_close_are_declared_in_one_class :
    ∃ package items,
      (collect {} (summariesOf {} [("a.ets", twoContainersText)])).get? "m" = some package ∧
      Outline.ofText? package.declarationText = some items ∧
      Outline.DeclaresStaticAt items ["a"] "Box" "open" ∧
      Outline.DeclaresStaticAt items ["a"] "Box" "close" := by
  obtain ⟨place, everyCall⟩ :=
    every_static_call_is_declared_with_its_class {} [("a.ets", twoContainersText)] "m"
  have firstCall : firstCallOn "m" "Box" (summariesOf {} [("a.ets", twoContainersText)]) =
      some (.wholeModule "m" "Lib" false,
        ⟨"Lib", "Lib.a.Box.open", "open", .staticCall, some "Box"⟩) := by
    decide +kernel
  have declared (access : Access)
      (used : .ofAccess (.wholeModule "m" "Lib" false) access ∈
        uses "m" (summariesOf {} [("a.ets", twoContainersText)]))
      (static : access.context = .staticCall) (ofBox : access.className = some "Box") :
      ∃ package items,
        (collect {} (summariesOf {} [("a.ets", twoContainersText)])).get? "m" = some package ∧
        Outline.ofText? package.declarationText = some items ∧
        Outline.DeclaresStaticAt items ["a"] "Box" access.member := by
    obtain ⟨summary, listed, inFile⟩ := List.mem_flatMap.mp (ofAccess_mem_uses.mp used)
    obtain ⟨inSummary, bound, -⟩ := mem_resolvedIn.mp inFile
    obtain ⟨package, items, way, className, first, firstWay, found, read, named, -, declares,
      isFirst, segments, home⟩ := everyCall summary listed access inSummary _ static bound rfl rfl
    obtain rfl : "Box" = className := Option.some.inj (ofBox.symm.trans named)
    obtain rfl := Option.some.inj (firstCall.symm.trans isFirst)
    have belowRoot : ["a"] ++ ["Box", "open"] = firstWay ++ ["Box", "open"] :=
      List.tail_eq_of_cons_eq segments
    obtain rfl : ["a"] = firstWay := List.append_cancel_right belowRoot
    have unnamed : ∀ imported ∈ package.imports,
        imported.isWildcard = true ∨ imported.importedName ≠ "Box" := by
      rw [eq_ofUses_of_get?_collect found]
      change ∀ imported ∈ (ofUses {} "m" (uses "m" _)).imports, _
      rw [uses_twoContainersText]
      decide +kernel
    rw [home.atFirstCall unnamed (by simp)] at declares
    exact ⟨package, items, found, read, declares⟩
  obtain ⟨package, items, found, read, opened⟩ := declared
    ⟨"Lib", "Lib.a.Box.open", "open", .staticCall, some "Box"⟩
    (by rw [uses_twoContainersText]; decide) rfl rfl
  obtain ⟨_, _, foundAgain, readAgain, closed⟩ := declared
    ⟨"Lib", "Lib.b.Box.close", "close", .staticCall, some "Box"⟩
    (by rw [uses_twoContainersText]; decide) rfl rfl
  obtain rfl := Option.some.inj (found.symm.trans foundAgain)
  obtain rfl := Option.some.inj (read.symm.trans readAgain)
  exact ⟨package, items, found, read, opened, closed⟩

/-- Whether some static call of the sources is not declared in the scope that its own path
leads to. -/
def MissesStaticCall (settings : Settings) (sources : List (String × String)) : Prop :=
  ∃ summary ∈ summariesOf settings sources, ∃ access ∈ summary.accesses,
    ∃ imported way className package items,
      access.context = .staticCall ∧ summary.binding? access.base = some imported ∧
      imported.isExternal = true ∧ access.className = some className ∧
      access.segments = access.base :: (way ++ [className, access.member]) ∧
      (collect settings.inference (summariesOf settings sources)).get? imported.modulePath =
        some package ∧
      Outline.ofText? package.declarationText = some items ∧
      ¬ Outline.DeclaresStaticAt items
        (if imported.isWildcard then way else imported.importedName :: way) className access.member

theorem Legible.not_declaresStaticAt {package : Package} (legible : package.Legible)
    {name className method : String}
    (noBlock : ("namespace", name) ∉ package.moduleDeclarations.map fun declaration =>
      (declaration.keyword, declaration.name)) :
    ¬ Outline.DeclaresStaticAt package.declarationFile.outlines [name] className method := by
  rintro ⟨scope, reached, -⟩
  obtain ⟨_, _, _, inside, -⟩ :=
    DeclarationFile.exists_scopeAt_of_outlines legible.declarationFile reached
  cases inside with
  | inside membership _ => exact noBlock (List.mem_map.mpr ⟨_, membership, rfl⟩)

/-- A call whose path leads to a namespace block is missed if the module level has no such
block. -/
theorem missesStaticCall_of_noBlock {settings : Settings} {sources : List (String × String)}
    {observed : List Use} {way : List String} {className : String} (imported : Import)
    (access : Access) (name : String)
    (inOrder : uses imported.modulePath (summariesOf settings sources) = observed)
    (used : .ofAccess imported access ∈ observed) (external : imported.isExternal = true)
    (static : access.context = .staticCall) (named : access.className = some className)
    (segments : access.segments = access.base :: (way ++ [className, access.member]))
    (path : (if imported.isWildcard then way else imported.importedName :: way) = [name])
    (noBlock : ("namespace", name) ∉
      (ofUses settings.inference imported.modulePath observed).moduleDeclarations.map
        fun declaration => (declaration.keyword, declaration.name)) :
    MissesStaticCall settings sources := by
  rw [← inOrder] at used noBlock
  have membership := ofAccess_mem_uses.mp used
  obtain ⟨summary, listed, inFile⟩ := List.mem_flatMap.mp membership
  obtain ⟨inSummary, bound, -⟩ := mem_resolvedIn.mp inFile
  have found := get?_collect_of_mem_resolved settings.inference membership external
  have legible := legible_of_get?_collect (legible_summariesOf settings sources) found
  refine ⟨summary, listed, access, inSummary, imported, way, className, _, _, static, bound,
    external, named, segments, found, legible.ofText?_declarationText, ?_⟩
  rw [path]
  exact legible.not_declaresStaticAt noBlock

def importedClassText : String :=
  "import \x7b WordArray \x7d from 'm';\nimport * as Lib from 'm';\nLib.core.WordArray.create(4);"

/-- The class of a static call that a file also imports by its name stands at the module level
only, and of two calls on one name below two namespaces the second does not find its class. -/
theorem static_calls_are_not_always_at_their_path :
    MissesStaticCall {} [("a.ets", importedClassText)] ∧
      MissesStaticCall {} [("a.ets", twoContainersText)] := by
  constructor
  · have inOrder : uses "m" (summariesOf {} [("a.ets", importedClassText)]) =
        [.ofImport (.named "m" "WordArray" none false), .ofImport (.wholeModule "m" "Lib" false),
          .ofAccess (.wholeModule "m" "Lib" false)
            ⟨"Lib", "Lib.core.WordArray.create", "create", .staticCall, some "WordArray"⟩] := by
      decide +kernel
    exact missesStaticCall_of_noBlock (.wholeModule "m" "Lib" false)
      ⟨"Lib", "Lib.core.WordArray.create", "create", .staticCall, some "WordArray"⟩ "core" inOrder
      (by decide) rfl rfl rfl rfl rfl (by decide +kernel)
  · exact missesStaticCall_of_noBlock (.wholeModule "m" "Lib" false)
      ⟨"Lib", "Lib.b.Box.close", "close", .staticCall, some "Box"⟩ "b" uses_twoContainersText
      (by decide) rfl rfl rfl rfl rfl (by decide +kernel)

end Package

end AmbientStubs
