import AmbientStubs.Proofs.Declaration.Renaming

/-!
The declarations of a package whose roots are renamed.  What is laid out differs only in the
qualifiers of methods, which no line shows, so the text of the package stays the same.
-/

namespace AmbientStubs

open Text

namespace RootRenaming

open Package

/-- A package that is another one with its roots renamed. -/
structure Renames (roots : RootRenaming) (package renamed : Package) : Prop where
  modulePath : renamed.modulePath = package.modulePath
  symbols : renamed.symbols = package.symbols.map roots.symbol
  methods : renamed.methods = package.methods.map roots.method
  defaultExport : renamed.defaultExport? = package.defaultExport?
  extraDeclarations : renamed.extraDeclarations = package.extraDeclarations

/-- A symbol of which no name is changed but that of a root which stands for the whole module. -/
structure Admits (roots : RootRenaming) (symbol : Symbol) : Prop where
  plain : '.' ∉ symbol.name.toList
  occurs : roots.OccursIn symbol.qualifiedPath
  kept : symbol.parentPath = none → symbol.kind ≠ .namespaceScope →
    roots.name symbol.name = symbol.name

/-- Only roots that stand for the whole module are renamed. -/
structure Fits (roots : RootRenaming) (package : Package) : Prop where
  symbols : ∀ symbol ∈ package.symbols, roots.Admits symbol
  methods : ∀ method ∈ package.methods, roots.OccursIn method.qualifier
  qualifiers : ∀ method ∈ package.methods, ∀ root ∈ (segments method.qualifier).head?,
    root ∈ package.flattenedRoots ∨ roots.name root = root

variable {roots : RootRenaming} {package renamed : Package}

theorem container?_eq_none {method : Method} (short : (segments method.qualifier).length ≤ 2) :
    container? method = none := by
  unfold container?
  split
  · next last owner first rest reversed =>
      have length := congrArg List.length reversed
      simp only [List.length_reverse, List.length_cons] at length
      omega
  · rfl

theorem exists_of_container? {method : Method} {container : String}
    (found : container? method = some container) :
    ∃ root way className name, segments method.qualifier = root :: (way ++ [className, name]) ∧
      segments container = root :: way := by
  obtain ⟨root, way, split⟩ := List.exists_cons_of_ne_nil (segments_ne_nil method.qualifier)
  rcases eq_nil_or_singleton_or_append_pair way with rfl | ⟨only, rfl⟩ |
    ⟨front, className, name, rfl⟩
  · rw [container?_eq_none (by simp [split])] at found
    contradiction
  · rw [container?_eq_none (by simp [split])] at found
    contradiction
  · have plainFront : ∀ part ∈ root :: front, '.' ∉ part.toList := by
      intro part membership
      apply not_mem_of_mem_segments
      rw [split, ← List.cons_append]
      exact List.mem_append_left _ membership
    have container : container? method = some (dotted (root :: front)) :=
      container?_eq_some split (by simp)
    rw [container, Option.some.injEq] at found
    refine ⟨root, front, className, name, split, ?_⟩
    rw [← found]
    exact segments_dotted (by simp) plainFront

theorem container?_method (method : Method) :
    container? (roots.method method) = (container? method).map roots.path := by
  obtain ⟨root, way, split⟩ := List.exists_cons_of_ne_nil (segments_ne_nil method.qualifier)
  have renamedSplit : segments (roots.method method).qualifier = roots.name root :: way :=
    segments_path split
  cases found : container? method with
  | none =>
      apply container?_eq_none
      rw [renamedSplit]
      by_cases long : 2 ≤ way.length
      · obtain ⟨front, className, name, rfl⟩ : ∃ front className name,
            way = front ++ [className, name] := by
          rcases eq_nil_or_singleton_or_append_pair way with rfl | ⟨only, rfl⟩ | shape
          · simp at long
          · simp at long
          · exact shape
        have container : container? method = some (dotted (root :: front)) :=
          container?_eq_some split (by simp)
        rw [found] at container
        contradiction
      · rw [List.length_cons]
        omega
  | some container =>
      obtain ⟨other, front, className, name, otherSplit, inContainer⟩ := exists_of_container? found
      rw [split, List.cons.injEq] at otherSplit
      obtain ⟨rfl, rfl⟩ := otherSplit
      rw [Option.map_some, path_eq inContainer]
      exact container?_eq_some renamedSplit (by simp)

theorem typeDeclaration?_map {change : Method → Method}
    (sameStatic : ∀ method, (change method).isStatic = method.isStatic) (kinds : List SymbolKind)
    (name : String) (methods : List Method) :
    typeDeclaration? kinds name (methods.map change) =
      (typeDeclaration? kinds name methods).map (Declaration.mapMethods change) := by
  have static : (methods.map change).any (·.isStatic) = methods.any (·.isStatic) := by
    rw [List.any_map]
    congr 1
    funext method
    exact sameStatic method
  unfold typeDeclaration?
  rw [static, List.isEmpty_map]
  split
  · rw [Option.map_some, Declaration.mapMethods]
  · split
    · rw [Option.map_some, Declaration.mapMethods]
    · split
      · rw [Option.map_some, Declaration.mapMethods]
      · split
        · rw [Option.map_some, Declaration.mapMethods]
        · rfl

theorem valueDeclaration?_map (change : Method → Method) (kinds : List SymbolKind) (entry : Entry)
    (block : Bool) :
    valueDeclaration? kinds (roots.entry entry) block =
      (valueDeclaration? kinds entry block).map (Declaration.mapMethods change) := by
  unfold valueDeclaration?
  split
  · rw [Option.map_some, Declaration.mapMethods]
    rfl
  · split
    · rw [Option.map_some, Declaration.mapMethods]
      rfl
    · rfl

theorem declaresValue_mapMethods (change : Method → Method) (declaration : Declaration) :
    declaresValue (Declaration.mapMethods change declaration) = declaresValue declaration := by
  cases declaration <;> rw [Declaration.mapMethods] <;> rfl

section Fitting

variable (fits : roots.Fits package)

include fits

theorem Fits.occursIn_parent {symbol : Symbol} (membership : symbol ∈ package.symbols)
    {parent : String} (inside : symbol.parentPath = some parent) : roots.OccursIn parent := by
  have admits := fits.symbols symbol membership
  have occurs := admits.occurs
  rw [Symbol.qualifiedPath, inside] at occurs
  exact (occursIn_append admits.plain).mp occurs

theorem Fits.keeps_of_inside {symbol : Symbol} (membership : symbol ∈ package.symbols)
    {parent : String} (inside : symbol.parentPath = some parent) : roots.Keeps symbol :=
  ⟨(fits.symbols symbol membership).plain, (fits.symbols symbol membership).occurs,
    name_symbol_of_inside inside⟩

theorem Fits.keeps_of_moduleSymbols {symbol : Symbol}
    (membership : symbol ∈ package.moduleSymbols) : roots.Keeps symbol := by
  obtain ⟨present, atModuleLevel⟩ := List.mem_filter.mp membership
  cases inside : symbol.parentPath with
  | some parent => exact fits.keeps_of_inside present inside
  | none =>
      simp only [inside, bne_iff_ne] at atModuleLevel
      have admits := fits.symbols symbol present
      refine ⟨admits.plain, admits.occurs, ?_⟩
      rw [name_symbol_of_top inside, admits.kept inside atModuleLevel]

theorem Fits.occurs_flattenedRoot {root : String} (flattened : root ∈ package.flattenedRoots) :
    roots.OccursIn root := by
  obtain ⟨symbol, listed, rfl⟩ := List.mem_map.mp flattened
  obtain ⟨present, top⟩ := List.mem_filter.mp (List.mem_filter.mp listed).1
  rw [Symbol.isTopLevel, Option.isNone_iff_eq_none] at top
  have occurs := (fits.symbols symbol present).occurs
  rw [Symbol.qualifiedPath, top] at occurs
  exact occurs

end Fitting

section Renamed

variable (renames : roots.Renames package renamed) (fits : roots.Fits package)

include renames

theorem Renames.topLevel : renamed.topLevel = package.topLevel.map roots.symbol := by
  rw [Package.topLevel, renames.symbols, List.filter_map, Package.topLevel]
  simp only [Function.comp_def, isTopLevel_symbol]

theorem Renames.methodsOf (owner : String) :
    renamed.methodsOf owner = (package.methodsOf owner).map roots.method := by
  rw [Package.methodsOf, renames.methods, List.filter_map]
  rfl

theorem Renames.methodOwners : renamed.methodOwners = package.methodOwners := by
  rw [Package.methodOwners, renames.methods, List.map_map]
  rfl

include fits

theorem Renames.flattenedRoots :
    renamed.flattenedRoots = package.flattenedRoots.map roots.path := by
  rw [Package.flattenedRoots, renames.topLevel, List.filter_map, List.map_map]
  simp only [Function.comp_def, kind_symbol]
  rw [Package.flattenedRoots, List.map_map]
  apply List.map_congr_left
  intro symbol listed
  obtain ⟨present, top⟩ := List.mem_filter.mp (List.mem_filter.mp listed).1
  rw [Symbol.isTopLevel, Option.isNone_iff_eq_none] at top
  rw [Function.comp_apply, name_symbol_of_top top,
    path_of_not_mem (fits.symbols symbol present).plain]

theorem Renames.contains_flattenedRoots {path : String} (occurs : roots.OccursIn path) :
    renamed.flattenedRoots.contains (roots.path path) = package.flattenedRoots.contains path := by
  rw [renames.flattenedRoots fits]
  apply contains_map_path occurs
  intro root flattened
  exact fits.occurs_flattenedRoot flattened

theorem Renames.isImportedOwner (owner : String) :
    renamed.isImportedOwner owner = package.isImportedOwner owner := by
  rw [Package.isImportedOwner, renames.topLevel, List.any_map, Package.isImportedOwner,
    Bool.eq_iff_iff, List.any_eq_true, List.any_eq_true]
  apply exists_congr
  intro symbol
  apply and_congr_right
  intro listed
  obtain ⟨present, top⟩ := List.mem_filter.mp listed
  rw [Symbol.isTopLevel, Option.isNone_iff_eq_none] at top
  rw [Function.comp_apply]
  by_cases kind : symbol.kind = .namespaceScope
  · simp [kind]
  · rw [symbol_eq_self top ((fits.symbols symbol present).kept top kind)]

def placement (roots : RootRenaming) : Placement → Placement
  | .moduleLevel => .moduleLevel
  | .relocated container => .relocated (roots.path container)

omit renames in
theorem Fits.occursIn_container {method : Method} (membership : method ∈ package.methods)
    {container : String} (found : container? method = some container) :
    roots.OccursIn container ∧ ∀ root ∈ (segments container).head?,
      root ∈ package.flattenedRoots ∨ roots.name root = root := by
  obtain ⟨root, way, className, name, split, inContainer⟩ := exists_of_container? found
  have occurs := fits.methods method membership
  have qualifier := fits.qualifiers method membership
  rw [OccursIn, split] at occurs
  rw [split] at qualifier
  rw [OccursIn, inContainer]
  exact ⟨occurs, qualifier⟩

theorem Renames.placement_eq (owner : String) :
    renamed.placement owner = roots.placement (package.placement owner) := by
  have first : ((renamed.methodsOf owner).find? (·.isStatic)).bind container? =
      (((package.methodsOf owner).find? (·.isStatic)).bind container?).map roots.path := by
    rw [renames.methodsOf, List.find?_map, Option.bind_map, Option.map_bind]
    congr 1
    funext method
    exact container?_method method
  rw [Package.placement, Package.placement, renames.isImportedOwner fits, first]
  split
  · rfl
  · cases found : ((package.methodsOf owner).find? (·.isStatic)).bind container? with
    | none => rfl
    | some container =>
        obtain ⟨method, firstStatic, inside⟩ := Option.bind_eq_some_iff.mp found
        have present := (List.mem_filter.mp (List.mem_of_find?_eq_some firstStatic)).1
        have occurs := (fits.occursIn_container present inside).1
        simp only [Option.map_some, renames.contains_flattenedRoots fits occurs]
        split <;> rfl

theorem Renames.moduleLevelOwners : renamed.moduleLevelOwners = package.moduleLevelOwners := by
  rw [Package.moduleLevelOwners, Package.moduleLevelOwners, renames.methodOwners]
  congr 1
  funext owner
  rw [renames.placement_eq fits]
  cases package.placement owner <;> simp [placement]

theorem Renames.relocations :
    renamed.relocations = package.relocations.map roots.relocation := by
  rw [Package.relocations, Package.relocations, renames.methodOwners, List.map_filterMap]
  congr 1
  funext owner
  rw [renames.placement_eq fits]
  cases package.placement owner <;> rfl

omit renames fits in
theorem isRelocated_map (relocations : List Relocation) (owner : String) :
    isRelocated (relocations.map roots.relocation) owner = isRelocated relocations owner := by
  rw [isRelocated, List.any_map]
  rfl

omit renames in
theorem Fits.occursIn_relocation {relocation : Relocation}
    (listed : relocation ∈ package.relocations) :
    roots.OccursIn relocation.container ∧ ∀ root ∈ (segments relocation.container).head?,
      root ∈ package.flattenedRoots ∨ roots.name root = root := by
  obtain ⟨method, firstStatic, found⟩ := Option.bind_eq_some_iff.mp
    (placement_eq_relocated (mem_relocations.mp listed).2).1
  have present := (List.mem_filter.mp (List.mem_of_find?_eq_some firstStatic)).1
  exact fits.occursIn_container present found

theorem Renames.modulePathOf? {path : String} (occurs : roots.OccursIn path)
    (qualifier : ∀ root ∈ (segments path).head?,
      root ∈ package.flattenedRoots ∨ roots.name root = root) :
    renamed.modulePathOf? (roots.path path) = package.modulePathOf? path := by
  obtain ⟨root, way, split⟩ := List.exists_cons_of_ne_nil (segments_ne_nil path)
  have plain : '.' ∉ root.toList := not_mem_of_mem_segments (split ▸ List.mem_cons_self)
  have occursRoot : roots.OccursIn root := by
    rw [occursIn_of_not_mem plain]
    exact occurs root (by simp [split])
  have flattened := renames.contains_flattenedRoots fits occursRoot
  rw [path_of_not_mem plain] at flattened
  unfold Package.modulePathOf?
  simp only [segments_path split, split, flattened]
  split
  · rfl
  · next elsewhere =>
      rw [List.contains_iff_mem] at elsewhere
      have kept := (qualifier root (by simp [split])).resolve_left elsewhere
      rw [path_eq split, kept, ← split, dotted_segments]

theorem Renames.aliasTarget? (owner : String) :
    renamed.aliasTarget? owner = package.aliasTarget? owner := by
  rw [Package.aliasTarget?, Package.aliasTarget?, renames.placement_eq fits]
  cases placed : package.placement owner with
  | moduleLevel => rfl
  | relocated container =>
      obtain ⟨method, firstStatic, found⟩ :=
        Option.bind_eq_some_iff.mp (placement_eq_relocated placed).1
      have present := (List.mem_filter.mp (List.mem_of_find?_eq_some firstStatic)).1
      obtain ⟨occurs, qualifier⟩ := fits.occursIn_container present found
      simp only [placement, renames.modulePathOf? fits occurs qualifier]

omit renames in
theorem Fits.parentPath_beq {symbol : Symbol} (membership : symbol ∈ package.symbols)
    {path : String} (occurs : roots.OccursIn path) :
    ((roots.symbol symbol).parentPath == some (roots.path path)) =
      (symbol.parentPath == some path) := by
  rw [parentPath_symbol]
  cases inside : symbol.parentPath with
  | none => rfl
  | some parent =>
      have same := path_inj (fits.occursIn_parent membership inside) occurs
      rw [Bool.eq_iff_iff, beq_iff_eq, beq_iff_eq, Option.map_some, Option.some.injEq,
        Option.some.injEq, same]

theorem Renames.childrenOf {path : String} (occurs : roots.OccursIn path) :
    renamed.childrenOf (roots.path path) = (package.childrenOf path).map roots.symbol := by
  rw [Package.childrenOf, renames.symbols, List.filter_map, Package.childrenOf]
  congr 1
  apply List.filter_congr
  intro symbol membership
  exact fits.parentPath_beq membership occurs

theorem Renames.hasChildren {path : String} (occurs : roots.OccursIn path) :
    renamed.hasChildren (roots.path path) = package.hasChildren path := by
  have ofChildren (inner : Package) (path : String) :
      inner.hasChildren path = !(inner.childrenOf path).isEmpty := by
    rw [Package.hasChildren, Package.childrenOf, Bool.eq_iff_iff]
    simp
  rw [ofChildren, ofChildren, renames.childrenOf fits occurs, List.isEmpty_map]

theorem Renames.moduleSymbols :
    renamed.moduleSymbols = package.moduleSymbols.map roots.symbol := by
  rw [Package.moduleSymbols, renames.symbols, List.filter_map, Package.moduleSymbols]
  congr 1
  apply List.filter_congr
  intro symbol membership
  simp only [Function.comp_apply, parentPath_symbol, kind_symbol]
  cases inside : symbol.parentPath with
  | none => rfl
  | some parent =>
      exact renames.contains_flattenedRoots fits (fits.occursIn_parent membership inside)

theorem Renames.moduleEntries :
    renamed.moduleEntries = package.moduleEntries.map roots.entry := by
  have keeps : ∀ symbol ∈ package.moduleSymbols, roots.Keeps symbol := by
    intro symbol membership
    exact fits.keeps_of_moduleSymbols membership
  rw [Package.moduleEntries, Package.moduleEntries, renames.moduleSymbols fits,
    renames.methodOwners, ofSymbols_map keeps, withOwners_map]

end Renamed

theorem effectiveKinds_entry (relocations : List Relocation) (atModuleLevel : Bool)
    (entry : Entry) :
    effectiveKinds (relocations.map roots.relocation) atModuleLevel (roots.entry entry) =
      effectiveKinds relocations atModuleLevel entry := by
  rw [effectiveKinds, effectiveKinds, isRelocated_map]
  rfl

section Layout

variable (renames : roots.Renames package renamed) (fits : roots.Fits package)
  {atModuleLevel : Bool} {owners : List String} {entry : Entry}

include fits in
theorem Fits.keeps_of_mem_children {symbol : Symbol}
    (membership : symbol ∈ entry.paths.flatMap package.childrenOf) : roots.Keeps symbol := by
  obtain ⟨parent, -, child⟩ := List.mem_flatMap.mp membership
  obtain ⟨present, inside⟩ := List.mem_filter.mp child
  exact fits.keeps_of_inside present (beq_iff_eq.mp inside)

include fits in
theorem Fits.hostedIn {paths : List String} (occurAll : ∀ path ∈ paths, roots.OccursIn path) :
    hostedIn (package.relocations.map roots.relocation) (paths.map roots.path) =
      hostedIn package.relocations paths := by
  rw [Package.hostedIn, List.filter_map, List.map_map, Package.hostedIn]
  have same : package.relocations.filter ((fun relocation =>
        (paths.map roots.path).contains relocation.container) ∘ roots.relocation) =
      package.relocations.filter fun relocation => paths.contains relocation.container := by
    apply List.filter_congr
    intro relocation listed
    exact contains_map_path (fits.occursIn_relocation listed).1 occurAll
  rw [same]
  rfl

include renames fits

theorem Renames.innerEntries (occurAll : ∀ path ∈ entry.paths, roots.OccursIn path) :
    renamed.innerEntries (package.relocations.map roots.relocation) (roots.entry entry) =
      (package.innerEntries package.relocations entry).map roots.entry := by
  have children : (entry.paths.map roots.path).flatMap renamed.childrenOf =
      (entry.paths.flatMap package.childrenOf).map roots.symbol := by
    rw [List.flatMap_map, List.map_flatMap]
    apply List.flatMap_congr
    intro path known
    exact renames.childrenOf fits (occurAll path known)
  have keeps : ∀ symbol ∈ entry.paths.flatMap package.childrenOf, roots.Keeps symbol := by
    intro symbol membership
    exact fits.keeps_of_mem_children membership
  rw [Package.innerEntries, Package.innerEntries, RootRenaming.entry, fits.hostedIn occurAll,
    children, ofSymbols_map keeps, withOwners_map]

theorem Renames.hasBlock (occurAll : ∀ path ∈ entry.paths, roots.OccursIn path) :
    renamed.hasBlock (package.relocations.map roots.relocation) (roots.entry entry) =
      package.hasBlock package.relocations entry := by
  have children : (entry.paths.map roots.path).any renamed.hasChildren =
      entry.paths.any package.hasChildren := by
    rw [List.any_map, Bool.eq_iff_iff, List.any_eq_true, List.any_eq_true]
    apply exists_congr
    intro path
    apply and_congr_right
    intro known
    rw [Function.comp_apply, renames.hasChildren fits (occurAll path known)]
  rw [Package.hasBlock, Package.hasBlock, RootRenaming.entry, fits.hostedIn occurAll, children]

omit fits in
theorem Renames.scopeMethods (name : String) :
    renamed.scopeMethods owners name = (package.scopeMethods owners name).map roots.method := by
  unfold Package.scopeMethods
  split
  · exact renames.methodsOf name
  · rfl

omit fits in
theorem Renames.typeOf :
    renamed.typeOf (package.relocations.map roots.relocation) atModuleLevel owners
        (roots.entry entry) =
      (package.typeOf package.relocations atModuleLevel owners entry).map
        (Declaration.mapMethods roots.method) := by
  have sameName : (roots.entry entry).name = entry.name := rfl
  rw [Package.typeOf, effectiveKinds_entry, sameName, renames.scopeMethods, Package.typeOf]
  apply typeDeclaration?_map
  intro method
  rfl

theorem Renames.aliasOf :
    renamed.aliasOf (package.relocations.map roots.relocation) atModuleLevel owners
        (roots.entry entry) =
      (package.aliasOf package.relocations atModuleLevel owners entry).map
        (Declaration.mapMethods roots.method) := by
  have sameName : (roots.entry entry).name = entry.name := rfl
  rw [Package.aliasOf, Package.aliasOf, renames.typeOf, Option.isNone_map, sameName,
    isRelocated_map, renames.aliasTarget? fits]
  split
  · rw [Option.map_map]
    rfl
  · rw [Option.map_none]

theorem Renames.valueOf (occurAll : ∀ path ∈ entry.paths, roots.OccursIn path) :
    renamed.valueOf (package.relocations.map roots.relocation) atModuleLevel owners
        (roots.entry entry) =
      (package.valueOf package.relocations atModuleLevel owners entry).map
        (Declaration.mapMethods roots.method) := by
  rw [Package.valueOf, Package.valueOf, renames.typeOf, Option.any_map, effectiveKinds_entry,
    renames.hasBlock fits occurAll]
  simp only [declaresValue_mapMethods]
  split
  · rfl
  · exact valueDeclaration?_map roots.method _ _ _

theorem Renames.plainDeclarations (occurAll : ∀ path ∈ entry.paths, roots.OccursIn path) :
    renamed.plainDeclarations (package.relocations.map roots.relocation) atModuleLevel owners
        (roots.entry entry) =
      (package.plainDeclarations package.relocations atModuleLevel owners entry).map
        (Declaration.mapMethods roots.method) := by
  rw [plainDeclarations_eq, plainDeclarations_eq, renames.typeOf, renames.aliasOf fits,
    renames.valueOf fits occurAll, List.map_append, List.map_append, Option.toList_map,
    Option.toList_map, Option.toList_map]

/-- A scope is laid out as before, up to the qualifiers of methods. -/
theorem Renames.scopeDeclarations (levels : Nat) {entries : List Entry}
    (occurAll : roots.OccurInAll entries) :
    renamed.scopeDeclarations (package.relocations.map roots.relocation) levels atModuleLevel
        (entries.map roots.entry) owners =
      (package.scopeDeclarations package.relocations levels atModuleLevel entries owners).map
        (Declaration.mapMethods roots.method) := by
  induction levels generalizing atModuleLevel entries owners with
  | zero => rw [Package.scopeDeclarations, Package.scopeDeclarations, List.map_nil]
  | succ levels inductionHypothesis =>
      rw [scopeDeclarations_succ, scopeDeclarations_succ, List.flatMap_map, List.map_flatMap]
      apply List.flatMap_congr
      intro entry listed
      have occurs := occurAll entry listed
      have inside : roots.OccurInAll (package.innerEntries package.relocations entry) := by
        apply occurInAll_withOwners
        intro symbol membership
        exact fits.keeps_of_mem_children membership
      rw [group, group, List.map_append, renames.plainDeclarations fits occurs, blockOf, blockOf,
        renames.hasBlock fits occurs]
      split
      · have paths : (roots.entry entry).paths = entry.paths.map roots.path := rfl
        rw [renames.innerEntries fits occurs, paths, fits.hostedIn occurs,
          inductionHypothesis inside, List.map_singleton, Declaration.mapMethods,
          Declaration.mapAllMethods_eq_map]
        rfl
      · rfl

theorem Renames.moduleDeclarations :
    renamed.moduleDeclarations =
      package.moduleDeclarations.map (Declaration.mapMethods roots.method) := by
  have occurAll : roots.OccurInAll package.moduleEntries := by
    apply occurInAll_withOwners
    intro symbol membership
    exact fits.keeps_of_moduleSymbols membership
  -- The bounds differ with the lengths of the roots, so both are taken at their maximum.
  rw [moduleDeclarations_eq_of_le (Nat.le_max_left renamed.levelBound package.levelBound),
    moduleDeclarations_eq_of_le (Nat.le_max_right renamed.levelBound package.levelBound),
    renames.relocations fits, renames.moduleEntries fits, renames.moduleLevelOwners fits]
  exact renames.scopeDeclarations fits _ occurAll

/-- Renaming roots that stand for the whole module leaves the text of a package as it is. -/
theorem Renames.declarationText : renamed.declarationText = package.declarationText := by
  have sameLines : Declaration.scopeLines 0 renamed.moduleDeclarations =
      Declaration.scopeLines 0 package.moduleDeclarations := by
    rw [renames.moduleDeclarations fits, ← Declaration.mapAllMethods_eq_map]
    apply Declaration.scopeLines_mapAllMethods
    intro method
    rfl
  have sameBody : renamed.declarationFile.bodyLines = package.declarationFile.bodyLines := by
    simp only [DeclarationFile.bodyLines, Package.declarationFile, sameLines,
      renames.defaultExport, renames.extraDeclarations]
  have sameModule : renamed.declarationFile.modulePath = package.declarationFile.modulePath :=
    renames.modulePath
  rw [Package.declarationText, Package.declarationText, DeclarationFile.text, DeclarationFile.text,
    DeclarationFile.lines, DeclarationFile.lines, sameBody, sameModule]

end Layout

end RootRenaming

end AmbientStubs
