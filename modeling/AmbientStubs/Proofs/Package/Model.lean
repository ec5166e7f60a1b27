import AmbientStubs.Proofs.Package.Uses

/-!
The model that the uses of a package call for.  A run of uses offers imports, symbols below
the roots, methods and names of the top level; the package that it leads to holds exactly
what was offered, and of the elements with one identity it holds the first.
-/

namespace AmbientStubs.Package

open Text Convention

/-- The interface that stands for a class without a symbol of its own. -/
def standIn (owner : String) : Symbol :=
  { name := owner, kind := .interfaceType }

namespace Use

def imports : Use → List Import
  | .ofImport imported => [imported]
  | .ofAccess _ _ => []

/-- The symbols that a use asks for, other than the interface of a static owner. -/
def symbols (settings : InferenceSettings) : Use → List Symbol
  | .ofImport imported => [rootSymbol settings imported]
  | .ofAccess imported access => Package.nestedSymbols imported access

/-- The interface that a static call adds to a package that does not know its class. -/
def standIns (package : Package) : Use → List Symbol
  | .ofImport _ => []
  | .ofAccess _ access =>
      ((staticOwner? access).toList.filter fun owner => !package.hasTopLevel owner).map standIn

def nestedSymbols : Use → List Symbol
  | .ofImport _ => []
  | .ofAccess imported access => Package.nestedSymbols imported access

def methods (settings : InferenceSettings) : Use → List Method
  | .ofImport _ => []
  | .ofAccess imported access => (observedMethod? settings imported access).toList

def topLevelNames : Use → List String
  | .ofImport imported => [imported.rootName]
  | .ofAccess _ access => (staticOwner? access).toList

end Use

section Step

variable (settings : InferenceSettings) (package : Package)

theorem declareOwner_eq (owner : String) :
    package.declareOwner owner =
      { package with
        symbols := appendAllNew Symbol.identity package.symbols
          (([owner].filter fun owner => !package.hasTopLevel owner).map standIn) } := by
  unfold declareOwner
  split
  · next known => simp [known]
  · next unknown =>
      rw [insertSymbol_eq]
      simp [unknown, standIn]

theorem nestedSymbols_nested {imported : Import} {access : Access} {symbol : Symbol}
    (membership : symbol ∈ nestedSymbols imported access) : symbol.isTopLevel = false := by
  obtain ⟨before, name, after, -, rfl | rfl⟩ := mem_nestedSymbols membership
  · rfl
  · rfl

theorem not_mem_map_nestedSymbols {imported : Import} {access : Access} {name : String}
    {kind : SymbolKind} :
    (⟨name, kind, none⟩ : Symbol.Identity) ∉
      (nestedSymbols imported access).map Symbol.identity := by
  intro membership
  obtain ⟨symbol, membership, same⟩ := List.mem_map.mp membership
  have inner := nestedSymbols_nested membership
  simp only [Symbol.identity, Symbol.Identity.mk.injEq] at same
  simp [Symbol.isTopLevel, same.2.2] at inner

theorem hasTopLevel_iff {name : String} :
    package.hasTopLevel name = true ↔
      ∃ kind, (⟨name, kind, none⟩ : Symbol.Identity) ∈ package.symbols.map Symbol.identity := by
  simp only [hasTopLevel, topLevel, List.any_eq_true, List.mem_filter, Symbol.isTopLevel,
    Option.isNone_iff_eq_none, beq_iff_eq, List.mem_map, Symbol.identity,
    Symbol.Identity.mk.injEq]
  constructor
  · rintro ⟨symbol, ⟨membership, top⟩, same⟩
    exact ⟨symbol.kind, symbol, membership, same, rfl, top⟩
  · rintro ⟨kind, symbol, membership, same, -, top⟩
    exact ⟨symbol, ⟨membership, top⟩, same⟩

theorem hasTopLevel_insertSymbols {imported : Import} {access : Access} {name : String} :
    (package.insertSymbols (nestedSymbols imported access)).hasTopLevel name =
      package.hasTopLevel name := by
  rw [Bool.eq_iff_iff, hasTopLevel_iff, hasTopLevel_iff, insertSymbols_eq]
  simp only [mem_map_appendAllNew, not_mem_map_nestedSymbols, or_false]

/-- What a use does to a package: it adds its import, and offers its symbols and methods. -/
theorem apply_eq (use : Use) :
    use.apply settings package =
      { package with
        imports := package.imports ++ use.imports
        symbols := appendAllNew Symbol.identity package.symbols
          (use.symbols settings ++ use.standIns package)
        methods := appendAllNew Method.identity package.methods (use.methods settings) } := by
  cases use with
  | ofImport imported =>
      simp [Use.apply, Use.imports, Use.symbols, Use.standIns, Use.methods, addImported, addImport,
        insertSymbol_eq]
  | ofAccess imported access =>
      have unchanged (name : String) :
          ((package.insertSymbols (nestedSymbols imported access)).insertMethods
            (observedMethod? settings imported access).toList).hasTopLevel name =
          package.hasTopLevel name := by
        rw [← hasTopLevel_insertSymbols package, insertMethods_eq]
        rfl
      rw [Use.apply, addAccess_eq, Use.standIns, appendAllNew_append]
      cases staticOwner? access with
      | none =>
          simp [Use.imports, Use.symbols, Use.methods, insertSymbols_eq, insertMethods_eq]
      | some owner =>
          rw [Option.toList_some, List.foldl_cons, List.foldl_nil, declareOwner_eq]
          simp only [unchanged]
          simp [Use.imports, Use.symbols, Use.methods, insertSymbols_eq, insertMethods_eq]

def nested : List Symbol :=
  package.symbols.filter fun symbol => !symbol.isTopLevel

theorem filter_symbols (use : Use) :
    (use.symbols settings ++ use.standIns package).filter (fun symbol => !symbol.isTopLevel) =
      use.nestedSymbols := by
  cases use with
  | ofImport imported =>
      simp [Use.symbols, Use.standIns, Use.nestedSymbols, rootSymbol, Symbol.isTopLevel]
  | ofAccess imported access =>
      have inside : (nestedSymbols imported access).filter (fun symbol => !symbol.isTopLevel) =
          nestedSymbols imported access := by
        refine List.filter_eq_self.mpr fun symbol membership => ?_
        simp [nestedSymbols_nested membership]
      have outside : (Use.standIns package (.ofAccess imported access)).filter
          (fun symbol => !symbol.isTopLevel) = [] := by
        rw [List.filter_eq_nil_iff]
        intro symbol membership
        obtain ⟨owner, -, rfl⟩ := List.mem_map.mp membership
        simp [standIn, Symbol.isTopLevel]
      rw [List.filter_append, Use.symbols, inside, outside, List.append_nil, Use.nestedSymbols]

theorem nested_apply (use : Use) :
    (use.apply settings package).nested =
      appendAllNew Symbol.identity package.nested use.nestedSymbols := by
  have seesIdentity : ∀ first second : Symbol, first.identity = second.identity →
      (!first.isTopLevel) = !second.isTopLevel := by
    intro first second same
    simp only [Symbol.identity, Symbol.Identity.mk.injEq] at same
    simp [Symbol.isTopLevel, same.2.2]
  rw [nested, apply_eq, filter_appendAllNew Symbol.identity seesIdentity, filter_symbols, nested]

theorem hasTopLevel_apply (use : Use) {name : String} :
    (use.apply settings package).hasTopLevel name = true ↔
      package.hasTopLevel name = true ∨ name ∈ use.topLevelNames := by
  rw [hasTopLevel_iff, apply_eq]
  simp only [mem_map_appendAllNew, exists_or, List.map_append, List.mem_append]
  rw [← hasTopLevel_iff]
  cases use with
  | ofImport imported => simp [Use.symbols, Use.standIns, Use.topLevelNames]
  | ofAccess imported access =>
      simp only [Use.symbols, not_mem_map_nestedSymbols, exists_false, false_or]
      constructor
      · rintro (known | ⟨kind, membership⟩)
        · exact .inl known
        · obtain ⟨symbol, standing, same⟩ := List.mem_map.mp membership
          obtain ⟨owner, unknown, rfl⟩ := List.mem_map.mp standing
          simp only [Symbol.identity, standIn, Symbol.Identity.mk.injEq] at same
          rw [← same.1]
          exact .inr (List.mem_filter.mp unknown).1
      · rintro (known | static)
        · exact .inl known
        · cases known : package.hasTopLevel name with
          | true => exact .inl rfl
          | false =>
              have standing : standIn name ∈ Use.standIns package (.ofAccess imported access) :=
                List.mem_map.mpr ⟨name, List.mem_filter.mpr ⟨static, by simp [known]⟩, rfl⟩
              exact .inr ⟨.interfaceType, List.mem_map.mpr ⟨_, standing, rfl⟩⟩

end Step

section Run

variable (settings : InferenceSettings)

theorem foldl_apply_eq (package : Package) (uses : List Use) :
    uses.foldl (Use.apply settings) package =
      { package with
        imports := package.imports ++ uses.flatMap Use.imports
        symbols := (uses.foldl (Use.apply settings) package).symbols
        methods := appendAllNew Method.identity package.methods
          (uses.flatMap (Use.methods settings)) } := by
  induction uses generalizing package with
  | nil => simp
  | cons use rest inductionHypothesis =>
      rw [List.foldl_cons, inductionHypothesis, apply_eq settings package use]
      simp [appendAllNew_append]

theorem nested_foldl_apply (package : Package) (uses : List Use) :
    (uses.foldl (Use.apply settings) package).nested =
      appendAllNew Symbol.identity package.nested (uses.flatMap Use.nestedSymbols) := by
  induction uses generalizing package with
  | nil => rfl
  | cons use rest inductionHypothesis =>
      rw [List.foldl_cons, inductionHypothesis, nested_apply, List.flatMap_cons,
        appendAllNew_append]

theorem hasTopLevel_foldl_apply (package : Package) (uses : List Use) {name : String} :
    (uses.foldl (Use.apply settings) package).hasTopLevel name = true ↔
      package.hasTopLevel name = true ∨ name ∈ uses.flatMap Use.topLevelNames := by
  induction uses generalizing package with
  | nil => simp
  | cons use rest inductionHypothesis =>
      rw [List.foldl_cons, inductionHypothesis, hasTopLevel_apply, List.flatMap_cons,
        List.mem_append, or_assoc]

variable (modulePath : String) (summaries : List SourceSummary)

theorem flatMap_uses_of_imports {Item : Type} (offered : Use → List Item)
    (noAccess : ∀ imported access, offered (.ofAccess imported access) = []) :
    (uses modulePath summaries).flatMap offered =
      summaries.flatMap fun summary =>
        (summary.imports.filter (·.modulePath == modulePath)).flatMap fun imported =>
          offered (.ofImport imported) := by
  simp only [uses, usesIn, List.flatMap_assoc, List.flatMap_append, List.flatMap_map, noAccess]
  congr 1
  funext summary
  rw [List.append_right_eq_self, List.flatMap_eq_nil_iff]
  exact fun _ _ => rfl

theorem flatMap_uses_of_accesses {Item : Type} (offered : Use → List Item)
    (noImport : ∀ imported, offered (.ofImport imported) = []) :
    (uses modulePath summaries).flatMap offered =
      (resolved modulePath summaries).flatMap fun use => offered (.ofAccess use.1 use.2) := by
  simp only [uses, usesIn, resolved, List.flatMap_assoc, List.flatMap_append, List.flatMap_map,
    noImport]
  congr 1
  funext summary
  rw [List.append_left_eq_self, List.flatMap_eq_nil_iff]
  exact fun _ _ => rfl

theorem modulePath_ofUses (uses : List Use) :
    (ofUses settings modulePath uses).modulePath = modulePath := by
  rw [ofUses, foldl_apply_eq]

theorem imports_ofUses :
    (ofUses settings modulePath (uses modulePath summaries)).imports =
      summaries.flatMap fun summary => summary.imports.filter (·.modulePath == modulePath) := by
  rw [ofUses, foldl_apply_eq, flatMap_uses_of_imports _ _ Use.imports (fun _ _ => rfl)]
  simp [Use.imports]

/-- The methods of a package are those that its accesses call for. -/
theorem methods_ofUses :
    (ofUses settings modulePath (uses modulePath summaries)).methods =
      appendAllNew Method.identity [] ((resolved modulePath summaries).flatMap fun use =>
        (observedMethod? settings use.1 use.2).toList) := by
  rw [ofUses, foldl_apply_eq, flatMap_uses_of_accesses _ _ (Use.methods settings) (fun _ => rfl)]
  rfl

/-- The symbols below the roots are those that the accesses call for. -/
theorem nested_ofUses :
    (ofUses settings modulePath (uses modulePath summaries)).nested =
      appendAllNew Symbol.identity [] ((resolved modulePath summaries).flatMap fun use =>
        nestedSymbols use.1 use.2) := by
  rw [ofUses, nested_foldl_apply, flatMap_uses_of_accesses _ _ Use.nestedSymbols (fun _ => rfl)]
  rfl

/-- The names of the top level are the roots of the imports and the classes of static
calls. -/
theorem hasTopLevel_ofUses {name : String} :
    (ofUses settings modulePath (uses modulePath summaries)).hasTopLevel name = true ↔
      (∃ imported ∈ (ofUses settings modulePath (uses modulePath summaries)).imports,
        imported.rootName = name) ∨
      ∃ use ∈ resolved modulePath summaries, staticOwner? use.2 = some name := by
  have fresh : ({ modulePath := modulePath } : Package).hasTopLevel name = false := rfl
  rw [imports_ofUses, ofUses, hasTopLevel_foldl_apply, fresh]
  simp only [Bool.false_eq_true, false_or, uses, usesIn, resolved, List.flatMap_assoc,
    List.mem_flatMap, List.flatMap_append, List.mem_append, List.mem_map, List.mem_filter,
    beq_iff_eq]
  constructor
  · rintro ⟨summary, membership, (offered | offered)⟩
    · obtain ⟨_, ⟨imported, inFile, rfl⟩, named⟩ := offered
      rw [Use.topLevelNames, List.mem_singleton] at named
      exact .inl ⟨imported, ⟨summary, membership, inFile⟩, named.symm⟩
    · obtain ⟨_, ⟨use, inFile, rfl⟩, named⟩ := offered
      rw [Use.topLevelNames, Option.mem_toList] at named
      exact .inr ⟨use, ⟨summary, membership, inFile⟩, named⟩
  · rintro (⟨imported, ⟨summary, membership, inFile⟩, rfl⟩ |
      ⟨use, ⟨summary, membership, inFile⟩, named⟩)
    · exact ⟨summary, membership, .inl ⟨_, ⟨imported, inFile, rfl⟩, by simp [Use.topLevelNames]⟩⟩
    · exact ⟨summary, membership, .inr ⟨_, ⟨use, inFile, rfl⟩, by simp [Use.topLevelNames, named]⟩⟩

end Run

end AmbientStubs.Package
