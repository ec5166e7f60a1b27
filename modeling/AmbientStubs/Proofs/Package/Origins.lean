import AmbientStubs.Package.Collection
import AmbientStubs.Declaration.Placement
import AmbientStubs.Proofs.Package.Model

/-!
Where the symbols of the top level and the methods of an owner come from.  A symbol of the top
level is the symbol of an import, or an interface without a signature that stands for the class
of a static call.  The first static method of an owner is that of the first static call on it.
-/

namespace AmbientStubs.Package

open Text Convention

section TopLevel

variable {settings : InferenceSettings} {package : Package} {symbol : Symbol}

inductive Use.AddsToTopLevel (settings : InferenceSettings) : Use → Symbol → Prop where
  | root {imported : Import} :
      AddsToTopLevel settings (.ofImport imported) (rootSymbol settings imported)
  | owner {imported : Import} {access : Access} {owner : String}
      (static : staticOwner? access = some owner) :
      AddsToTopLevel settings (.ofAccess imported access) (standIn owner)

theorem mem_symbols_apply {use : Use} (top : symbol.parentPath = none)
    (membership : symbol ∈ (use.apply settings package).symbols) :
    symbol ∈ package.symbols ∨ use.AddsToTopLevel settings symbol := by
  rw [apply_eq] at membership
  rcases mem_of_mem_appendAllNew Symbol.identity membership with before | offered
  · exact .inl before
  · right
    cases use with
    | ofImport imported =>
        rw [Use.symbols, Use.standIns, List.append_nil, List.mem_singleton] at offered
        rw [offered]
        exact .root
    | ofAccess imported access =>
        rcases List.mem_append.mp offered with inside | standing
        · have nested := nestedSymbols_nested inside
          simp [Symbol.isTopLevel, top] at nested
        · obtain ⟨owner, unknown, rfl⟩ := List.mem_map.mp standing
          exact .owner (Option.mem_toList.mp (List.mem_filter.mp unknown).1)

theorem mem_symbols_foldl_apply {uses : List Use} (top : symbol.parentPath = none)
    (membership : symbol ∈ (uses.foldl (Use.apply settings) package).symbols) :
    symbol ∈ package.symbols ∨ ∃ use ∈ uses, use.AddsToTopLevel settings symbol := by
  induction uses generalizing package with
  | nil => exact .inl membership
  | cons use rest inductionHypothesis =>
      rcases inductionHypothesis membership with before | ⟨later, listed, adds⟩
      · rcases mem_symbols_apply top before with earlier | adds
        · exact .inl earlier
        · exact .inr ⟨use, List.mem_cons_self, adds⟩
      · exact .inr ⟨later, List.mem_cons_of_mem use listed, adds⟩

theorem subset_symbols_apply (use : Use) :
    package.symbols ⊆ (use.apply settings package).symbols := by
  rw [apply_eq]
  exact subset_appendAllNew Symbol.identity _ _

theorem subset_symbols_foldl_apply (uses : List Use) :
    package.symbols ⊆ (uses.foldl (Use.apply settings) package).symbols := by
  induction uses generalizing package with
  | nil => exact List.Subset.refl _
  | cons use rest inductionHypothesis =>
      exact List.Subset.trans (subset_symbols_apply use) inductionHypothesis

end TopLevel

section Knowledge

variable {settings : InferenceSettings} {package : Package} {identity : Symbol.Identity}

/-- A use forgets nothing and adds what it asks for. -/
theorem knows_apply {use : Use}
    (asked : package.Knows identity ∨ identity ∈ (use.symbols settings).map Symbol.identity) :
    (use.apply settings package).Knows identity := by
  rw [apply_eq, Knows, mem_map_appendAllNew, List.map_append, List.mem_append]
  rcases asked with known | offered
  · exact .inl known
  · exact .inr (.inl offered)

theorem knows_foldl_apply {uses : List Use}
    (asked : package.Knows identity ∨
      ∃ use ∈ uses, identity ∈ (use.symbols settings).map Symbol.identity) :
    (uses.foldl (Use.apply settings) package).Knows identity := by
  induction uses generalizing package with
  | nil => simpa using asked
  | cons first rest inductionHypothesis =>
      apply inductionHypothesis
      rcases asked with known | ⟨use, membership, offered⟩
      · exact .inl (knows_apply (.inl known))
      · rcases List.mem_cons.mp membership with rfl | later
        · exact .inl (knows_apply (.inr offered))
        · exact .inr ⟨use, later, offered⟩

end Knowledge

theorem importedKind_mem (settings : InferenceSettings) (modulePath name : String) :
    importedKind settings modulePath name ∈
      [.classType, .interfaceType, .aliasType, .function] := by
  unfold importedKind
  split
  · split
    · decide
    · split <;> decide
  · split <;> decide

theorem importedKind_ne_namespaceScope (settings : InferenceSettings) (modulePath name : String) :
    importedKind settings modulePath name ≠ .namespaceScope := by
  intro different
  have listed := importedKind_mem settings modulePath name
  rw [different] at listed
  exact absurd listed (by decide)

section Placement

variable {settings : InferenceSettings} {modulePath owner : String} {uses : List Use}

theorem mem_imports_ofUses {imported : Import} :
    imported ∈ (ofUses settings modulePath uses).imports ↔ .ofImport imported ∈ uses := by
  rw [ofUses, foldl_apply_eq]
  simp only [List.nil_append, List.mem_flatMap]
  constructor
  · rintro ⟨use, listed, offered⟩
    cases use with
    | ofImport other =>
        rw [Use.imports, List.mem_singleton] at offered
        rwa [offered]
    | ofAccess other access => simp [Use.imports] at offered
  · intro listed
    exact ⟨_, listed, by simp [Use.imports]⟩

theorem mem_imports_of_mem_resolved {summaries : List SourceSummary} {package : Package}
    (built : package = ofUses settings modulePath (Package.uses modulePath summaries))
    {use : Import × Access} (membership : use ∈ resolved modulePath summaries) :
    use.1 ∈ package.imports := by
  obtain ⟨summary, listed, inFile⟩ := List.mem_flatMap.mp membership
  obtain ⟨-, bound, same⟩ := mem_resolvedIn.mp inFile
  rw [built, mem_imports_ofUses]
  refine List.mem_flatMap.mpr ⟨summary, listed, List.mem_append_left _ (List.mem_map.mpr ?_)⟩
  exact ⟨use.1, List.mem_filter.mpr ⟨mem_of_binding? bound, beq_iff_eq.mpr same⟩, rfl⟩

theorem knows_rootSymbol {imported : Import}
    (listed : imported ∈ (ofUses settings modulePath uses).imports) :
    (ofUses settings modulePath uses).Knows (rootSymbol settings imported).identity := by
  apply knows_foldl_apply
  exact .inr ⟨_, mem_imports_ofUses.mp listed, by simp [Use.symbols]⟩

theorem isImportedOwner_iff {package : Package} :
    package.isImportedOwner owner = true ↔ ∃ symbol ∈ package.symbols,
      symbol.parentPath = none ∧ symbol.name = owner ∧ symbol.kind ≠ .namespaceScope ∧
        symbol.signature.isSome = true := by
  simp only [isImportedOwner, topLevel, List.any_eq_true, List.mem_filter, Symbol.isTopLevel,
    Option.isNone_iff_eq_none, Bool.and_eq_true, beq_iff_eq, bne_iff_ne, and_assoc]

theorem exists_use_of_topLevel {symbol : Symbol}
    (membership : symbol ∈ (ofUses settings modulePath uses).symbols)
    (top : symbol.parentPath = none) : ∃ use ∈ uses, use.AddsToTopLevel settings symbol := by
  rcases mem_symbols_foldl_apply top membership with before | added
  · simp at before
  · exact added

/-- Every symbol is that of an import, stands in for the class of a static call, or is called for
below the root of an import. -/
theorem origin_of_mem_symbols {summaries : List SourceSummary} {symbol : Symbol}
    (membership : symbol ∈
      (ofUses settings modulePath (Package.uses modulePath summaries)).symbols) :
    (∃ imported ∈ (ofUses settings modulePath (Package.uses modulePath summaries)).imports,
      symbol = rootSymbol settings imported) ∨
    (∃ use ∈ resolved modulePath summaries, ∃ owner, staticOwner? use.2 = some owner ∧
      symbol = standIn owner) ∨
    ∃ use ∈ resolved modulePath summaries, symbol ∈ nestedSymbols use.1 use.2 := by
  cases inside : symbol.parentPath with
  | none =>
      obtain ⟨use, listed, adds⟩ := exists_use_of_topLevel membership inside
      cases adds with
      | root => exact .inl ⟨_, mem_imports_ofUses.mpr listed, rfl⟩
      | owner static => exact .inr (.inl ⟨_, ofAccess_mem_uses.mp listed, _, static, rfl⟩)
  | some parent =>
      have nested : symbol ∈
          (ofUses settings modulePath (Package.uses modulePath summaries)).nested :=
        List.mem_filter.mpr ⟨membership, by simp [Symbol.isTopLevel, inside]⟩
      rw [nested_ofUses] at nested
      rcases mem_of_mem_appendAllNew Symbol.identity nested with before | offered
      · simp at before
      · exact .inr (.inr (List.mem_flatMap.mp offered))

theorem isImportedOwner_eq_false
    (unnamed : ∀ imported ∈ (ofUses settings modulePath uses).imports,
      imported.isWildcard = true ∨ imported.importedName ≠ owner) :
    (ofUses settings modulePath uses).isImportedOwner owner = false := by
  rw [Bool.eq_false_iff, ne_eq, isImportedOwner_iff]
  rintro ⟨symbol, membership, top, named, kind, signed⟩
  obtain ⟨use, listed, adds⟩ := exists_use_of_topLevel membership top
  cases adds with
  | @root imported =>
      rcases unnamed imported (mem_imports_ofUses.mpr listed) with wildcard | other
      · simp [rootSymbol, wildcard] at kind
      · by_cases wildcard : imported.isWildcard = true
        · simp [rootSymbol, wildcard] at kind
        · simp [rootSymbol, Import.rootName, wildcard, other] at named
  | owner static => simp [standIn] at signed

/-- An import of an owner by its name makes it an imported one, unless it is an interface that
a static call stands in for. -/
theorem isImportedOwner_of_import {before after : List Use} {imported : Import}
    (order : uses = before ++ .ofImport imported :: after)
    (named : imported.isWildcard = false ∧ imported.importedName = owner)
    (noStandIn : importedKind settings imported.modulePath owner ≠ .interfaceType ∨
      ∀ bound access, .ofAccess bound access ∈ before → staticOwner? access ≠ some owner) :
    (ofUses settings modulePath uses).isImportedOwner owner = true := by
  have rootName : imported.rootName = owner := by
    simp [Import.rootName, named.1, named.2]
  have known : ((Use.ofImport imported).apply settings
      (ofUses settings modulePath before)).Knows (rootSymbol settings imported).identity :=
    knows_apply (.inr (by simp [Use.symbols]))
  rw [identity_rootSymbol, rootName] at known
  obtain ⟨symbol, membership, sameName, sameKind, top⟩ := knows_iff.mp known
  simp only [rootSymbol, named.1, rootName, Bool.false_eq_true, if_false] at sameKind
  rw [isImportedOwner_iff]
  refine ⟨symbol, ?_, top, sameName, ?_, ?_⟩
  · rw [order, ofUses, List.foldl_append, List.foldl_cons]
    exact subset_symbols_foldl_apply after membership
  · rw [sameKind]
    exact importedKind_ne_namespaceScope settings _ _
  · rcases mem_symbols_apply top membership with earlier | adds
    · obtain ⟨use, listed, adds⟩ := exists_use_of_topLevel earlier top
      cases adds with
      | root => rfl
      | owner static =>
          rcases noStandIn with kind | absent
          · exact absurd sameKind.symm kind
          · exact absurd (sameName ▸ static) (absent _ _ listed)
    · cases adds
      rfl

theorem mem_flattenedRoots_ofUses {name : String} :
    name ∈ (ofUses settings modulePath uses).flattenedRoots ↔
      ∃ imported ∈ (ofUses settings modulePath uses).imports,
        imported.isWildcard = true ∧ imported.rootName = name := by
  simp only [flattenedRoots, topLevel, List.mem_map, List.mem_filter, Symbol.isTopLevel,
    Option.isNone_iff_eq_none, beq_iff_eq]
  constructor
  · rintro ⟨symbol, ⟨⟨membership, top⟩, kind⟩, named⟩
    obtain ⟨use, listed, adds⟩ := exists_use_of_topLevel membership top
    cases adds with
    | @root imported =>
        refine ⟨imported, mem_imports_ofUses.mpr listed, ?_, named⟩
        by_cases wildcard : imported.isWildcard = true
        · exact wildcard
        · simp only [rootSymbol, wildcard] at kind
          exact absurd kind (importedKind_ne_namespaceScope settings _ _)
    | owner static => simp [standIn] at kind
  · rintro ⟨imported, listed, wildcard, rfl⟩
    have known := knows_rootSymbol listed
    rw [identity_rootSymbol] at known
    obtain ⟨symbol, membership, sameName, sameKind, top⟩ := knows_iff.mp known
    simp only [rootSymbol, wildcard, if_true] at sameKind
    exact ⟨symbol, ⟨⟨membership, top⟩, sameKind⟩, sameName⟩

end Placement

section FirstCall

variable {settings : InferenceSettings}

theorem observedMethod?_of_staticOwner? {imported : Import} {access : Access} {owner : String}
    (static : staticOwner? access = some owner) :
    observedMethod? settings imported access =
      some (inferredMethod settings true owner access.member
        (dotted (imported.rootName :: membersOf access))) := by
  unfold staticOwner? at static
  split at static
  · next call =>
      rcases eq_nil_or_singleton_or_append_pair (membersOf access) with
          shape | ⟨only, shape⟩ | ⟨way, secondLast, last, shape⟩
      · simp [shape] at call
      · simp [shape] at call
      · simp [observedMethod?, shape, call.1, static]
  · contradiction

theorem staticOwner?_of_observedMethod? {imported : Import} {access : Access} {method : Method}
    (found : observedMethod? settings imported access = some method)
    (static : method.isStatic = true) : staticOwner? access = some method.owner := by
  obtain ⟨way, owner, member, shape, ⟨className, call, named, rfl⟩ | ⟨-, rfl⟩⟩ :=
    observedMethod?_eq_some found
  · simp [staticOwner?, call, shape, named, inferredMethod]
  · simp [inferredMethod] at static

def firstCallOn (modulePath owner : String) (summaries : List SourceSummary) :
    Option (Import × Access) :=
  (resolved modulePath summaries).find? fun use => staticOwner? use.2 == some owner

theorem find?_flatMap_observedMethod? (owner : String) (uses : List (Import × Access)) :
    (uses.flatMap fun use => (observedMethod? settings use.1 use.2).toList).find?
        (fun method => method.owner == owner && method.isStatic) =
      (uses.find? fun use => staticOwner? use.2 == some owner).bind fun use =>
        observedMethod? settings use.1 use.2 := by
  induction uses with
  | nil => rfl
  | cons use rest inductionHypothesis =>
      rw [List.flatMap_cons, List.find?_append, inductionHypothesis, List.find?_cons]
      by_cases static : staticOwner? use.2 = some owner
      · simp [static, observedMethod?_of_staticOwner? static, inferredMethod]
      · have notFound : (observedMethod? settings use.1 use.2).toList.find?
            (fun method => method.owner == owner && method.isStatic) = none := by
          rw [List.find?_eq_none]
          intro method membership passed
          rw [Option.mem_toList] at membership
          rw [Bool.and_eq_true, beq_iff_eq] at passed
          exact static (passed.1 ▸ staticOwner?_of_observedMethod? membership passed.2)
        have other : (staticOwner? use.2 == some owner) = false := by simpa using static
        rw [notFound, Option.none_or, other]

/-- The first static method of an owner is that of the first static call on it. -/
theorem find?_methodsOf (modulePath owner : String) (summaries : List SourceSummary) :
    ((ofUses settings modulePath (uses modulePath summaries)).methodsOf owner).find? (·.isStatic) =
      (firstCallOn modulePath owner summaries).bind fun use =>
        observedMethod? settings use.1 use.2 := by
  have seesIdentity : ∀ first second : Method, first.identity = second.identity →
      (first.owner == owner && first.isStatic) = (second.owner == owner && second.isStatic) := by
    intro first second same
    simp only [Method.identity, Method.Identity.mk.injEq] at same
    rw [same.2.1, same.2.2]
  have combined : ∀ methods : List Method, (methods.filter (·.owner == owner)).find? (·.isStatic) =
      methods.find? fun method => method.owner == owner && method.isStatic := by
    intro methods
    rw [List.find?_filter]
    congr 1
    funext method
    rw [Bool.decide_and, Bool.decide_eq_true, Bool.decide_eq_true]
  rw [methodsOf, combined, methods_ofUses, find?_appendAllNew Method.identity seesIdentity,
    List.find?_nil, Option.none_or, find?_flatMap_observedMethod?, firstCallOn]

end FirstCall

end AmbientStubs.Package
