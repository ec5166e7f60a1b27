import AmbientStubs.Proofs.Declaration.References
import AmbientStubs.Proofs.Declaration.Unambiguous
import AmbientStubs.Proofs.Package.MethodBodies

/-!
The text of a collected package refers only to what it declares: the name of the default export
is declared at the module level, the target of every re-exported class is found where it points
to, and a method returns its own class, a text or something unknown.
-/

namespace AmbientStubs.Package

open Text Convention Outline

/-- The keywords that declare what a default export may name. -/
def exportableKeywords : List String :=
  ["class", "interface", "function", "type"]

section Entries

variable {package : Package} {relocations : List Relocation} {owners : List String}
  {entry : Entry} {levels : Nat}

theorem mem_kinds_of_mem_effectiveKinds {atModuleLevel : Bool} {kind : SymbolKind}
    (listed : kind ∈ effectiveKinds relocations atModuleLevel entry) : kind ∈ entry.kinds := by
  unfold effectiveKinds at listed
  split at listed
  · exact (List.mem_filter.mp listed).1
  · exact listed

theorem typeDeclaration?_of_noEnum {kinds : List SymbolKind} {name : String}
    {methods : List Method} {declaration : Declaration} (noEnum : .enumType ∉ kinds)
    (found : typeDeclaration? kinds name methods = some declaration) :
    declaration.keyword ∈ exportableKeywords := by
  rcases typeDeclaration?_eq_some found with rfl | rfl | rfl | rfl
  · simp [Declaration.keyword, exportableKeywords]
  · simp [Declaration.keyword, exportableKeywords]
  · simp only [typeDeclaration?, List.contains_iff_mem, noEnum] at found
    split at found
    · simp at found
    · split at found
      · simp at found
      · simp at found
  · simp [Declaration.keyword, exportableKeywords]

theorem not_mem_of_typeDeclaration?_eq_none {kinds : List SymbolKind} {name : String}
    {methods : List Method} (untyped : typeDeclaration? kinds name methods = none) :
    .classType ∉ kinds ∧ .structType ∉ kinds ∧ .interfaceType ∉ kinds ∧ .enumType ∉ kinds ∧
      .aliasType ∉ kinds := by
  unfold typeDeclaration? at untyped
  split at untyped
  · contradiction
  · next noClass =>
      split at untyped
      · contradiction
      · next noInterface =>
          split at untyped
          · contradiction
          · next noEnum =>
              split at untyped
              · contradiction
              · next noAlias =>
                  simp only [Bool.or_eq_true, List.contains_iff_mem, not_or] at noClass noInterface
                  simp only [List.contains_iff_mem] at noEnum noAlias
                  exact ⟨noClass.1.1, noClass.1.2, noInterface.1, noEnum, noAlias⟩

theorem exists_exportable_in_group {kind : SymbolKind} (listed : kind ∈ entry.kinds)
    (exportable : kind ∈ [.classType, .interfaceType, .aliasType, .function])
    (noEnum : .enumType ∉ entry.kinds)
    (aliased : isRelocated relocations entry.name = true →
      ∃ target, package.aliasTarget? entry.name = some target) :
    ∃ declaration ∈ package.group relocations true owners entry levels,
      declaration.keyword ∈ exportableKeywords := by
  cases asType : package.typeOf relocations true owners entry with
  | some declaration =>
      refine ⟨declaration, mem_group.mpr (.inl (mem_plainDeclarations.mpr (.inl asType))), ?_⟩
      exact typeDeclaration?_of_noEnum
        (fun effective => noEnum (mem_kinds_of_mem_effectiveKinds effective)) asType
  | none =>
      obtain ⟨noClass, -, noInterface, -, noAlias⟩ := not_mem_of_typeDeclaration?_eq_none asType
      simp only [List.mem_cons, List.not_mem_nil, or_false] at exportable
      rcases exportable with rfl | rfl | rfl | rfl
      · exact absurd (mem_effectiveKinds listed (by decide)) noClass
      · -- An interface that does not count at the module level belongs to a relocated owner.
        have relocated : isRelocated relocations entry.name = true := by
          cases relocated : isRelocated relocations entry.name with
          | true => rfl
          | false => simp [effectiveKinds, relocated, listed] at noInterface
        obtain ⟨target, found⟩ := aliased relocated
        have asAlias : package.aliasOf relocations true owners entry =
            some (.typeAlias entry.name target) := by
          simp [aliasOf, asType, relocated, found]
        refine ⟨_, mem_group.mpr (.inl (mem_plainDeclarations.mpr (.inr (.inl asAlias)))), ?_⟩
        simp [Declaration.keyword, exportableKeywords]
      · exact absurd (mem_effectiveKinds listed (by decide)) noAlias
      · have callable : .function ∈ effectiveKinds relocations true entry :=
          mem_effectiveKinds listed (by decide)
        have asValue : package.valueOf relocations true owners entry =
            some (.function entry.name (entry.returnType.getD opaqueType)) := by
          simp [valueOf, asType, valueDeclaration?, callable]
        refine ⟨_, mem_group_of_valueOf asValue, ?_⟩
        simp [Declaration.keyword, exportableKeywords]

end Entries

section Aliases

variable {package : Package}

/-- A relocated owner has an alias, since its container is no root that stands for the whole
module. -/
theorem exists_aliasTarget?_of_relocated {owner container : String}
    (placed : package.placement owner = .relocated container) :
    ∃ target, package.aliasTarget? owner = some target := by
  have elsewhere := (placement_eq_relocated placed).2
  have seen : ∃ path, package.modulePathOf? container = some path := by
    unfold modulePathOf?
    cases split : segments container with
    | nil => exact ⟨_, rfl⟩
    | cons head rest =>
        by_cases flattened : head ∈ package.flattenedRoots
        · cases rest with
          | nil =>
              have whole := dotted_segments container
              rw [split, dotted_singleton] at whole
              exact absurd (whole ▸ flattened) elsewhere
          | cons next more => exact ⟨dotted (next :: more), by simp [flattened]⟩
        · exact ⟨container, by simp [flattened]⟩
  obtain ⟨path, seen⟩ := seen
  exact ⟨path ++ "." ++ owner, by simp [aliasTarget?, placed, seen]⟩

theorem exists_aliasTarget?_of_isRelocated {owner : String}
    (relocated : isRelocated package.relocations owner = true) :
    ∃ target, package.aliasTarget? owner = some target := by
  obtain ⟨relocation, listed, same⟩ := List.any_eq_true.mp relocated
  rw [← beq_iff_eq.mp same]
  exact exists_aliasTarget?_of_relocated (mem_relocations.mp listed).2

/-- An alias of a scope is the one for an unknown type or that of a relocated owner. -/
theorem LaysOutScope.typeAlias {relocations : List Relocation} {declarations : List Declaration}
    (laidOut : LaysOutScope package relocations declarations) {name target : String}
    (membership : .typeAlias name target ∈ declarations) :
    target = opaqueType ∨ package.aliasTarget? name = some target := by
  obtain ⟨levels, atModuleLevel, symbols, added, owners, rfl⟩ := laidOut
  cases levels with
  | zero => simp [scopeDeclarations] at membership
  | succ levels =>
      obtain ⟨entry, -, inGroup⟩ := mem_scopeDeclarations.mp membership
      rcases mem_group.mp inGroup with plain | block
      · rcases mem_plainDeclarations.mp plain with asType | asAlias | asValue
        · rcases typeDeclaration?_eq_some asType with same | same | same | same
          · contradiction
          · contradiction
          · contradiction
          · exact .inl (Declaration.typeAlias.inj same).2
        · obtain ⟨-, found, seen, same⟩ := aliasOf_eq_some asAlias
          obtain ⟨rfl, rfl⟩ := Declaration.typeAlias.inj same
          exact .inr seen
        · rcases valueDeclaration?_eq_some (valueOf_eq_some asValue).2 with same | ⟨⟨_, same, -⟩, -⟩
          · contradiction
          · contradiction
      · have same := (mem_blockOf.mp block).2
        contradiction

end Aliases

theorem methodShape_cases (endings : List String) (owner name : String) :
    (methodShape endings owner name).returnType ∈ ["unknown", "string", owner] ∧
      ∃ parameter, (methodShape endings owner name).parameters = [parameter] ∧
        ')' ∉ parameter.text.toList := by
  unfold methodShape
  split
  · split
    · exact ⟨by simp, _, rfl, by decide⟩
    · exact ⟨by simp, _, rfl, by decide⟩
  · split
    · exact ⟨by simp, _, rfl, by decide⟩
    · split
      · exact ⟨by simp [opaqueType], _, rfl, by decide⟩
      · split
        · exact ⟨by simp, _, rfl, by decide⟩
        · exact ⟨by simp [opaqueType], _, rfl, by decide⟩

section Collected

variable {settings : InferenceSettings} {modulePath : String} {summaries : List SourceSummary}
  {package : Package} (built : package = ofUses settings modulePath (uses modulePath summaries))

include built

theorem exists_classBody_of_aliasTarget? (readable : ∀ summary ∈ summaries, summary.Legible)
    {owner target : String} (plain : '.' ∉ owner.toList)
    (found : package.aliasTarget? owner = some target) :
    ∃ blocks scope, segments target = blocks ++ [owner] ∧
      Declaration.ScopeAt package.moduleDeclarations blocks scope ∧
      .classBody owner (package.methodsOf owner) ∈ scope := by
  unfold aliasTarget? at found
  cases placed : package.placement owner with
  | moduleLevel => simp [placed] at found
  | relocated container =>
      simp only [placed] at found
      obtain ⟨path, seen, rfl⟩ := Option.map_eq_some_iff.mp found
      obtain ⟨root, way, split, ⟨imported, imports, sameRoot⟩, below⟩ :=
        exists_classBody_of_relocated built readable placed
      rw [segments_append plain]
      unfold modulePathOf? at seen
      simp only [split] at seen
      by_cases flattened : root ∈ package.flattenedRoots
      · -- The root may stand for the whole module through an import other than that of the call.
        have whole := flattened
        rw [built, mem_flattenedRoots_ofUses, ← built] at whole
        obtain ⟨wholeModule, listed, wildcard, named⟩ := whole
        obtain ⟨scope, reached, body⟩ := below wholeModule listed named
        rw [scopePath, if_pos wildcard] at reached
        refine ⟨way, scope, ?_, reached, body⟩
        cases way with
        | nil => simp [flattened] at seen
        | cons next more =>
            have dropped : dotted (next :: more) = path := by simpa [flattened] using seen
            have plainWay : ∀ part ∈ next :: more, '.' ∉ part.toList := by
              intro part onTheWay
              apply not_mem_of_mem_segments
              rw [split]
              exact List.mem_cons_of_mem root onTheWay
            rw [← dropped, segments_dotted (by simp) plainWay]
      · have named : imported.isWildcard = false := by
          rw [Bool.eq_false_iff]
          intro wildcard
          apply flattened
          rw [built, mem_flattenedRoots_ofUses, ← built]
          exact ⟨imported, imports, wildcard, sameRoot⟩
        obtain ⟨scope, reached, body⟩ := below imported imports sameRoot
        have rootName : imported.importedName = root := by
          simpa [Import.rootName, named] using sameRoot
        rw [scopePath, named, rootName] at reached
        have whole : container = path := by simpa [flattened] using seen
        exact ⟨root :: way, scope, by rw [← whole, split], reached, body⟩

theorem kind_ne_enumType {symbol : Symbol} (membership : symbol ∈ package.symbols) :
    symbol.kind ≠ .enumType := by
  rw [built] at membership
  rcases origin_of_mem_symbols membership with
    ⟨imported, -, rfl⟩ | ⟨use, -, owner, -, rfl⟩ | ⟨use, -, nested⟩
  · cases wildcard : imported.isWildcard with
    | true => simp [rootSymbol, wildcard]
    | false =>
        intro different
        have listed := importedKind_mem settings imported.modulePath imported.rootName
        simp only [rootSymbol, wildcard, Bool.false_eq_true, if_false] at different
        rw [different] at listed
        exact absurd listed (by decide)
  · simp [standIn]
  · obtain ⟨before, name, after, -, rfl | rfl⟩ := mem_nestedSymbols nested
    · simp
    · intro different
      have listed := memberKind_mem use.2.context
      rw [show memberKind use.2.context = .enumType from different] at listed
      exact absurd listed (by decide)

/-- An imported name is declared at the module level. -/
theorem exists_exportable_of_import {imported : Import} (imports : imported ∈ package.imports)
    (named : imported.isWildcard = false) :
    ∃ declaration ∈ package.moduleDeclarations,
      declaration.keyword ∈ exportableKeywords ∧ declaration.name = imported.importedName := by
  have known : package.Knows (rootSymbol settings imported).identity := by
    rw [built] at imports ⊢
    exact knows_rootSymbol imports
  rw [identity_rootSymbol] at known
  obtain ⟨symbol, membership, sameName, sameKind, top⟩ := knows_iff.mp known
  have exportable : symbol.kind ∈ [.classType, .interfaceType, .aliasType, .function] := by
    rw [sameKind]
    simp only [rootSymbol, named, Bool.false_eq_true, if_false]
    exact importedKind_mem settings _ _
  have kind : symbol.kind ≠ .namespaceScope := by
    intro different
    rw [different] at exportable
    exact absurd exportable (by decide)
  obtain ⟨entry, listed, entryName, ofKind, -⟩ := filed_moduleEntries membership top kind
  have noEnum : .enumType ∉ entry.kinds := by
    intro enumerated
    obtain ⟨other, inModule, -, different⟩ := (Entry.exists_symbol_of_mem listed).2 _ enumerated
    exact kind_ne_enumType built (List.mem_filter.mp inModule).1 different
  obtain ⟨declaration, inGroup, keyword⟩ :
      ∃ declaration ∈ package.group package.relocations true package.moduleLevelOwners entry
        (package.longestParentPath + 2), declaration.keyword ∈ exportableKeywords :=
    exists_exportable_in_group ofKind exportable noEnum exists_aliasTarget?_of_isRelocated
  refine ⟨declaration, ?_, keyword, ?_⟩
  · exact mem_scopeDeclarations.mpr ⟨entry, listed, inGroup⟩
  · rw [name_of_mem_group inGroup, entryName, sameName, Import.rootName, named]
    rfl

theorem exists_inferredMethod {method : Method} (membership : method ∈ package.methods) :
    ∃ isStatic owner name qualifier,
      method = inferredMethod settings isStatic owner name qualifier := by
  rw [built, methods_ofUses] at membership
  rcases mem_of_mem_appendAllNew Method.identity membership with before | offered
  · simp at before
  · obtain ⟨use, -, observed⟩ := List.mem_flatMap.mp offered
    obtain ⟨way, owner, member, -, ⟨className, -, -, same⟩ | ⟨-, same⟩⟩ :=
      observedMethod?_eq_some (Option.mem_toList.mp observed)
    · exact ⟨_, _, _, _, same⟩
    · exact ⟨_, _, _, _, same⟩

theorem returnType?_of_mem_methods {method : Method} (legible : method.Legible)
    (membership : method ∈ package.methods) :
    ∃ type ∈ ["unknown", "string", method.owner],
      returnType? (method.signature ++ ";") = some type := by
  obtain ⟨isStatic, owner, name, qualifier, rfl⟩ := exists_inferredMethod built membership
  obtain ⟨type, parameter, parameters, plain⟩ :=
    methodShape_cases settings.collectionEndings owner name
  exact ⟨_, type, Method.returnType?_signature legible.name parameters plain⟩

end Collected

theorem exists_typeAlias_of_read {file : DeclarationFile} (legible : file.Legible)
    {path : List String} {items : List Outline} (reached : ScopeAt file.outlines path items)
    {item : Outline} (inScope : item ∈ items) {name : String} {parts : List String}
    (read : typeAlias? item.head = some (name, parts)) :
    ∃ scope target, Declaration.ScopeAt file.declarations path scope ∧
      .typeAlias name target ∈ scope ∧ IsIdentifier name ∧ segments target = parts := by
  obtain ⟨scope, inside, declares⟩ :=
    DeclarationFile.exists_declarations_of_outlines legible reached
  obtain ⟨declaration, member, readable, rfl, -⟩ :=
    declares item inScope "type" name (declared?_of_typeAlias? read)
  obtain ⟨target, rfl, split⟩ := Declaration.exists_typeAlias_of_typeAlias? readable read
  exact ⟨scope, target, inside, member, readable.isIdentifier_name, split⟩

/-- The text of a collected package refers only to what it declares.  The default export names a
class, interface, function or alias of the module level; an alias for a class inside nested
namespace blocks finds the class there; and a method returns its own class or interface, a
text or something unknown. -/
theorem declarations_refer_to_what_they_declare (settings : Settings)
    (sources : List (String × String)) {modulePath : String} {package : Package}
    (found : (collect settings.inference (summariesOf settings sources)).get? modulePath =
      some package) :
    ∃ items, Outline.ofText? package.declarationText = some items ∧
      (∀ imported, package.imports.find? (·.kind == .defaultExport) = some imported →
        .line ("export default " ++ imported.importedName ++ ";") ∈ items ∧
        ∃ item ∈ items, ∃ keyword ∈ ["class", "interface", "function", "type"],
          declared? item.head = some (keyword, imported.importedName)) ∧
      (∀ path scope, Outline.ScopeAt items path scope → ∀ item ∈ scope, ∀ name blocks,
        typeAlias? item.head = some (name, blocks ++ [name]) → blocks ≠ [] →
        ∃ inner, Outline.ScopeAt items blocks inner ∧
          ∃ target ∈ inner, declared? target.head = some ("class", name)) ∧
      (∀ body ∈ Outline.bodies [] items, ∀ line ∈ body.lines,
        ∃ type ∈ ["unknown", "string", body.name], returnType? line = some type) := by
  have readable := legible_summariesOf settings sources
  have legible := legible_of_get?_collect readable found
  have built := eq_ofUses_of_get?_collect found
  refine ⟨_, legible.ofText?_declarationText, ?_, ?_, ?_⟩
  · intro imported first
    have imports := List.mem_of_find?_eq_some first
    have kind := List.find?_some first
    rw [beq_iff_eq] at kind
    have named := (legible_of_mem_imports built readable imports).defaultExport kind
    obtain ⟨declaration, atModuleLevel, keyword, name⟩ :=
      exists_exportable_of_import built imports named
    obtain ⟨scope, reached, shown⟩ := legible.exists_scopeAt .here
    cases reached
    refine ⟨?_, _, (shown declaration atModuleLevel).1, declaration.keyword, keyword, ?_⟩
    · refine List.mem_append_right _ (List.mem_map.mpr ⟨_, List.mem_append_left _ ?_, rfl⟩)
      exact DeclarationFile.mem_closingLines (by simp [declarationFile, defaultExport?, first])
    · rw [(shown declaration atModuleLevel).2, name]
  · intro path scope reached item inScope name blocks read nonempty
    obtain ⟨declarations, target, inside, member, identifier, split⟩ :=
      exists_typeAlias_of_read legible.declarationFile reached inScope read
    have moduleLevel : LaysOutScope package package.relocations package.moduleDeclarations :=
      ⟨_, _, _, _, _, rfl⟩
    rcases (moduleLevel.scopeAt inside).typeAlias member with rfl | aliased
    · rw [segments_of_not_mem (by decide)] at split
      have short := congrArg List.length split
      have long := List.length_pos_iff.mpr nonempty
      simp only [List.length_append, List.length_singleton] at short
      omega
    · obtain ⟨way, declared, segments, reachedClass, body⟩ :=
        exists_classBody_of_aliasTarget? built readable (identifier.not_mem (by decide)) aliased
      rw [split] at segments
      rw [List.append_cancel_right segments]
      obtain ⟨inner, inText, shown⟩ := legible.exists_scopeAt reachedClass
      exact ⟨inner, inText, _, (shown _ body).1, (shown _ body).2⟩
  · intro body membership line inBody
    rw [DeclarationFile.bodies_outlines legible.declarationFile] at membership
    obtain ⟨-, shows, -⟩ := bodies_moduleDeclarations_placed legible membership
    rw [shows.lines] at inBody
    obtain ⟨method, ofOwner, rfl⟩ := List.mem_map.mp inBody
    obtain ⟨inPackage, owner⟩ := List.mem_filter.mp ofOwner
    rw [← beq_iff_eq.mp owner]
    exact returnType?_of_mem_methods built (legible.methods _ inPackage) inPackage

def vaultText : String :=
  "import Vault from 'm';\nVault.core.Key.create();"

theorem vault_refers_to_what_it_declares :
    ∃ package items,
      (collect {} (summariesOf {} [("a.ets", vaultText)])).get? "m" = some package ∧
      Outline.ofText? package.declarationText = some items ∧
      .line "export default Vault;" ∈ items ∧
      ∃ item ∈ items, ∃ keyword ∈ ["class", "interface", "function", "type"],
        declared? item.head = some (keyword, "Vault") := by
  have inOrder : uses "m" (summariesOf {} [("a.ets", vaultText)]) =
      [.ofImport (.defaultExport "m" "Vault" false),
        .ofAccess (.defaultExport "m" "Vault" false)
          ⟨"Vault", "Vault.core.Key.create", "create", .staticCall, some "Key"⟩] := by
    decide +kernel
  have found := get?_collect_of_uses {} inOrder (by decide)
  obtain ⟨items, read, exported, -, -⟩ :=
    declarations_refer_to_what_they_declare {} [("a.ets", vaultText)] found
  obtain ⟨line, declared⟩ := exported (.defaultExport "m" "Vault" false) (by decide +kernel)
  exact ⟨_, items, found, read, line, declared⟩

end AmbientStubs.Package
