import AmbientStubs.Proofs.Declaration.Scopes
import AmbientStubs.Proofs.Package.Exactness
import AmbientStubs.Proofs.Package.MethodBodies

/-!
Merged declarations.  A class and a namespace block of one name are one declaration to a reader of
the text, so a static method of the class clashes with a member of the block that has its name.
The methods and the members come from different uses, and nothing keeps their names apart: they
clash exactly if a static call on a class and another use of the same path were both observed.
-/

namespace AmbientStubs

open Text

/-- Whether some scope of a text has a class and a namespace block of one name that both declare
another name: the class by a static method, and the block directly inside. -/
def Outline.Clashes (items : List Outline) : Prop :=
  ∃ path scope owner name, ScopeAt items path scope ∧ DeclaresStatic scope owner name ∧
    ∃ head inner, .block head inner ∈ scope ∧ declared? head = some ("namespace", owner) ∧
      ∃ item ∈ inner, ∃ keyword, declared? item.head = some (keyword, name)

namespace Declaration

theorem exists_classBody_of_outline {depth : Nat} {declaration : Declaration}
    {head owner : String} {inner : List Outline} (legible : declaration.Legible)
    (same : outline depth declaration = .block head inner)
    (named : Outline.declared? head = some ("class", owner)) :
    ∃ methods, declaration = .classBody owner methods ∧
      inner = methods.map fun method =>
        .line (indentation (depth + 1) ++ method.signature ++ ";") := by
  have shown := declared?_outline depth legible.isIdentifier_name
  rw [same, Outline.head, named, Option.some.injEq, Prod.mk.injEq] at shown
  cases declaration with
  | classBody name methods =>
      obtain rfl : owner = name := shown.2
      rw [outline, bodyOutline] at same
      split at same
      · contradiction
      · exact ⟨methods, rfl, (Outline.block.inj same).2.symm⟩
  | interfaceBody _ _ | enumeration _ | typeAlias _ _ | function _ _ | constant _ _
  | namespaceBlock _ _ => simp [keyword] at shown

theorem static_of_content {method : Method} (legible : method.Legible) {depth : Nat}
    {name : String} (identifier : IsIdentifier name) {rest : List Char}
    (shown : Outline.content (indentation depth ++ method.signature ++ ";") =
      "static ".toList ++ (name.toList ++ '(' :: rest)) :
    method.isStatic = true ∧ method.name = name := by
  have line : (method.signature ++ ";").toList =
      "static ".toList ++ (name.toList ++ '(' :: rest) := by
    rw [← content_methodLine legible.name depth, shown]
  have static : method.isStatic = true := by
    apply Package.isStatic_of_startsWith legible
    rw [startsWith, List.isPrefixOf_iff_prefix, line]
    exact List.prefix_append _ _
  obtain ⟨more, content⟩ := content_method legible.name depth
  rw [static, if_pos rfl, shown] at content
  have same := eq_of_append_eq_append identifier legible.name (by decide) (by decide)
    (List.append_cancel_left content)
  exact ⟨static, same.1.symm⟩

end Declaration

theorem DeclarationFile.exists_static_of_declaresStatic {file : DeclarationFile}
    (legible : file.Legible) {path : List String} {found : List Outline}
    (reached : Outline.ScopeAt file.outlines path found) {owner name : String}
    (declared : Outline.DeclaresStatic found owner name) (identifier : IsIdentifier name) :
    ∃ scope, Declaration.ScopeAt file.declarations path scope ∧
      ∃ methods, .classBody owner methods ∈ scope ∧
        ∃ method ∈ methods, method.isStatic = true ∧ method.name = name := by
  obtain ⟨head, inner, block, named, line, rest, inBody, content⟩ := declared
  obtain ⟨scope, inScope, declares⟩ := exists_declarations_of_outlines legible reached
  obtain ⟨body, listed, readable, same, -, -⟩ := declares _ block _ _ named
  obtain ⟨methods, rfl, rfl⟩ := Declaration.exists_classBody_of_outline readable same.symm named
  obtain ⟨method, inMethods, sameLine⟩ := List.mem_map.mp inBody
  obtain rfl := Outline.line.inj sameLine
  rw [Declaration.Legible] at readable
  exact ⟨scope, inScope, methods, listed, method, inMethods,
    Declaration.static_of_content (readable.2 method inMethods) identifier content⟩

namespace Package

variable {package : Package}

/-- Whether a static method of an owner has the name of a member of a path, where the blocks of the
path are those of the owner. -/
def SharesMember (package : Package) : Prop :=
  ∃ owner blocks path, package.PlacedIn owner blocks ∧
    package.IsBlockPath path (blocks ++ [owner]) ∧
    ∃ method ∈ package.methodsOf owner, method.isStatic = true ∧
      package.HasMember path method.name

theorem Legible.sharesMember_of_clashes (legible : package.Legible)
    (clashes : Outline.Clashes package.declarationFile.outlines) : package.SharesMember := by
  obtain ⟨blocks, found, owner, name, reached, static, head, inner, block, named, item, inside,
    keyword, declared⟩ := clashes
  have laidOut := laidOut_moduleDeclarations legible
  obtain ⟨members, inMembers, declares⟩ :=
    DeclarationFile.exists_declarations_of_outlines legible.declarationFile
      (reached.concat block named)
  obtain ⟨member, listed, readable, -, -, rfl⟩ := declares item inside _ _ declared
  obtain ⟨path, stands, hasMember⟩ :=
    (laidOut.scopeAt legible inMembers).exists_path_of_mem (by simp) listed
  obtain ⟨scope, inScope, methods, body, method, inMethods, isStatic, sameName⟩ :=
    DeclarationFile.exists_static_of_declaresStatic legible.declarationFile reached static
      readable.isIdentifier_name
  obtain ⟨rfl, placed⟩ :=
    (laidOut.scopeAt legible inScope).classBody body (List.ne_nil_of_mem inMethods)
  refine ⟨owner, blocks, path, placed, stands, method, inMethods, isStatic, ?_⟩
  rw [sameName]
  exact hasMember

/-- Whether the uses of a package mix: one calls a static method of an owner, and another calls for
a symbol of the same name inside a path whose blocks are those of the owner, or the first call on a
class of that name was observed there. -/
def MixesUses (package : Package) (modulePath : String) (summaries : List SourceSummary) : Prop :=
  ∃ owner name blocks path,
    (∃ call ∈ resolved modulePath summaries,
      CallsForMethod call.2 (usePath call.1 call.2) ⟨name, owner, true⟩) ∧
    package.PlacedIn owner blocks ∧ package.IsBlockPath path (blocks ++ [owner]) ∧
    ((∃ use ∈ resolved modulePath summaries, ∃ kind,
        CallsForSymbol use.2 (usePath use.1 use.2) ⟨name, kind, some path⟩) ∨
      package.placement name = .relocated path)

section Collected

variable {settings : InferenceSettings} {modulePath : String} {summaries : List SourceSummary}
  (built : package = ofUses settings modulePath (uses modulePath summaries))

include built

theorem exists_use_of_inside {symbol : Symbol} {path : String}
    (present : symbol ∈ package.symbols) (inside : symbol.parentPath = some path) :
    ∃ use ∈ resolved modulePath summaries, symbol ∈ nestedSymbols use.1 use.2 := by
  rw [built] at present
  rcases origin_of_mem_symbols present with
    ⟨imported, -, rfl⟩ | ⟨use, -, owner, -, rfl⟩ | nested
  · simp [rootSymbol] at inside
  · simp [standIn] at inside
  · exact nested

theorem exists_leads_of_hasMember (readable : ∀ summary ∈ summaries, summary.Legible)
    {path name : String} (member : package.HasMember path name) :
    ∃ root way, segments path = root :: way ∧ package.Leads root way path := by
  have occupied := member.isOccupied
  rcases member with ⟨symbol, present, inside, -⟩ | relocated
  · obtain ⟨use, membership, nested⟩ := exists_use_of_inside built present inside
    obtain ⟨way, onTheWay, parent, constants⟩ := exists_way_of_mem_nestedSymbols nested
    obtain rfl : path = dotted (use.1.rootName :: way) := by
      rw [inside] at parent
      exact Option.some.inj parent
    refine ⟨use.1.rootName, way, segments_below_root readable membership onTheWay, ?_⟩
    apply leads_of_constantsBelow _ occupied
    intro constant below
    rw [built]
    exact knows_of_mem_resolved settings membership constant
      (List.mem_cons_of_mem _ (constants below))
  · obtain ⟨-, placed⟩ := mem_relocations.mp relocated
    obtain ⟨imported, -, way, split, leads⟩ := exists_leads_of_relocated built readable placed
    exact ⟨imported.rootName, way, split, leads⟩

section Reached

variable (readable : ∀ summary ∈ summaries, summary.Legible) {blocks : List String}

include readable

theorem exists_classBody_of_isBlockPath {owner container : String}
    (placed : package.placement owner = .relocated container)
    (stands : package.IsBlockPath container blocks) :
    ∃ scope, Declaration.ScopeAt package.moduleDeclarations blocks scope ∧
      .classBody owner (package.methodsOf owner) ∈ scope := by
  obtain ⟨listed, hasStatic⟩ := static_of_relocated placed
  have relocated : ⟨owner, container⟩ ∈ package.relocations :=
    mem_relocations.mpr ⟨listed, placed⟩
  obtain ⟨imported, -, way, split, leads⟩ := exists_leads_of_relocated built readable placed
  obtain ⟨levels, level, entries, owners, reached, serves⟩ :=
    leads.exists_scopeAt_of_isBlockPath split (.inr ⟨owner, relocated⟩) stands
  obtain ⟨hosted, entry⟩ := serves.hosted owner relocated
  exact ⟨_, reached, classBody_mem_scopeDeclarations levels level hosted entry hasStatic⟩

/-- An owner with a static method has its class wherever it is placed. -/
theorem exists_classBody_of_placedIn {owner : String} {method : Method}
    (ofOwner : method ∈ package.methodsOf owner) (static : method.isStatic = true)
    (placed : package.PlacedIn owner blocks) :
    ∃ scope, Declaration.ScopeAt package.moduleDeclarations blocks scope ∧
      .classBody owner (package.methodsOf owner) ∈ scope := by
  unfold PlacedIn at placed
  split at placed
  · next atModuleLevel =>
      subst placed
      obtain ⟨listed, named⟩ := List.mem_filter.mp ofOwner
      exact ⟨_, .here, classBody_mem_moduleDeclarations
        (mem_methodOwners.mpr ⟨method, listed, beq_iff_eq.mp named⟩) atModuleLevel
        (List.any_eq_true.mpr ⟨method, ofOwner, static⟩)⟩
  · next container relocated =>
      exact exists_classBody_of_isBlockPath built readable relocated placed

/-- A member of a path is declared wherever the blocks stand for that path. -/
theorem exists_declaration_of_hasMember {path name : String}
    (member : package.HasMember path name) (stands : package.IsBlockPath path blocks) :
    ∃ scope, Declaration.ScopeAt package.moduleDeclarations blocks scope ∧
      ∃ declaration ∈ scope, declaration.name = name := by
  have occupied := member.isOccupied
  obtain ⟨root, way, split, leads⟩ := exists_leads_of_hasMember built readable member
  rcases member with ⟨symbol, present, inside, rfl⟩ | relocated
  · obtain ⟨levels, level, entries, owners, reached, serves⟩ :=
      leads.exists_scopeAt_of_isBlockPath split occupied stands
    have value : symbol.kind ∈ [.classType, .function, .constant] := by
      obtain ⟨use, -, nested⟩ := exists_use_of_inside built present inside
      obtain ⟨_, _, _, -, rfl | rfl⟩ := mem_nestedSymbols nested
      · simp
      · exact memberKind_mem use.2.context
    obtain ⟨declaration, declared, -, named⟩ := exists_value_of_filed
      (serves.symbols symbol present inside) value package.relocations levels level owners
    exact ⟨_, reached, declaration, declared, named⟩
  · obtain ⟨scope, reached, body⟩ := exists_classBody_of_isBlockPath built readable
      (mem_relocations.mp relocated).2 stands
    exact ⟨scope, reached, _, body, rfl⟩

theorem clashes_of_sharesMember (legible : package.Legible) (shares : package.SharesMember) :
    Outline.Clashes package.declarationFile.outlines := by
  obtain ⟨owner, blocks, path, placed, stands, method, ofOwner, static, member⟩ := shares
  obtain ⟨scope, reached, body⟩ :=
    exists_classBody_of_placedIn built readable ofOwner static placed
  obtain ⟨members, inside, declaration, declared, named⟩ :=
    exists_declaration_of_hasMember built readable member stands
  obtain ⟨other, otherReached, block⟩ := inside.exists_block
  obtain rfl := (laidOut_moduleDeclarations legible).scopeAt_unique legible reached otherReached
  obtain ⟨found, inText, shown⟩ := legible.exists_scopeAt reached
  obtain ⟨blockShown, blockNamed⟩ := shown _ block
  have allLegible := reached.allLegible legible.declarationFile.declarations
  have readableBlock := Declaration.allLegible_iff.mp allLegible _ block
  rw [Declaration.Legible, Declaration.allLegible_iff] at readableBlock
  rw [Declaration.outline] at blockShown blockNamed
  refine ⟨blocks, found, owner, method.name, inText,
    Declaration.declaresStatic_of_mem (shown _ body).1 (shown _ body).2 ofOwner static
      (legible.methodsOf owner method ofOwner).name, _, _, blockShown, blockNamed,
    Declaration.outline (blocks.length + 1) declaration, ?_, declaration.keyword, ?_⟩
  · rw [Declaration.outlines_eq_map]
    exact List.mem_map_of_mem declared
  · rw [Declaration.declared?_outline _ (readableBlock.2 declaration declared).isIdentifier_name,
      named]

end Reached

theorem knows_inside_iff {name path : String} {kind : SymbolKind} :
    package.Knows ⟨name, kind, some path⟩ ↔ ∃ use ∈ resolved modulePath summaries,
      CallsForSymbol use.2 (usePath use.1 use.2) ⟨name, kind, some path⟩ := by
  rw [built, Knows, ← mem_map_nested_iff rfl, nested_ofUses, mem_map_appendAllNew]
  simp only [List.map_nil, List.not_mem_nil, false_or, List.map_flatMap, List.mem_flatMap,
    mem_map_nestedSymbols]

theorem mem_methods_iff {identity : Method.Identity} :
    identity ∈ package.methods.map Method.identity ↔ ∃ use ∈ resolved modulePath summaries,
      CallsForMethod use.2 (usePath use.1 use.2) identity := by
  rw [built, methods_ofUses, mem_map_appendAllNew]
  simp only [List.map_nil, List.not_mem_nil, false_or, List.map_flatMap, List.mem_flatMap,
    mem_map_observedMethod?]

theorem hasMember_iff {path name : String} :
    package.HasMember path name ↔
      (∃ use ∈ resolved modulePath summaries, ∃ kind,
        CallsForSymbol use.2 (usePath use.1 use.2) ⟨name, kind, some path⟩) ∨
      package.placement name = .relocated path := by
  constructor
  · rintro (⟨symbol, present, inside, rfl⟩ | relocated)
    · have known := knows_iff.mpr ⟨symbol, present, rfl, rfl, inside⟩
      obtain ⟨use, membership, calls⟩ := (knows_inside_iff built).mp known
      exact .inl ⟨use, membership, symbol.kind, calls⟩
    · exact .inr (mem_relocations.mp relocated).2
  · rintro (⟨use, membership, kind, calls⟩ | placed)
    · have known := (knows_inside_iff built).mpr ⟨use, membership, calls⟩
      obtain ⟨symbol, present, named, -, inside⟩ := knows_iff.mp known
      exact .inl ⟨symbol, present, inside, named⟩
    · exact .inr (mem_relocations.mpr ⟨(static_of_relocated placed).1, placed⟩)

theorem sharesMember_iff_mixesUses :
    package.SharesMember ↔ package.MixesUses modulePath summaries := by
  constructor
  · rintro ⟨owner, blocks, path, placed, stands, method, ofOwner, static, member⟩
    have known := exists_static_iff.mp ⟨method, ofOwner, static, rfl⟩
    exact ⟨owner, method.name, blocks, path, (mem_methods_iff built).mp known, placed, stands,
      (hasMember_iff built).mp member⟩
  · rintro ⟨owner, name, blocks, path, calls, placed, stands, member⟩
    obtain ⟨method, ofOwner, static, rfl⟩ :=
      exists_static_iff.mpr ((mem_methods_iff built).mpr calls)
    exact ⟨owner, blocks, path, placed, stands, method, ofOwner, static,
      (hasMember_iff built).mpr member⟩

end Collected

/-- In the text of a collected package a class and a namespace block of one name clash exactly if
the uses of the package mix a static call on the class with another use of the called name. -/
theorem merged_declarations_clash_exactly_on_mixed_uses (settings : Settings)
    (sources : List (String × String)) {modulePath : String}
    (found : (collect settings.inference (summariesOf settings sources)).get? modulePath =
      some package) :
    ∃ items, Outline.ofText? package.declarationText = some items ∧
      (Outline.Clashes items ↔ package.MixesUses modulePath (summariesOf settings sources)) := by
  have readable := legible_summariesOf settings sources
  have legible := legible_of_get?_collect readable found
  have built := eq_ofUses_of_get?_collect found
  refine ⟨_, legible.ofText?_declarationText, ?_⟩
  rw [← sharesMember_iff_mixesUses built]
  exact ⟨legible.sharesMember_of_clashes, clashes_of_sharesMember built readable legible⟩

def sizeText : String :=
  "import * as Lib from 'm';\nLib.Box.open();\nlet size = Lib.Box.size;"

def boxPackage (member : String) : Package :=
  ofUses {} "m" [.ofImport (.wholeModule "m" "Lib" false),
    .ofAccess (.wholeModule "m" "Lib" false)
      ⟨"Lib", "Lib.Box.open", "open", .staticCall, some "Box"⟩,
    .ofAccess (.wholeModule "m" "Lib" false)
      ⟨"Lib", "Lib.Box." ++ member, member, .propertyAccess, none⟩]

theorem get?_sizeText :
    (collect {} (summariesOf {} [("a.ets", sizeText)])).get? "m" = some (boxPackage "size") :=
  get?_collect_of_uses {} (by decide +kernel) (by decide)

theorem size_does_not_clash_with_open :
    ∃ package items,
      (collect {} (summariesOf {} [("a.ets", sizeText)])).get? "m" = some package ∧
      Outline.ofText? package.declarationText = some items ∧ ¬ Outline.Clashes items := by
  have built := eq_ofUses_of_get?_collect get?_sizeText
  obtain ⟨items, read, clashes⟩ :=
    merged_declarations_clash_exactly_on_mixed_uses {} [("a.ets", sizeText)] get?_sizeText
  refine ⟨_, items, get?_sizeText, read, ?_⟩
  rw [clashes]
  have onlyOpen : ∀ identity ∈ (boxPackage "size").methods.map Method.identity,
      identity.name = "open" := by
    decide +kernel
  have noOpen : ∀ identity ∈ (boxPackage "size").symbols.map Symbol.identity,
      identity.name ≠ "open" := by
    decide +kernel
  rintro ⟨owner, name, blocks, path, calls, -, -, member⟩
  obtain rfl : name = "open" := onlyOpen _ ((mem_methods_iff built).mpr calls)
  rcases member with ⟨use, listed, kind, inside⟩ | relocated
  · exact noOpen _ ((knows_inside_iff built).mpr ⟨use, listed, inside⟩) rfl
  · have stays : (boxPackage "size").placement "open" = .moduleLevel := by decide +kernel
    exact absurd (stays.symm.trans relocated) (by simp)

/-- A static call on a class, and a use of the same name inside it. -/
def openText : String :=
  "import * as Lib from 'm';\nLib.Box.open();\nlet size = Lib.Box.open;"

theorem open_clashes_with_open :
    ∃ package items,
      (collect {} (summariesOf {} [("a.ets", openText)])).get? "m" = some package ∧
      Outline.ofText? package.declarationText = some items ∧ Outline.Clashes items := by
  have found :
      (collect {} (summariesOf {} [("a.ets", openText)])).get? "m" = some (boxPackage "open") :=
    get?_collect_of_uses {} (by decide +kernel) (by decide)
  have readable := legible_summariesOf {} [("a.ets", openText)]
  have legible := legible_of_get?_collect readable found
  refine ⟨_, _, found, legible.ofText?_declarationText, ?_⟩
  apply clashes_of_sharesMember (eq_ofUses_of_get?_collect found) readable legible
  have placed : (boxPackage "open").PlacedIn "Box" [] :=
    placedIn_nil_iff.mpr (by decide +kernel)
  obtain ⟨method, ofOwner, static, named⟩ :=
    exists_static_iff.mpr (by decide +kernel :
      ⟨"open", "Box", true⟩ ∈ (boxPackage "open").methods.map Method.identity)
  obtain ⟨symbol, present, sameName, -, inside⟩ :=
    knows_iff.mp (by decide +kernel :
      ⟨"open", .constant, some "Lib.Box"⟩ ∈ (boxPackage "open").symbols.map Symbol.identity)
  refine ⟨"Box", [], "Lib.Box", placed, .inl ⟨"Lib", by decide +kernel, by decide +kernel⟩,
    method, ofOwner, static, .inl ⟨symbol, present, inside, ?_⟩⟩
  rw [sameName, named]

end Package

end AmbientStubs
