import AmbientStubs.Proofs.Declaration.Levels
import AmbientStubs.Proofs.Declaration.Nesting
import AmbientStubs.Proofs.Package.MergedDeclarations
import AmbientStubs.Proofs.Package.References

/-!
The text of a collected package is properly nested.  Everything below the top level is a class, a
function or a constant, so a namespace block stands only where something is inside, and every entry
of a scope is declared by something; and whatever is below a root is declared at the module level or
below something that is.
-/

namespace AmbientStubs.Package

open Text Declaration

section Entries

variable {package : Package} {relocations : List Relocation} {atModuleLevel : Bool}
  {entries : List Entry} {owners : List String} {entry : Entry}

theorem plainDeclarations_ne_nil_of_kind {kind : SymbolKind}
    (noBlock : package.hasBlock relocations entry = false)
    (listed : kind ∈ effectiveKinds relocations atModuleLevel entry)
    (different : kind ≠ .namespaceScope) :
    package.plainDeclarations relocations atModuleLevel owners entry ≠ [] := by
  rw [plainDeclarations_eq]
  cases asType : package.typeOf relocations atModuleLevel owners entry with
  | some declaration => simp
  | none =>
      obtain ⟨noClass, noStruct, noInterface, noEnum, noAlias⟩ :=
        not_mem_of_typeDeclaration?_eq_none asType
      have found : ∃ declaration, package.valueOf relocations atModuleLevel owners entry =
          some declaration := by
        rw [valueOf, asType, noBlock, Option.any_none, if_neg Bool.false_ne_true, valueDeclaration?]
        cases kind with
        | classType => exact absurd listed noClass
        | structType => exact absurd listed noStruct
        | interfaceType => exact absurd listed noInterface
        | enumType => exact absurd listed noEnum
        | aliasType => exact absurd listed noAlias
        | namespaceScope => exact absurd rfl different
        | function => exact ⟨_, if_pos (List.contains_iff_mem.mpr listed)⟩
        | constant => split <;> simp [listed]
      obtain ⟨declaration, asValue⟩ := found
      simp [asValue]

theorem plainDeclarations_ne_nil_of_hosted (relocations : List Relocation) (atModuleLevel : Bool)
    (listed : entry.name ∈ package.methodOwners) (hosted : entry.name ∈ owners) :
    package.plainDeclarations relocations atModuleLevel owners entry ≠ [] := by
  obtain ⟨declaration, asType, -⟩ := typeOf_of_hosted relocations atModuleLevel listed hosted
  simp [plainDeclarations_eq, asType]

theorem plainDeclarations_ne_nil_of_relocated
    (relocated : isRelocated package.relocations entry.name = true) :
    package.plainDeclarations package.relocations true owners entry ≠ [] := by
  rw [plainDeclarations_eq]
  cases asType : package.typeOf package.relocations true owners entry with
  | some declaration => simp
  | none =>
      obtain ⟨target, found⟩ := exists_aliasTarget?_of_isRelocated relocated
      simp [aliasOf, asType, relocated, found]

theorem Entry.exists_kind_or_owner {symbols : List Symbol}
    (listed : entry ∈ Entry.withOwners (Entry.ofSymbols symbols) owners) :
    (∃ symbol ∈ symbols, symbol.kind ∈ entry.kinds) ∨ entry.name ∈ owners := by
  rcases Entry.name_of_mem_withOwners listed with ⟨symbol, member, named⟩ | owner
  · obtain ⟨found, foundListed, sameName, kind, -⟩ := Entry.filed_withOwners member owners
    obtain rfl : found = entry := List.inj_on_of_nodup_map (Entry.nodup_names symbols owners)
      foundListed listed (sameName.trans named)
    exact .inl ⟨symbol, member, kind⟩
  · exact .inr owner

/-- Entries that are declared, by something of their own or by a namespace block, and of which none
is a namespace for its own sake. -/
structure Declares (package : Package) (atModuleLevel : Bool) (owners : List String)
    (entries : List Entry) : Prop where
  declared : ∀ entry ∈ entries, package.hasBlock package.relocations entry = false →
    package.plainDeclarations package.relocations atModuleLevel owners entry ≠ []
  noNamespace : ∀ entry ∈ entries, .namespaceScope ∉ entry.kinds

def HasPlainMembers (package : Package) : Prop :=
  ∀ symbol ∈ package.symbols, symbol.isTopLevel = false → symbol.kind ≠ .namespaceScope

theorem not_mem_kinds {symbols : List Symbol}
    (plain : ∀ symbol ∈ symbols, symbol.kind ≠ .namespaceScope)
    (listed : entry ∈ Entry.withOwners (Entry.ofSymbols symbols) owners) :
    .namespaceScope ∉ entry.kinds := by
  intro namespaced
  obtain ⟨symbol, member, -, kind⟩ := (Entry.exists_symbol_of_mem listed).2 _ namespaced
  exact plain symbol member kind

theorem HasPlainMembers.declares_innerEntries (plain : package.HasPlainMembers) (entry : Entry) :
    package.Declares false (hostedIn package.relocations entry.paths)
      (package.innerEntries package.relocations entry) := by
  have noNamespace : ∀ symbol ∈ entry.paths.flatMap package.childrenOf,
      symbol.kind ≠ .namespaceScope := by
    intro symbol child
    obtain ⟨path, -, inside⟩ := List.mem_flatMap.mp child
    obtain ⟨present, parent⟩ := List.mem_filter.mp inside
    exact plain symbol present (by simp [Symbol.isTopLevel, beq_iff_eq.mp parent])
  refine ⟨fun inner listed noBlock => ?_, fun inner listed => not_mem_kinds noNamespace listed⟩
  rcases Entry.exists_kind_or_owner listed with ⟨symbol, member, kind⟩ | hosted
  · exact plainDeclarations_ne_nil_of_kind noBlock kind (noNamespace symbol member)
  · obtain ⟨_, -, relocated⟩ := mem_hostedIn.mp hosted
    exact plainDeclarations_ne_nil_of_hosted _ _ (mem_relocations.mp relocated).1 hosted

theorem kind_ne_of_mem_moduleSymbols (plain : package.HasPlainMembers) {symbol : Symbol}
    (member : symbol ∈ package.moduleSymbols) : symbol.kind ≠ .namespaceScope := by
  obtain ⟨present, atModuleLevel⟩ := List.mem_filter.mp member
  cases inside : symbol.parentPath with
  | none => simpa [inside] using atModuleLevel
  | some parent => exact plain symbol present (by simp [Symbol.isTopLevel, inside])

theorem mem_moduleLevelOwners {owner : String} (listed : owner ∈ package.methodOwners)
    (stays : isRelocated package.relocations owner = false) :
    owner ∈ package.moduleLevelOwners := by
  refine List.mem_filter.mpr ⟨listed, ?_⟩
  cases placed : package.placement owner with
  | moduleLevel => simp
  | relocated container =>
      have relocated : isRelocated package.relocations owner = true :=
        List.any_eq_true.mpr ⟨⟨owner, container⟩, mem_relocations.mpr ⟨listed, placed⟩, by simp⟩
      rw [relocated] at stays
      contradiction

theorem HasPlainMembers.declares_moduleEntries (plain : package.HasPlainMembers) :
    package.Declares true package.moduleLevelOwners package.moduleEntries := by
  have noNamespace : ∀ symbol ∈ package.moduleSymbols, symbol.kind ≠ .namespaceScope :=
    fun symbol => kind_ne_of_mem_moduleSymbols plain
  refine ⟨fun entry listed noBlock => ?_, fun entry listed => not_mem_kinds noNamespace listed⟩
  cases relocated : isRelocated package.relocations entry.name with
  | true => exact plainDeclarations_ne_nil_of_relocated relocated
  | false =>
      have effective : effectiveKinds package.relocations true entry = entry.kinds := by
        simp [effectiveKinds, relocated]
      rcases Entry.exists_kind_or_owner listed with ⟨symbol, member, kind⟩ | owner
      · exact plainDeclarations_ne_nil_of_kind noBlock (effective ▸ kind)
          (noNamespace symbol member)
      · exact plainDeclarations_ne_nil_of_hosted _ _ owner
          (mem_moduleLevelOwners owner relocated)

/-- A block has an entry inside unless it stands for a namespace alone. -/
theorem innerEntries_ne_nil (block : package.hasBlock relocations entry = true)
    (noNamespace : .namespaceScope ∉ entry.kinds) : package.innerEntries relocations entry ≠ [] := by
  simp only [hasBlock, Bool.or_eq_true, List.contains_iff_mem, noNamespace, false_or,
    List.any_eq_true, hasChildren_iff, Bool.not_eq_true', List.isEmpty_eq_false_iff] at block
  rcases block with ⟨path, known, symbol, present, parent⟩ | hosts
  · have child : symbol ∈ entry.paths.flatMap package.childrenOf :=
      List.mem_flatMap.mpr ⟨path, known, List.mem_filter.mpr ⟨present, by simp [parent]⟩⟩
    obtain ⟨inner, listed, -⟩ := Entry.filed_withOwners child (hostedIn relocations entry.paths)
    exact List.ne_nil_of_mem listed
  · obtain ⟨owner, hosted⟩ := List.exists_mem_of_ne_nil _ hosts
    obtain ⟨inner, listed, -⟩ := Entry.mem_names_withOwners hosted
    exact List.ne_nil_of_mem listed

end Entries

section Layout

variable {package : Package} {atModuleLevel : Bool} {entries : List Entry} {owners : List String}
  {declarations : List Declaration}

theorem Declares.tail {entry : Entry} {rest : List Entry}
    (declares : package.Declares atModuleLevel owners (entry :: rest)) :
    package.Declares atModuleLevel owners rest :=
  ⟨(List.forall_mem_cons.mp declares.declared).2, (List.forall_mem_cons.mp declares.noNamespace).2⟩

theorem LaysOut.ne_nil
    (laidOut : package.LaysOut package.relocations atModuleLevel entries owners declarations)
    (declares : package.Declares atModuleLevel owners entries) (nonempty : entries ≠ []) :
    declarations ≠ [] := by
  cases laidOut with
  | nil => exact absurd rfl nonempty
  | plain noBlock _ =>
      have first := declares.declared _ List.mem_cons_self noBlock
      exact List.append_ne_nil_of_left_ne_nil first _
  | block _ _ _ => simp

theorem filled_of_mem_plainDeclarations {relocations : List Relocation} {entry : Entry}
    {declaration : Declaration}
    (membership : declaration ∈
      package.plainDeclarations relocations atModuleLevel owners entry) :
    declaration.Filled := by
  cases declaration with
  | namespaceBlock name members => exact absurd membership not_mem_plainDeclarations
  | classBody _ _ | interfaceBody _ _ | enumeration _ | typeAlias _ _ | function _ _
  | constant _ _ =>
      rw [Filled]
      trivial

/-- No namespace block of a layout is empty. -/
theorem LaysOut.allFilled (plain : package.HasPlainMembers)
    (laidOut : package.LaysOut package.relocations atModuleLevel entries owners declarations)
    (declares : package.Declares atModuleLevel owners entries) : AllFilled declarations := by
  induction laidOut with
  | nil => rw [AllFilled]; trivial
  | plain _ _ inductionHypothesis =>
      have others := allFilled_iff.mp (inductionHypothesis declares.tail)
      exact allFilled_iff.mpr (List.forall_mem_append.mpr
        ⟨fun _ => filled_of_mem_plainDeclarations, others⟩)
  | @block _ _ entry rest members declarations block inside _ insideHypothesis othersHypothesis =>
      have others := allFilled_iff.mp (othersHypothesis declares.tail)
      have inner := plain.declares_innerEntries entry
      have nonempty : members ≠ [] := inside.ne_nil inner
        (innerEntries_ne_nil block (declares.noNamespace entry List.mem_cons_self))
      have filled : (namespaceBlock entry.name members).Filled := by
        rw [Filled]
        exact ⟨nonempty, insideHypothesis inner⟩
      exact allFilled_iff.mpr (List.forall_mem_append.mpr
        ⟨fun _ => filled_of_mem_plainDeclarations, List.forall_mem_cons.mpr ⟨filled, others⟩⟩)

theorem HasPlainMembers.allFilled (plain : package.HasPlainMembers) :
    AllFilled package.moduleDeclarations :=
  package.laysOut_moduleDeclarations.allFilled plain plain.declares_moduleEntries

theorem moduleEntries_eq_nil_iff :
    package.moduleEntries = [] ↔ package.moduleSymbols = [] ∧ package.methods = [] := by
  constructor
  · intro empty
    constructor
    · rw [List.eq_nil_iff_forall_not_mem]
      intro symbol member
      obtain ⟨entry, listed, -⟩ := Entry.filed_withOwners member package.methodOwners
      exact absurd empty (List.ne_nil_of_mem listed)
    · rw [List.eq_nil_iff_forall_not_mem]
      intro method member
      have named : ∃ entry ∈ package.moduleEntries, entry.name = method.owner :=
        Entry.mem_names_withOwners (mem_methodOwners.mpr ⟨method, member, rfl⟩)
      obtain ⟨entry, listed, -⟩ := named
      exact absurd empty (List.ne_nil_of_mem listed)
  · rintro ⟨noSymbol, noMethod⟩
    simp [moduleEntries, noSymbol, methodOwners, noMethod, Entry.ofSymbols, Entry.withOwners]

/-- Nothing is declared exactly if nothing stands at the module level and no method is known. -/
theorem HasPlainMembers.moduleDeclarations_eq_nil_iff (plain : package.HasPlainMembers) :
    package.moduleDeclarations = [] ↔ package.moduleSymbols = [] ∧ package.methods = [] := by
  rw [← moduleEntries_eq_nil_iff]
  constructor
  · intro empty
    apply Classical.byContradiction
    intro nonempty
    exact package.laysOut_moduleDeclarations.ne_nil plain.declares_moduleEntries nonempty empty
  · intro empty
    have laidOut := package.laysOut_moduleDeclarations
    rw [empty] at laidOut
    exact laidOut.unique .nil

end Layout

/-- A package that has nothing but names for the whole module. -/
def DeclaresNothing (package : Package) : Prop :=
  (∀ symbol ∈ package.symbols, symbol.isTopLevel = true ∧ symbol.kind = .namespaceScope) ∧
    package.methods = []

instance (package : Package) : Decidable package.DeclaresNothing :=
  inferInstanceAs (Decidable (_ ∧ _))

section Collected

variable {package : Package} {settings : InferenceSettings} {modulePath : String}
  {summaries : List SourceSummary}
  (built : package = ofUses settings modulePath (uses modulePath summaries))

include built

theorem hasPlainMembers_of_built : package.HasPlainMembers := by
  intro symbol present inside
  rw [Symbol.isTopLevel, Option.isNone_eq_false_iff, Option.isSome_iff_exists] at inside
  obtain ⟨path, parent⟩ := inside
  obtain ⟨use, -, nested⟩ := exists_use_of_inside built present parent
  obtain ⟨_, _, _, -, rfl | rfl⟩ := mem_nestedSymbols nested
  · simp
  · intro same
    have kind : Convention.memberKind use.2.context = .namespaceScope := same
    have listed := memberKind_mem use.2.context
    rw [kind] at listed
    exact absurd listed (by decide)

/-- Where something is below a root, something stands at the module level: the symbol of the root,
or what is directly inside a root that stands for the whole module. -/
theorem moduleSymbols_ne_nil_of_inside {symbol : Symbol} {path : String}
    (present : symbol ∈ package.symbols) (parent : symbol.parentPath = some path) :
    package.moduleSymbols ≠ [] := by
  obtain ⟨use, resolved, nested⟩ := exists_use_of_inside built present parent
  obtain ⟨way, -, above, constants⟩ := exists_way_of_mem_nestedSymbols nested
  have knows := knows_of_mem_resolved settings resolved
  rw [← built] at knows
  obtain ⟨known, below⟩ := List.forall_mem_cons.mp knows
  rw [identity_rootSymbol] at known
  obtain ⟨root, rootPresent, named, -, top⟩ := knows_iff.mp known
  by_cases whole : root.kind = .namespaceScope
  · have flattened : use.1.rootName ∈ package.flattenedRoots := by
      refine List.mem_map.mpr ⟨root, List.mem_filter.mpr ⟨?_, by simp [whole]⟩, named⟩
      exact List.mem_filter.mpr ⟨rootPresent, by simp [Symbol.isTopLevel, top]⟩
    have inside : ∃ child ∈ package.symbols, child.parentPath = some use.1.rootName := by
      cases way with
      | nil => exact ⟨symbol, present, above⟩
      | cons first more =>
          have constant := below _ (constants List.mem_cons_self)
          obtain ⟨child, childPresent, -, -, childParent⟩ := knows_iff.mp constant
          exact ⟨child, childPresent, childParent⟩
    obtain ⟨child, childPresent, childParent⟩ := inside
    exact List.ne_nil_of_mem
      (List.mem_filter.mpr ⟨childPresent, by simp [childParent, flattened]⟩)
  · exact List.ne_nil_of_mem (List.mem_filter.mpr ⟨rootPresent, by simp [top, whole]⟩)

theorem declaresNothing_iff :
    package.moduleDeclarations = [] ↔ package.DeclaresNothing := by
  rw [(hasPlainMembers_of_built built).moduleDeclarations_eq_nil_iff, DeclaresNothing]
  refine and_congr_left fun _ => ?_
  constructor
  · intro empty symbol present
    cases parent : symbol.parentPath with
    | some path => exact absurd empty (moduleSymbols_ne_nil_of_inside built present parent)
    | none =>
        have top : symbol.isTopLevel = true := by simp [Symbol.isTopLevel, parent]
        refine ⟨top, Classical.byContradiction fun different => ?_⟩
        exact absurd empty (List.ne_nil_of_mem
          (List.mem_filter.mpr ⟨present, by simp [parent, different]⟩))
  · intro namespaces
    rw [List.eq_nil_iff_forall_not_mem]
    intro symbol member
    obtain ⟨present, -⟩ := List.mem_filter.mp member
    exact kind_ne_of_mem_moduleSymbols (hasPlainMembers_of_built built) member
      (namespaces symbol present).2

end Collected

theorem Legible.splitText_declarationText {package : Package} (legible : package.Legible) :
    splitText '\n' package.declarationText = package.declarationFile.lines ++ [""] := by
  rw [declarationText, DeclarationFile.splitText_text legible.declarationFile,
    DeclarationFile.lines_eq legible.declarationFile, List.append_assoc _ _ [""]]

/-- The text of a collected package is properly nested: the blocks are balanced, every line is
indented by two spaces for each block around it, and no block is empty; a namespace always has a
block.  Behind the three lines of the header stands at least one line, which is `export {};` exactly
if the package declares nothing and has no default export. -/
theorem declarations_are_properly_nested (settings : Settings) (sources : List (String × String))
    {modulePath : String} {package : Package}
    (found : (collect settings.inference (summariesOf settings sources)).get? modulePath =
      some package) :
    ∃ lines, splitText '\n' package.declarationText = lines ++ [""] ∧
      Outline.ProperlyNested lines ∧
      (∀ line ∈ lines, ∀ name, Outline.declared? line = some ("namespace", name) →
        Outline.opensBlock line = true) ∧
      ∃ first rest, lines = DeclarationFile.header modulePath ++ first :: rest ∧
        (first = "export \x7b\x7d;" ↔
          package.DeclaresNothing ∧ package.defaultExport? = none) ∧
        (first = "export \x7b\x7d;" → rest = []) := by
  have legible := legible_of_get?_collect (legible_summariesOf settings sources) found
  have built := eq_ofUses_of_get?_collect found
  have filled := (hasPlainMembers_of_built built).allFilled
  have path : package.modulePath = modulePath := by rw [built, modulePath_ofUses]
  refine ⟨package.declarationFile.lines, legible.splitText_declarationText,
    DeclarationFile.properlyNested_lines legible.declarationFile filled,
    fun line membership name =>
      DeclarationFile.opensBlock_of_mem_fileLines legible.declarationFile membership, ?_⟩
  rw [← declaresNothing_iff built, ← path]
  exact DeclarationFile.exists_first_line legible.declarationFile

def nestedUsesText : String :=
  "import * as Lib from 'm';\nLib.core.Box.open();\nlet size = Lib.core.inner.limit;"

def nestedUsesLines : List String :=
  ["export declare namespace core \x7b",
    "  export namespace inner \x7b",
    "    export const limit: unknown;",
    "  \x7d",
    "  export class Box \x7b",
    "    static open(args: unknown): unknown;",
    "  \x7d",
    "\x7d",
    "export type Box = core.Box;"]

theorem nested_uses_are_properly_nested :
    ∃ package lines,
      (collect {} (summariesOf {} [("a.ets", nestedUsesText)])).get? "m" = some package ∧
      splitText '\n' package.declarationText = lines ++ [""] ∧
      lines = DeclarationFile.header "m" ++ nestedUsesLines ∧
      Outline.ProperlyNested lines ∧
      ¬ (package.DeclaresNothing ∧ package.defaultExport? = none) := by
  have inOrder : uses "m" (summariesOf {} [("a.ets", nestedUsesText)]) =
      [.ofImport (.wholeModule "m" "Lib" false),
        .ofAccess (.wholeModule "m" "Lib" false)
          ⟨"Lib", "Lib.core.Box.open", "open", .staticCall, some "Box"⟩,
        .ofAccess (.wholeModule "m" "Lib" false)
          ⟨"Lib", "Lib.core.inner.limit", "limit", .propertyAccess, none⟩] := by
    decide +kernel
  have found := get?_collect_of_uses {} inOrder (by decide)
  obtain ⟨lines, text, nested, -, first, rest, split, silent, -⟩ :=
    declarations_are_properly_nested {} [("a.ets", nestedUsesText)] found
  obtain rfl : DeclarationFile.header "m" ++ nestedUsesLines = lines := by
    have legible :=
      legible_of_get?_collect (legible_summariesOf {} [("a.ets", nestedUsesText)]) found
    have shown := List.append_cancel_right (legible.splitText_declarationText.symm.trans text)
    rw [← shown]
    decide +kernel
  obtain rfl : _ = first := (List.cons.inj (List.append_cancel_left split)).1
  exact ⟨_, _, found, text, rfl, nested, silent.not.mp (by decide)⟩

end AmbientStubs.Package
