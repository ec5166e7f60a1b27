import AmbientStubs.Proofs.Package.Legible

/-!
No name is declared twice.  Every scope of a text declares a name at most once as a type, at
most once as a value and by at most one namespace block, whatever a package was filled with.
-/

namespace AmbientStubs

open Text

/-- The keywords with which one scope may declare one name, in the order of its lines. -/
structure Unambiguous (keywords : List String) : Prop where
  types : keywords.countP (["class", "interface", "enum", "type"].contains ·) ≤ 1
  values : keywords.countP (["class", "enum", "function", "const"].contains ·) ≤ 1
  namespaces : keywords.count "namespace" ≤ 1
  constants : "const" ∈ keywords → "namespace" ∉ keywords
  order : keywords.Pairwise fun first second =>
    first = "namespace" → second ∉ ["class", "enum", "function"]

instance (keywords : List String) : Decidable (Unambiguous keywords) :=
  decidable_of_iff
    (keywords.countP (["class", "interface", "enum", "type"].contains ·) ≤ 1 ∧
      keywords.countP (["class", "enum", "function", "const"].contains ·) ≤ 1 ∧
      keywords.count "namespace" ≤ 1 ∧
      ("const" ∈ keywords → "namespace" ∉ keywords) ∧
      keywords.Pairwise fun first second =>
        first = "namespace" → second ∉ ["class", "enum", "function"])
    ⟨fun ⟨types, values, namespaces, constants, order⟩ =>
      ⟨types, values, namespaces, constants, order⟩,
    fun ⟨types, values, namespaces, constants, order⟩ =>
      ⟨types, values, namespaces, constants, order⟩⟩

namespace Declaration

theorem keywordsFor_outlines {declarations : List Declaration} (legible : AllLegible declarations)
    (depth : Nat) (name : String) :
    Outline.keywordsFor name (outlines depth declarations) =
      (declarations.filter (·.name == name)).map keyword := by
  rw [outlines_eq_map]
  induction declarations with
  | nil => rfl
  | cons declaration rest inductionHypothesis =>
      rw [AllLegible] at legible
      have shown := declared?_outline depth legible.1.isIdentifier_name
      have others := inductionHypothesis legible.2
      rw [Outline.keywordsFor] at others ⊢
      by_cases same : declaration.name = name
      · simp [shown, same, others]
      · simp [shown, same, others]

theorem keywordsFor_eq {before after scope : List Outline} {declarations : List Declaration}
    {depth : Nat} (legible : AllLegible declarations)
    (same : scope = before ++ outlines depth declarations ++ after)
    (silent : ∀ item ∈ before ++ after, Outline.declared? item.head = none) (name : String) :
    Outline.keywordsFor name scope = (declarations.filter (·.name == name)).map keyword := by
  have nothing : ∀ items : List Outline, (∀ item ∈ items, Outline.declared? item.head = none) →
      Outline.keywordsFor name items = [] := by
    intro items undeclared
    rw [Outline.keywordsFor, List.filterMap_eq_nil_iff]
    intro item membership
    simp [undeclared item membership]
  rw [List.forall_mem_append] at silent
  have middle := keywordsFor_outlines legible depth name
  have first := nothing before silent.1
  have last := nothing after silent.2
  rw [Outline.keywordsFor] at middle first last ⊢
  rw [same, List.filterMap_append, List.filterMap_append, first, middle, last, List.nil_append,
    List.append_nil]

end Declaration

namespace Package

section Groups

variable (package : Package) (relocations : List Relocation) (atModuleLevel : Bool)
  (owners : List String) (entry : Entry) (levels : Nat)

theorem keywords_blockOf :
    (package.blockOf relocations entry levels).map Declaration.keyword =
      if package.hasBlock relocations entry then ["namespace"] else [] := by
  unfold blockOf
  split <;> rfl

theorem keywords_typeOf :
    (package.typeOf relocations atModuleLevel owners entry).any declaresValue = true ∧
      ((package.typeOf relocations atModuleLevel owners entry).toList ++
        (package.aliasOf relocations atModuleLevel owners entry).toList).map Declaration.keyword ∈
          [["class"], ["enum"]] ∨
    ((package.typeOf relocations atModuleLevel owners entry).toList ++
      (package.aliasOf relocations atModuleLevel owners entry).toList).map Declaration.keyword ∈
        [[], ["interface"], ["type"]] := by
  cases asType : package.typeOf relocations atModuleLevel owners entry with
  | none =>
      right
      cases asAlias : package.aliasOf relocations atModuleLevel owners entry with
      | none => simp
      | some declaration =>
          obtain ⟨-, target, -, rfl⟩ := aliasOf_eq_some asAlias
          simp [Declaration.keyword]
  | some declaration =>
      have noAlias : package.aliasOf relocations atModuleLevel owners entry = none := by
        simp [aliasOf, asType]
      rw [noAlias]
      rcases typeDeclaration?_eq_some asType with rfl | rfl | rfl | rfl
      · exact .inl ⟨rfl, by simp [Declaration.keyword]⟩
      · exact .inr (by simp [Declaration.keyword])
      · exact .inl ⟨rfl, by simp [Declaration.keyword]⟩
      · exact .inr (by simp [Declaration.keyword])

theorem keywords_valueOf :
    (package.valueOf relocations atModuleLevel owners entry).toList.map Declaration.keyword ++
      (package.blockOf relocations entry levels).map Declaration.keyword ∈
        [[], ["function"], ["const"], ["namespace"], ["function", "namespace"]] := by
  rw [keywords_blockOf]
  cases asValue : package.valueOf relocations atModuleLevel owners entry with
  | none => split <;> simp
  | some declaration =>
      rcases valueDeclaration?_eq_some (valueOf_eq_some asValue).2 with
        rfl | ⟨⟨type, rfl, -⟩, noBlock⟩
      · split <;> simp [Declaration.keyword]
      · simp [Declaration.keyword, noBlock]

/-- Whatever an entry is declared as, its declarations do not clash. -/
theorem unambiguous_group :
    Unambiguous ((package.group relocations atModuleLevel owners entry levels).map
      Declaration.keyword) := by
  have values := keywords_valueOf package relocations atModuleLevel owners entry levels
  rw [group, plainDeclarations_eq, List.map_append, List.map_append, List.append_assoc]
  rcases keywords_typeOf package relocations atModuleLevel owners entry with
    ⟨declaring, asType⟩ | asType
  · have noValue : package.valueOf relocations atModuleLevel owners entry = none := by
      simp [valueOf, declaring]
    rw [noValue, keywords_blockOf]
    generalize List.map Declaration.keyword _ = typed at asType ⊢
    split <;> revert typed <;> decide
  · generalize List.map Declaration.keyword (_ ++ _) = typed at asType ⊢
    generalize List.map Declaration.keyword _ ++ _ = valued at values ⊢
    revert typed valued
    decide

end Groups

section Scopes

variable {package : Package} {relocations : List Relocation}

/-- A list of declarations that lays out a scope of a package. -/
def LaysOutScope (package : Package) (relocations : List Relocation)
    (declarations : List Declaration) : Prop :=
  ∃ levels atModuleLevel symbols added owners,
    declarations = package.scopeDeclarations relocations levels atModuleLevel
      (Entry.withOwners (Entry.ofSymbols symbols) added) owners

theorem LaysOutScope.inside {declarations members : List Declaration} {name : String}
    (laidOut : LaysOutScope package relocations declarations)
    (membership : .namespaceBlock name members ∈ declarations) :
    LaysOutScope package relocations members := by
  obtain ⟨levels, atModuleLevel, symbols, added, owners, rfl⟩ := laidOut
  obtain ⟨entry, -, -, inner⟩ := exists_entry_of_namespaceBlock membership
  exact ⟨levels - 1, false, _, _, _, inner⟩

theorem LaysOutScope.scopeAt {declarations target : List Declaration} {path : List String}
    (laidOut : LaysOutScope package relocations declarations)
    (reached : Declaration.ScopeAt declarations path target) :
    LaysOutScope package relocations target := by
  induction reached with
  | here => exact laidOut
  | inside membership _ inductionHypothesis =>
      exact inductionHypothesis (laidOut.inside membership)

theorem filter_flatMap_group {entries : List Entry} {group : Entry → List Declaration}
    (distinct : (entries.map (·.name)).Nodup)
    (named : ∀ entry, ∀ declaration ∈ group entry, declaration.name = entry.name) (name : String) :
    (entries.flatMap group).filter (·.name == name) = [] ∨
      ∃ entry, (entries.flatMap group).filter (·.name == name) = group entry := by
  induction entries with
  | nil => exact .inl rfl
  | cons entry rest inductionHypothesis =>
      rw [List.map_cons, List.nodup_cons] at distinct
      rw [List.flatMap_cons, List.filter_append]
      by_cases same : entry.name = name
      · have whole : (group entry).filter (·.name == name) = group entry := by
          rw [List.filter_eq_self]
          intro declaration membership
          simp [named entry declaration membership, same]
        have nothing : (rest.flatMap group).filter (·.name == name) = [] := by
          rw [List.filter_eq_nil_iff]
          intro declaration membership
          obtain ⟨other, listed, inGroup⟩ := List.mem_flatMap.mp membership
          rw [named other declaration inGroup, beq_iff_eq, ← same]
          intro clash
          exact distinct.1 (clash ▸ List.mem_map_of_mem listed)
        rw [whole, nothing, List.append_nil]
        exact .inr ⟨entry, rfl⟩
      · have nothing : (group entry).filter (·.name == name) = [] := by
          rw [List.filter_eq_nil_iff]
          intro declaration membership
          simp [named entry declaration membership, same]
        rw [nothing, List.nil_append]
        exact inductionHypothesis distinct.2

/-- The entries of a scope have distinct names, so the declarations of a name are those of one
entry. -/
theorem LaysOutScope.unambiguous {declarations : List Declaration}
    (laidOut : LaysOutScope package relocations declarations) (name : String) :
    Unambiguous ((declarations.filter (·.name == name)).map Declaration.keyword) := by
  obtain ⟨levels, atModuleLevel, symbols, added, owners, rfl⟩ := laidOut
  cases levels with
  | zero =>
      rw [scopeDeclarations, List.filter_nil]
      decide
  | succ levels =>
      rw [scopeDeclarations_succ]
      rcases filter_flatMap_group (Entry.nodup_names symbols added)
        (fun entry declaration membership => name_of_mem_group membership) name with
        nothing | ⟨entry, same⟩
      · rw [nothing]
        decide
      · rw [same]
        exact unambiguous_group package relocations atModuleLevel owners entry levels

end Scopes

theorem Legible.unambiguous {package : Package} (legible : package.Legible) {path : List String}
    {scope : List Outline} (reached : Outline.ScopeAt package.declarationFile.outlines path scope)
    (name : String) : Unambiguous (Outline.keywordsFor name scope) := by
  obtain ⟨declarations, before, after, inside, same, silent⟩ :=
    DeclarationFile.exists_scopeAt_of_outlines legible.declarationFile reached
  have readable := inside.allLegible legible.declarationFile.declarations
  rw [Declaration.keywordsFor_eq readable same silent]
  have moduleLevel : LaysOutScope package package.relocations package.moduleDeclarations :=
    ⟨_, _, _, _, _, rfl⟩
  exact (moduleLevel.scopeAt inside).unambiguous name

inductive Insertion where
  | ofImport (imported : Import)
  | ofSymbol (symbol : Symbol)
  | ofMethod (method : Method)

namespace Insertion

def apply (package : Package) : Insertion → Package
  | ofImport imported => package.addImport imported
  | ofSymbol symbol => package.insertSymbol symbol
  | ofMethod method => package.insertMethod method

/-- Whether the names of what is inserted are identifiers and the other texts that a
declaration file shows do not break a line. -/
def Legible : Insertion → Prop
  | ofImport imported => SingleLine imported.importedName
  | ofSymbol symbol => symbol.Legible
  | ofMethod method => method.Legible

theorem legible_apply {package : Package} (legible : package.Legible) {insertion : Insertion}
    (readable : insertion.Legible) : (insertion.apply package).Legible := by
  cases insertion with
  | ofImport imported => exact legible.addImport readable
  | ofSymbol symbol => exact legible.insertSymbol readable
  | ofMethod method => exact legible.insertMethod readable

theorem legible_foldl_apply {package : Package} (legible : package.Legible)
    {insertions : List Insertion} (readable : ∀ insertion ∈ insertions, insertion.Legible) :
    (insertions.foldl apply package).Legible := by
  induction insertions generalizing package with
  | nil => exact legible
  | cons insertion rest inductionHypothesis =>
      rw [List.forall_mem_cons] at readable
      exact inductionHypothesis (legible_apply legible readable.1) readable.2

end Insertion

def filled (modulePath : String) (insertions : List Insertion) : Package :=
  insertions.foldl Insertion.apply { modulePath }

/-- Whatever a package was filled with, its text is read as an outline in which every scope
declares a name at most once as a type, once as a value and by one namespace block, no
constant stands beside a namespace block of its name, and a namespace block follows the class,
enumeration or function of its name; and the text has at most one default export. -/
theorem declarationText_declares_names_once {modulePath : String} (single : SingleLine modulePath)
    {insertions : List Insertion} (legible : ∀ insertion ∈ insertions, insertion.Legible) :
    ∃ items, Outline.ofText? (filled modulePath insertions).declarationText = some items ∧
      (∀ path scope, Outline.ScopeAt items path scope →
        ∀ name, Unambiguous (Outline.keywordsFor name scope)) ∧
      (splitText '\n' (filled modulePath insertions).declarationText).countP
        Declaration.exportsDefault ≤ 1 := by
  have empty : Package.Legible { modulePath } := ⟨single, by simp, by simp, by simp, rfl⟩
  have readable : (filled modulePath insertions).Legible :=
    Insertion.legible_foldl_apply empty legible
  exact ⟨_, readable.ofText?_declarationText,
    fun path scope reached name => readable.unambiguous reached name,
    DeclarationFile.countP_exportsDefault_le_one readable.declarationFile⟩

def boxInsertions : List Insertion :=
  [.ofImport (.defaultExport "@lib/box" "Box" false),
   .ofSymbol { name := "Box", kind := .constant },
   .ofSymbol { name := "Box", kind := .classType },
   .ofSymbol { name := "open", kind := .function, parentPath := some "Box" },
   .ofMethod ⟨"close", false, [⟨"key", "string"⟩], "void", "Box", "Box.close"⟩]

theorem box_declares_names_once :
    ∃ items, Outline.ofText? (filled "@lib/box" boxInsertions).declarationText = some items ∧
      (∀ path scope, Outline.ScopeAt items path scope →
        ∀ name, Unambiguous (Outline.keywordsFor name scope)) ∧
      (splitText '\n' (filled "@lib/box" boxInsertions).declarationText).countP
        Declaration.exportsDefault ≤ 1 := by
  refine declarationText_declares_names_once (by decide) ?_
  simp only [boxInsertions, List.forall_mem_cons, Insertion.Legible]
  exact ⟨by decide +kernel, ⟨by decide +kernel, by simp⟩, ⟨by decide +kernel, by simp⟩,
    ⟨by decide +kernel, by simp⟩, ⟨by decide +kernel, by decide, by decide, by decide +kernel,
    by decide⟩, by simp⟩

end Package

end AmbientStubs
