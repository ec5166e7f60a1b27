import AmbientStubs.Proofs.Declaration.File
import AmbientStubs.Proofs.Declaration.Groups
import AmbientStubs.Proofs.Package.Insertion

/-!
Legible packages: the names of their symbols and methods are identifiers and no other text
of them breaks a line.  Insertions of legible symbols and methods keep a package legible,
and the declaration file of a legible package is legible.
-/

namespace AmbientStubs

open Text

structure Symbol.Legible (symbol : Symbol) : Prop where
  name : IsIdentifier symbol.name
  returnType : ∀ type ∈ symbol.returnType, SingleLine type

namespace Package

structure Legible (package : Package) : Prop where
  modulePath : SingleLine package.modulePath
  imports : ∀ imported ∈ package.imports, SingleLine imported.importedName
  symbols : ∀ symbol ∈ package.symbols, symbol.Legible
  methods : ∀ method ∈ package.methods, method.Legible
  extraDeclarations : package.extraDeclarations.values = []

section Insertions

variable {package : Package} (legible : package.Legible)

include legible

theorem Legible.addImport {imported : Import} (single : SingleLine imported.importedName) :
    (package.addImport imported).Legible := by
  refine { legible with imports := ?_ }
  intro other membership
  rcases List.mem_append.mp membership with before | last
  · exact legible.imports other before
  · rw [List.mem_singleton.mp last]
    exact single

theorem Legible.insertSymbol {symbol : Symbol} (readable : symbol.Legible) :
    (package.insertSymbol symbol).Legible := by
  rw [insertSymbol_eq]
  refine { legible with symbols := ?_ }
  intro other membership
  rcases mem_of_mem_appendNew Symbol.identity membership with before | rfl
  · exact legible.symbols other before
  · exact readable

theorem Legible.insertMethod {method : Method} (readable : method.Legible) :
    (package.insertMethod method).Legible := by
  rw [insertMethod_eq]
  refine { legible with methods := ?_ }
  intro other membership
  rcases mem_of_mem_appendNew Method.identity membership with before | rfl
  · exact legible.methods other before
  · exact readable

end Insertions

structure Entry.Legible (entry : Entry) : Prop where
  name : IsIdentifier entry.name
  returnType : ∀ type ∈ entry.returnType, SingleLine type

theorem Entry.Legible.add {entry : Entry} (legible : entry.Legible) {symbol : Symbol}
    (readable : symbol.Legible) : (entry.add symbol).Legible := by
  refine ⟨legible.name, ?_⟩
  intro type found
  simp only [Entry.add] at found
  split at found
  · rw [Option.mem_def, Option.or_eq_some_iff] at found
    rcases found with before | ⟨-, own⟩
    · exact legible.returnType type before
    · exact readable.returnType type own
  · exact legible.returnType type found

theorem Entry.legible_of_mem {symbols : List Symbol} {owners : List String}
    (readable : ∀ symbol ∈ symbols, symbol.Legible)
    (identifiers : ∀ owner ∈ owners, IsIdentifier owner) :
    ∀ entry ∈ withOwners (ofSymbols symbols) owners, entry.Legible := by
  apply forall_mem_withOwners
  · intro symbol membership
    exact ⟨(readable symbol membership).name, by simp⟩
  · intro owner membership
    exact ⟨identifiers owner membership, by simp⟩
  · intro symbol membership entry _ legible
    exact legible.add (readable symbol membership)

theorem methodOwners_eq (package : Package) :
    package.methodOwners = (package.methods.map (·.owner)).foldl Entry.including [] := rfl

theorem mem_methodOwners {package : Package} {owner : String} :
    owner ∈ package.methodOwners ↔ ∃ method ∈ package.methods, method.owner = owner := by
  rw [methodOwners_eq, Entry.mem_foldl_including, List.mem_map]
  simp

theorem container?_eq_some {method : Method} {front : List String} {className name : String}
    (split : segments method.qualifier = front ++ [className, name]) (nonempty : front ≠ []) :
    container? method = some (dotted front) := by
  obtain ⟨initial, last, shape⟩ := List.eq_nil_or_concat front |>.resolve_left nonempty
  simp [container?, split, shape]

/-- An owner is relocated to the container of its first static method, if that container does
not stand for the whole module. -/
theorem placement_eq_relocated {package : Package} {owner container : String}
    (placed : package.placement owner = .relocated container) :
    ((package.methodsOf owner).find? (·.isStatic)).bind container? = some container ∧
      container ∉ package.flattenedRoots := by
  unfold placement at placed
  split at placed
  · contradiction
  · split at placed
    · contradiction
    · next found =>
        split at placed
        · contradiction
        · next elsewhere =>
            rw [Placement.relocated.injEq] at placed
            rw [placed] at found elsewhere
            exact ⟨found, by simpa using elsewhere⟩

theorem mem_relocations {package : Package} {relocation : Relocation} :
    relocation ∈ package.relocations ↔ relocation.owner ∈ package.methodOwners ∧
      package.placement relocation.owner = .relocated relocation.container := by
  rw [relocations, List.mem_filterMap]
  constructor
  · rintro ⟨owner, listed, found⟩
    split at found
    · next container placed =>
        rw [Option.some.injEq] at found
        rw [← found]
        exact ⟨listed, placed⟩
    · contradiction
  · rintro ⟨listed, placed⟩
    exact ⟨relocation.owner, listed, by rw [placed]⟩

theorem mem_hostedIn {relocations : List Relocation} {paths : List String} {owner : String} :
    owner ∈ hostedIn relocations paths ↔
      ∃ container ∈ paths, ⟨owner, container⟩ ∈ relocations := by
  simp only [hostedIn, List.mem_map, List.mem_filter, List.contains_iff_mem]
  constructor
  · rintro ⟨relocation, ⟨listed, hosting⟩, rfl⟩
    exact ⟨relocation.container, hosting, listed⟩
  · rintro ⟨container, hosting, listed⟩
    exact ⟨_, ⟨listed, hosting⟩, rfl⟩

section Declarations

variable {package : Package} (legible : package.Legible)

include legible

theorem Legible.isIdentifier_owner {owner : String} (membership : owner ∈ package.methodOwners) :
    IsIdentifier owner := by
  obtain ⟨method, listed, rfl⟩ := mem_methodOwners.mp membership
  exact (legible.methods method listed).owner

theorem Legible.methodsOf (owner : String) :
    ∀ method ∈ package.methodsOf owner, method.Legible := by
  intro method membership
  exact legible.methods method (List.mem_filter.mp membership).1

omit legible in
theorem singleLine_segments {path segment : String} (single : SingleLine path)
    (membership : segment ∈ segments path) : SingleLine segment := by
  rw [← dotted_segments path, singleLine_dotted] at single
  exact single segment membership

omit legible in
theorem singleLine_container {method : Method} (single : SingleLine method.qualifier)
    {container : String} (found : container? method = some container) : SingleLine container := by
  unfold container? at found
  split at found
  · next last owner first rest reversed =>
      rw [Option.some.injEq] at found
      rw [← found, singleLine_dotted]
      intro segment membership
      apply singleLine_segments single
      rw [← List.mem_reverse, reversed]
      exact List.mem_cons_of_mem _ (List.mem_cons_of_mem _ (List.mem_reverse.mp membership))
  · contradiction

theorem Legible.singleLine_placement {owner container : String}
    (placed : package.placement owner = .relocated container) : SingleLine container := by
  obtain ⟨method, first, found⟩ := Option.bind_eq_some_iff.mp (placement_eq_relocated placed).1
  have listed := List.mem_of_find?_eq_some first
  exact singleLine_container (legible.methodsOf owner method listed).qualifier found

theorem Legible.singleLine_aliasTarget {owner target : String} (identifier : IsIdentifier owner)
    (found : package.aliasTarget? owner = some target) : SingleLine target := by
  unfold aliasTarget? at found
  split at found
  · contradiction
  · next container placed =>
      obtain ⟨path, seen, rfl⟩ := Option.map_eq_some_iff.mp found
      have single := legible.singleLine_placement placed
      have singlePath : SingleLine path := by
        unfold modulePathOf? at seen
        split at seen
        · next head rest split =>
            split at seen
            · split at seen
              · contradiction
              · rw [Option.some.injEq] at seen
                rw [← seen, singleLine_dotted]
                intro segment membership
                apply singleLine_segments single
                rw [split]
                exact List.mem_cons_of_mem head membership
            · rw [Option.some.injEq] at seen
              rwa [← seen]
        · rw [Option.some.injEq] at seen
          rwa [← seen]
      simp only [singleLine_append]
      exact ⟨⟨singlePath, by decide⟩, identifier.singleLine⟩

theorem Legible.scopeMethods (owners : List String) (name : String) :
    ∀ method ∈ package.scopeMethods owners name, method.Legible := by
  unfold Package.scopeMethods
  split
  · exact legible.methodsOf name
  · simp

theorem Legible.plainDeclarations {relocations : List Relocation} {atModuleLevel : Bool}
    {owners : List String} {entry : Entry} (readable : entry.Legible) {declaration : Declaration}
    (membership : declaration ∈
      package.plainDeclarations relocations atModuleLevel owners entry) :
    declaration.Legible := by
  have methods := legible.scopeMethods owners entry.name
  rcases mem_plainDeclarations.mp membership with asType | asAlias | asValue
  · rcases typeDeclaration?_eq_some asType with rfl | rfl | rfl | rfl <;> rw [Declaration.Legible]
    · exact ⟨readable.name, methods⟩
    · exact ⟨readable.name, methods⟩
    · exact readable.name
    · exact ⟨readable.name, by decide⟩
  · obtain ⟨-, target, found, rfl⟩ := aliasOf_eq_some asAlias
    rw [Declaration.Legible]
    exact ⟨readable.name, legible.singleLine_aliasTarget readable.name found⟩
  · rcases valueDeclaration?_eq_some (valueOf_eq_some asValue).2 with
      rfl | ⟨⟨type, rfl, single⟩, -⟩ <;> rw [Declaration.Legible]
    · refine ⟨readable.name, ?_⟩
      cases result : entry.returnType with
      | none => decide
      | some type => exact readable.returnType type result
    · exact ⟨readable.name, single⟩

theorem Legible.isIdentifier_hostedIn {paths : List String} {owner : String}
    (membership : owner ∈ hostedIn package.relocations paths) : IsIdentifier owner := by
  obtain ⟨container, -, relocated⟩ := mem_hostedIn.mp membership
  exact legible.isIdentifier_owner (mem_relocations.mp relocated).1

theorem Legible.scopeDeclarations (levels : Nat) (atModuleLevel : Bool) {entries : List Entry}
    (readable : ∀ entry ∈ entries, entry.Legible) (owners : List String) :
    Declaration.AllLegible (package.scopeDeclarations package.relocations levels atModuleLevel
      entries owners) := by
  induction levels generalizing atModuleLevel entries owners with
  | zero => rw [Package.scopeDeclarations, Declaration.AllLegible]; trivial
  | succ levels inductionHypothesis =>
      rw [Declaration.allLegible_iff]
      intro declaration membership
      obtain ⟨entry, listed, inGroup⟩ := mem_scopeDeclarations.mp membership
      rcases mem_group.mp inGroup with plain | block
      · exact legible.plainDeclarations (readable entry listed) plain
      · rw [(mem_blockOf.mp block).2, Declaration.Legible]
        refine ⟨(readable entry listed).name, inductionHypothesis false ?_ _⟩
        apply Entry.legible_of_mem
        · intro symbol child
          obtain ⟨path, -, inside⟩ := List.mem_flatMap.mp child
          exact legible.symbols symbol (List.mem_filter.mp inside).1
        · intro owner hosted
          exact legible.isIdentifier_hostedIn hosted

theorem Legible.declarationFile : package.declarationFile.Legible where
  modulePath := legible.modulePath
  declarations := by
    apply legible.scopeDeclarations
    apply Entry.legible_of_mem
    · intro symbol membership
      exact legible.symbols symbol (List.mem_filter.mp membership).1
    · intro owner membership
      exact legible.isIdentifier_owner membership
  defaultExport := by
    intro name found
    obtain ⟨imported, first, rfl⟩ := Option.map_eq_some_iff.mp found
    exact legible.imports imported (List.mem_of_find?_eq_some first)
  verbatim := by
    simp [Package.declarationFile, legible.extraDeclarations]

theorem Legible.ofText?_declarationText :
    Outline.ofText? package.declarationText = some package.declarationFile.outlines :=
  DeclarationFile.ofText?_text legible.declarationFile

/-- The scopes of the declarations of a legible package are found in its text, with one item
for each declaration that shows its keyword and its name. -/
theorem Legible.exists_scopeAt {path : List String} {scope : List Declaration}
    (reached : Declaration.ScopeAt package.moduleDeclarations path scope) :
    ∃ found, Outline.ScopeAt package.declarationFile.outlines path found ∧
      ∀ declaration ∈ scope, Declaration.outline path.length declaration ∈ found ∧
        Outline.declared? (Declaration.outline path.length declaration).head =
          some (declaration.keyword, declaration.name) := by
  obtain ⟨found, inText, shown⟩ :=
    DeclarationFile.exists_scopeAt_outlines legible.declarationFile reached
  refine ⟨found, inText, ?_⟩
  intro declaration membership
  have allLegible := reached.allLegible legible.declarationFile.declarations
  have readable := Declaration.allLegible_iff.mp allLegible declaration membership
  exact ⟨shown declaration membership,
    Declaration.declared?_outline path.length readable.isIdentifier_name⟩

end Declarations

end Package

end AmbientStubs
