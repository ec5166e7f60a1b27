import AmbientStubs.Proofs.Declaration.Legible
import AmbientStubs.Proofs.Package.Growth
import AmbientStubs.Proofs.Package.Legible

/-!
Paths through a package and through its declarations.  A way of symbols, each inside the one
before, is a way of namespace blocks: each block declares all that stands under its path, so
nothing on the way is lost, whatever else shares its names.
-/

namespace AmbientStubs.Package

open Text

/-- Whether something is declared inside the scope with the given path. -/
def IsOccupied (package : Package) (path : String) : Prop :=
  package.hasChildren path = true ∨ ∃ owner, ⟨owner, path⟩ ∈ package.relocations

/-- A way of symbols from the scope of one path down to the scope of another. -/
inductive Leads (package : Package) : String → List String → String → Prop where
  | here {path : String} : Leads package path [] path
  | down {path target : String} {symbol : Symbol} {way : List String}
      (membership : symbol ∈ package.symbols) (inside : symbol.parentPath = some path)
      (occupied : package.IsOccupied symbol.qualifiedPath)
      (rest : Leads package symbol.qualifiedPath way target) :
      Leads package path (symbol.name :: way) target

/-- Entries and owners of a scope that declare all that stands under a path. -/
structure Serves (package : Package) (path : String) (entries : List Entry)
    (owners : List String) : Prop where
  symbols : ∀ symbol ∈ package.symbols, symbol.parentPath = some path →
    Entry.Filed symbol entries
  hosted : ∀ owner, ⟨owner, path⟩ ∈ package.relocations →
    owner ∈ owners ∧ ∃ entry ∈ entries, entry.name = owner

variable {package : Package}

theorem hasChildren_iff {path : String} :
    package.hasChildren path = true ↔
      ∃ symbol ∈ package.symbols, symbol.parentPath = some path := by
  simp [hasChildren]

theorem serves_innerEntries {entry : Entry} {path : String} (known : path ∈ entry.paths) :
    package.Serves path (package.innerEntries package.relocations entry)
      (hostedIn package.relocations entry.paths) where
  symbols := by
    intro symbol membership inside
    apply Entry.filed_withOwners
    refine List.mem_flatMap.mpr ⟨path, known, List.mem_filter.mpr ⟨membership, ?_⟩⟩
    rw [inside, beq_self_eq_true]
  hosted := by
    intro owner relocated
    have hosted : owner ∈ hostedIn package.relocations entry.paths :=
      mem_hostedIn.mpr ⟨path, known, relocated⟩
    exact ⟨hosted, Entry.mem_names_withOwners hosted⟩

theorem hasBlock_of_isOccupied {entry : Entry} {path : String} (known : path ∈ entry.paths)
    (occupied : package.IsOccupied path) :
    package.hasBlock package.relocations entry = true := by
  unfold hasBlock
  rcases occupied with children | ⟨owner, relocated⟩
  · have some : entry.paths.any package.hasChildren = true :=
      List.any_eq_true.mpr ⟨path, known, children⟩
    simp [some]
  · have hosted : owner ∈ hostedIn package.relocations entry.paths :=
      mem_hostedIn.mpr ⟨path, known, relocated⟩
    simp [List.ne_nil_of_mem hosted]

/-- A filed symbol with something inside has a namespace block that serves its path. -/
theorem exists_block_of_filed {symbol : Symbol} {entries : List Entry}
    (filed : Entry.Filed symbol entries) (occupied : package.IsOccupied symbol.qualifiedPath)
    (levels : Nat) (atModuleLevel : Bool) (owners : List String) :
    ∃ innerEntries innerOwners,
      .namespaceBlock symbol.name (package.scopeDeclarations package.relocations levels false
        innerEntries innerOwners) ∈ package.scopeDeclarations package.relocations (levels + 1)
          atModuleLevel entries owners ∧
      package.Serves symbol.qualifiedPath innerEntries innerOwners := by
  obtain ⟨entry, listed, named, -, known⟩ := filed
  refine ⟨_, _, ?_, serves_innerEntries known⟩
  refine mem_scopeDeclarations.mpr ⟨entry, listed, mem_group.mpr (.inr ?_)⟩
  exact mem_blockOf.mpr ⟨hasBlock_of_isOccupied known occupied, by rw [named]⟩

/-- A way through the symbols is a way through the namespace blocks. -/
theorem Leads.scopeAt {path target : String} {way : List String}
    (leads : package.Leads path way target) {entries : List Entry} {owners : List String}
    (serves : package.Serves path entries owners) (levels : Nat) (atModuleLevel : Bool) :
    ∃ innerLevel innerEntries innerOwners,
      Declaration.ScopeAt (package.scopeDeclarations package.relocations (way.length + levels)
        atModuleLevel entries owners) way (package.scopeDeclarations package.relocations levels
          innerLevel innerEntries innerOwners) ∧
      package.Serves target innerEntries innerOwners := by
  induction leads generalizing entries owners atModuleLevel with
  | here =>
      rw [List.length_nil, Nat.zero_add]
      exact ⟨atModuleLevel, entries, owners, .here, serves⟩
  | @down path target symbol way membership inside occupied _ inductionHypothesis =>
      obtain ⟨blockEntries, blockOwners, block, blockServes⟩ := exists_block_of_filed
        (serves.symbols symbol membership inside) occupied (way.length + levels) atModuleLevel
        owners
      obtain ⟨innerLevel, innerEntries, innerOwners, reached, innerServes⟩ :=
        inductionHypothesis blockServes false
      refine ⟨innerLevel, innerEntries, innerOwners, ?_, innerServes⟩
      rw [List.length_cons, Nat.add_right_comm]
      exact .inside block reached

theorem Leads.scopeAt_of_length_le {path target : String} {way : List String}
    (leads : package.Leads path way target) {entries : List Entry} {owners : List String}
    (serves : package.Serves path entries owners) {bound : Nat} (short : way.length ≤ bound)
    (atModuleLevel : Bool) :
    ∃ levels innerLevel innerEntries innerOwners,
      Declaration.ScopeAt (package.scopeDeclarations package.relocations (bound + 1) atModuleLevel
        entries owners) way (package.scopeDeclarations package.relocations (levels + 1) innerLevel
          innerEntries innerOwners) ∧
      package.Serves target innerEntries innerOwners := by
  obtain ⟨innerLevel, innerEntries, innerOwners, reached, innerServes⟩ :=
    leads.scopeAt serves (bound - way.length + 1) atModuleLevel
  rw [← Nat.add_assoc, Nat.add_sub_cancel' short] at reached
  exact ⟨_, innerLevel, innerEntries, innerOwners, reached, innerServes⟩

theorem le_foldl_max {first second : Nat} {numbers : List Nat}
    (bounded : first ≤ second ∨ ∃ number ∈ numbers, first ≤ number) :
    first ≤ numbers.foldl max second := by
  induction numbers generalizing second with
  | nil => simpa using bounded
  | cons number rest inductionHypothesis =>
      apply inductionHypothesis
      rcases bounded with below | ⟨other, membership, below⟩
      · exact .inl (Nat.le_trans below (Nat.le_max_left _ _))
      · rcases List.mem_cons.mp membership with rfl | later
        · exact .inl (Nat.le_trans below (Nat.le_max_right _ _))
        · exact .inr ⟨other, later, below⟩

theorem length_le_longestParentPath {symbol : Symbol} {path : String}
    (membership : symbol ∈ package.symbols) (inside : symbol.parentPath = some path) :
    path.length ≤ package.longestParentPath := by
  apply le_foldl_max
  refine .inr ⟨path.length, List.mem_map.mpr ⟨symbol, membership, ?_⟩, Nat.le_refl _⟩
  rw [inside, Option.getD_some]

/-- Every step of a way lengthens the path, so no way is longer than the longest path. -/
theorem Leads.length_le {path target : String} {way : List String}
    (leads : package.Leads path way target) :
    way = [] ∨ path.length + way.length ≤ package.longestParentPath + 1 := by
  induction leads with
  | here => exact .inl rfl
  | @down path target symbol way membership inside occupied _ inductionHypothesis =>
      right
      have bound := length_le_longestParentPath membership inside
      have longer : path.length + 1 ≤ symbol.qualifiedPath.length := by
        have dot : ".".length = 1 := rfl
        simp only [Symbol.qualifiedPath, inside, String.length_append, dot]
        omega
      rcases inductionHypothesis with rfl | below
      · simp only [List.length_cons, List.length_nil]
        omega
      · rw [List.length_cons]
        omega

theorem Leads.isOccupied {path target : String} {way : List String}
    (leads : package.Leads path way target) (occupied : package.IsOccupied target) :
    package.IsOccupied path := by
  cases leads with
  | here => exact occupied
  | down membership inside _ _ => exact .inl (hasChildren_iff.mpr ⟨_, membership, inside⟩)

theorem leads_of_constantsBelow {parent : String} {way : List String}
    (present : ∀ symbol ∈ constantsBelow parent way, package.Knows symbol.identity)
    (occupied : package.IsOccupied (dotted (parent :: way))) :
    package.Leads parent way (dotted (parent :: way)) := by
  induction way generalizing parent with
  | nil =>
      rw [dotted_singleton]
      exact .here
  | cons segment rest inductionHypothesis =>
      rw [constantsBelow, List.forall_mem_cons] at present
      rw [dotted_cons_cons] at occupied ⊢
      obtain ⟨symbol, membership, rfl, -, inside⟩ := knows_iff.mp present.1
      have path : symbol.qualifiedPath = parent ++ "." ++ symbol.name := by
        rw [Symbol.qualifiedPath, inside]
      have next : package.IsOccupied symbol.qualifiedPath := by
        rw [path]
        cases rest with
        | nil => simpa using occupied
        | cons second more =>
            obtain ⟨child, listed, -, -, below⟩ := knows_iff.mp (present.2 _ List.mem_cons_self)
            exact .inl (hasChildren_iff.mpr ⟨child, listed, below⟩)
      have below := inductionHypothesis present.2 occupied
      rw [← path] at below ⊢
      exact .down membership inside next below

def moduleEntries (package : Package) : List Entry :=
  Entry.withOwners (Entry.ofSymbols package.moduleSymbols) package.methodOwners

theorem moduleDeclarations_eq :
    package.moduleDeclarations = package.scopeDeclarations package.relocations package.levelBound
      true package.moduleEntries package.moduleLevelOwners := rfl

/-- What is inside a root that stands for the whole module is declared at the module level,
and no owner is relocated there. -/
theorem serves_moduleEntries {root : String} (flattened : root ∈ package.flattenedRoots) :
    package.Serves root package.moduleEntries package.moduleLevelOwners where
  symbols := by
    intro symbol membership inside
    apply Entry.filed_withOwners
    refine List.mem_filter.mpr ⟨membership, ?_⟩
    simp [inside, flattened]
  hosted := by
    intro owner relocated
    have elsewhere := (placement_eq_relocated (mem_relocations.mp relocated).2).2
    contradiction

theorem filed_moduleEntries {symbol : Symbol} (membership : symbol ∈ package.symbols)
    (top : symbol.parentPath = none) (kind : symbol.kind ≠ .namespaceScope) :
    Entry.Filed symbol package.moduleEntries := by
  apply Entry.filed_withOwners
  refine List.mem_filter.mpr ⟨membership, ?_⟩
  simp [top, kind]

theorem Leads.way_length_le {path target : String} {way : List String}
    (leads : package.Leads path way target) : way.length ≤ package.longestParentPath + 1 := by
  rcases leads.length_le with rfl | below
  · exact Nat.zero_le _
  · exact Nat.le_trans (Nat.le_add_left _ _) below

/-- A way below a root that stands for the whole module is a way through the declarations. -/
theorem Leads.scopeAt_of_flattened {root target : String} {way : List String}
    (leads : package.Leads root way target) (flattened : root ∈ package.flattenedRoots) :
    ∃ levels innerLevel innerEntries innerOwners,
      Declaration.ScopeAt package.moduleDeclarations way
        (package.scopeDeclarations package.relocations (levels + 1) innerLevel innerEntries
          innerOwners) ∧
      package.Serves target innerEntries innerOwners :=
  leads.scopeAt_of_length_le (serves_moduleEntries flattened)
    (Nat.le_succ_of_le leads.way_length_le) true

/-- A way below any other symbol of the top level goes through the block of that symbol. -/
theorem Leads.scopeAt_of_topLevel {symbol : Symbol} {target : String} {way : List String}
    (leads : package.Leads symbol.name way target) (occupied : package.IsOccupied target)
    (membership : symbol ∈ package.symbols) (top : symbol.parentPath = none)
    (kind : symbol.kind ≠ .namespaceScope) :
    ∃ levels innerLevel innerEntries innerOwners,
      Declaration.ScopeAt package.moduleDeclarations (symbol.name :: way)
        (package.scopeDeclarations package.relocations (levels + 1) innerLevel innerEntries
          innerOwners) ∧
      package.Serves target innerEntries innerOwners := by
  have path : symbol.qualifiedPath = symbol.name := by rw [Symbol.qualifiedPath, top]
  have inUse : package.IsOccupied symbol.qualifiedPath := by
    rw [path]
    exact leads.isOccupied occupied
  obtain ⟨blockEntries, blockOwners, block, blockServes⟩ := exists_block_of_filed
    (filed_moduleEntries membership top kind) inUse (package.longestParentPath + 2) true
    package.moduleLevelOwners
  rw [path] at blockServes
  obtain ⟨levels, innerLevel, innerEntries, innerOwners, reached, serves⟩ :=
    leads.scopeAt_of_length_le blockServes leads.way_length_le false
  exact ⟨levels, innerLevel, innerEntries, innerOwners, .inside block reached, serves⟩

/-- The keywords that declare something which a value path may end in. -/
def valueKeywords : List String :=
  ["class", "function", "const", "enum", "namespace"]

theorem mem_effectiveKinds {relocations : List Relocation} {atModuleLevel : Bool} {entry : Entry}
    {kind : SymbolKind} (listed : kind ∈ entry.kinds) (different : kind ≠ .interfaceType) :
    kind ∈ effectiveKinds relocations atModuleLevel entry := by
  unfold effectiveKinds
  split
  · exact List.mem_filter.mpr ⟨listed, by simp [different]⟩
  · exact listed

section Values

variable {relocations : List Relocation} {levels : Nat} {atModuleLevel : Bool}
  {owners : List String} {entry : Entry} {declaration : Declaration}

theorem mem_group_of_valueOf
    (asValue : package.valueOf relocations atModuleLevel owners entry = some declaration) :
    declaration ∈ package.group relocations atModuleLevel owners entry levels :=
  mem_group.mpr (.inl (mem_plainDeclarations.mpr (.inr (.inr asValue))))

theorem keyword_of_typeOf
    (asType : package.typeOf relocations atModuleLevel owners entry = some declaration)
    (declares : declaresValue declaration = true) : declaration.keyword ∈ valueKeywords := by
  rcases typeDeclaration?_eq_some asType with rfl | rfl | rfl | rfl
  · simp [Declaration.keyword, valueKeywords]
  · simp [declaresValue] at declares
  · simp [Declaration.keyword, valueKeywords]
  · simp [declaresValue] at declares

/-- A function or constant whose type declares no value is declared by itself, or by the
namespace block that stands for a constant with members. -/
theorem exists_value_of_noValueType
    (noValue : (package.typeOf relocations atModuleLevel owners entry).any declaresValue = false)
    (value : .function ∈ effectiveKinds relocations atModuleLevel entry ∨
      .constant ∈ effectiveKinds relocations atModuleLevel entry) :
    ∃ declaration ∈ package.group relocations atModuleLevel owners entry levels,
      declaration.keyword ∈ valueKeywords := by
  have asValue : package.valueOf relocations atModuleLevel owners entry =
      valueDeclaration? (effectiveKinds relocations atModuleLevel entry) entry
        (package.hasBlock relocations entry) := by
    simp [valueOf, noValue]
  by_cases callable : .function ∈ effectiveKinds relocations atModuleLevel entry
  · have function : package.valueOf relocations atModuleLevel owners entry =
        some (.function entry.name (entry.returnType.getD Convention.opaqueType)) := by
      simp [asValue, valueDeclaration?, callable]
    refine ⟨_, mem_group_of_valueOf function, ?_⟩
    simp [Declaration.keyword, valueKeywords]
  · have constant := value.resolve_left callable
    cases block : package.hasBlock relocations entry with
    | true =>
        refine ⟨_, mem_group.mpr (.inr (mem_blockOf.mpr ⟨block, rfl⟩)), ?_⟩
        simp [Declaration.keyword, valueKeywords]
    | false =>
        have found : ∃ type, package.valueOf relocations atModuleLevel owners entry =
            some (.constant entry.name type) := by
          simp [asValue, valueDeclaration?, callable, constant, block]
        obtain ⟨type, found⟩ := found
        refine ⟨_, mem_group_of_valueOf found, ?_⟩
        simp [Declaration.keyword, valueKeywords]

theorem exists_value_in_group {kind : SymbolKind} (listed : kind ∈ entry.kinds)
    (value : kind ∈ [.classType, .function, .constant]) :
    ∃ declaration ∈ package.group relocations atModuleLevel owners entry levels,
      declaration.keyword ∈ valueKeywords := by
  have effective : kind ∈ effectiveKinds relocations atModuleLevel entry := by
    apply mem_effectiveKinds listed
    rintro rfl
    exact absurd value (by decide)
  cases declaring : (package.typeOf relocations atModuleLevel owners entry).any declaresValue with
  | true =>
      obtain ⟨declaration, asType, declares⟩ := (Option.any_eq_true _ _).mp declaring
      exact ⟨declaration, mem_group.mpr (.inl (mem_plainDeclarations.mpr (.inl asType))),
        keyword_of_typeOf asType declares⟩
  | false =>
      apply exists_value_of_noValueType declaring
      simp only [List.mem_cons, List.not_mem_nil, or_false] at value
      rcases value with rfl | rfl | rfl
      · -- The class itself would be a type that declares a value.
        simp [typeOf, typeDeclaration?, effective, declaresValue] at declaring
      · exact .inl effective
      · exact .inr effective

end Values

/-- A class, function or constant is declared as a value, or as the namespace block that stands
for a constant with members. -/
theorem exists_value_of_filed {symbol : Symbol} {entries : List Entry}
    (filed : Entry.Filed symbol entries)
    (value : symbol.kind ∈ [.classType, .function, .constant])
    (relocations : List Relocation) (levels : Nat) (atModuleLevel : Bool) (owners : List String) :
    ∃ declaration ∈ package.scopeDeclarations relocations (levels + 1) atModuleLevel entries owners,
      declaration.keyword ∈ valueKeywords ∧ declaration.name = symbol.name := by
  obtain ⟨entry, listed, named, kind, -⟩ := filed
  obtain ⟨declaration, inGroup, keyword⟩ := exists_value_in_group kind value
  refine ⟨declaration, mem_scopeDeclarations.mpr ⟨entry, listed, inGroup⟩, keyword, ?_⟩
  rw [name_of_mem_group inGroup, named]

end AmbientStubs.Package
