import AmbientStubs.Proofs.Declaration.Entries
import AmbientStubs.Proofs.Declaration.Reading

/-!
The declarations of one entry: at most a type, at most an alias in place of a type, at most a
value beside them and at last a namespace block.  A scope is the declarations of its entries,
one entry after the other.
-/

namespace AmbientStubs.Package

def scopeMethods (package : Package) (owners : List String) (name : String) : List Method :=
  if owners.contains name then package.methodsOf name else []

section Groups

variable (package : Package) (relocations : List Relocation) (atModuleLevel : Bool)
  (owners : List String) (entry : Entry)

def typeOf : Option Declaration :=
  typeDeclaration? (effectiveKinds relocations atModuleLevel entry) entry.name
    (package.scopeMethods owners entry.name)

def aliasOf : Option Declaration :=
  if (package.typeOf relocations atModuleLevel owners entry).isNone && atModuleLevel &&
      isRelocated relocations entry.name then
    (package.aliasTarget? entry.name).map (.typeAlias entry.name)
  else none

def valueOf : Option Declaration :=
  if (package.typeOf relocations atModuleLevel owners entry).any declaresValue then none
  else valueDeclaration? (effectiveKinds relocations atModuleLevel entry) entry
    (package.hasBlock relocations entry)

theorem plainDeclarations_eq :
    package.plainDeclarations relocations atModuleLevel owners entry =
      (package.typeOf relocations atModuleLevel owners entry).toList ++
        (package.aliasOf relocations atModuleLevel owners entry).toList ++
        (package.valueOf relocations atModuleLevel owners entry).toList := rfl

def innerEntries : List Entry :=
  Entry.withOwners (Entry.ofSymbols (entry.paths.flatMap package.childrenOf))
    (hostedIn relocations entry.paths)

def blockOf (levels : Nat) : List Declaration :=
  if package.hasBlock relocations entry then
    [.namespaceBlock entry.name (package.scopeDeclarations relocations levels false
      (package.innerEntries relocations entry) (hostedIn relocations entry.paths))]
  else []

def group (levels : Nat) : List Declaration :=
  package.plainDeclarations relocations atModuleLevel owners entry ++
    package.blockOf relocations entry levels

theorem scopeDeclarations_succ (levels : Nat) (entries : List Entry) :
    package.scopeDeclarations relocations (levels + 1) atModuleLevel entries owners =
      entries.flatMap fun entry =>
        package.group relocations atModuleLevel owners entry levels := by
  rw [scopeDeclarations]
  rfl

end Groups

theorem typeDeclaration?_eq_some {kinds : List SymbolKind} {name : String}
    {methods : List Method} {declaration : Declaration}
    (found : typeDeclaration? kinds name methods = some declaration) :
    declaration = .classBody name methods ∨ declaration = .interfaceBody name methods ∨
      declaration = .enumeration name ∨
      declaration = .typeAlias name Convention.opaqueType := by
  unfold typeDeclaration? at found
  split at found
  · exact .inl (Option.some.inj found).symm
  · split at found
    · exact .inr (.inl (Option.some.inj found).symm)
    · split at found
      · exact .inr (.inr (.inl (Option.some.inj found).symm))
      · split at found
        · exact .inr (.inr (.inr (Option.some.inj found).symm))
        · contradiction

theorem valueDeclaration?_eq_some {kinds : List SymbolKind} {entry : Entry} {block : Bool}
    {declaration : Declaration}
    (found : valueDeclaration? kinds entry block = some declaration) :
    (declaration = .function entry.name (entry.returnType.getD Convention.opaqueType)) ∨
      (∃ type, declaration = .constant entry.name type ∧ Text.SingleLine type) ∧ block = false := by
  unfold valueDeclaration? at found
  split at found
  · exact .inl (Option.some.inj found).symm
  · split at found
    · next free =>
        rw [Bool.and_eq_true, Bool.not_eq_true'] at free
        refine .inr ⟨⟨_, (Option.some.inj found).symm, ?_⟩, free.2⟩
        split <;> decide
    · contradiction

section Groups

variable {package : Package} {relocations : List Relocation} {atModuleLevel : Bool}
  {owners : List String} {entry : Entry} {declaration : Declaration}

/-- A scope has the methods of the owners that belong in it. -/
theorem scopeMethods_of_ne_nil {name : String} (nonempty : package.scopeMethods owners name ≠ []) :
    name ∈ owners ∧ package.scopeMethods owners name = package.methodsOf name := by
  unfold scopeMethods at nonempty ⊢
  split at nonempty
  · next listed =>
      rw [if_pos listed]
      exact ⟨by simpa using listed, rfl⟩
  · contradiction

theorem aliasOf_eq_some
    (found : package.aliasOf relocations atModuleLevel owners entry = some declaration) :
    package.typeOf relocations atModuleLevel owners entry = none ∧
      ∃ target, package.aliasTarget? entry.name = some target ∧
        declaration = .typeAlias entry.name target := by
  unfold aliasOf at found
  split at found
  · next untyped =>
      rw [Bool.and_eq_true, Bool.and_eq_true, Option.isNone_iff_eq_none] at untyped
      obtain ⟨target, seen, rfl⟩ := Option.map_eq_some_iff.mp found
      exact ⟨untyped.1.1, target, seen, rfl⟩
  · contradiction

theorem valueOf_eq_some
    (found : package.valueOf relocations atModuleLevel owners entry = some declaration) :
    (package.typeOf relocations atModuleLevel owners entry).any declaresValue = false ∧
      valueDeclaration? (effectiveKinds relocations atModuleLevel entry) entry
        (package.hasBlock relocations entry) = some declaration := by
  unfold valueOf at found
  split at found
  · contradiction
  · next valueless => exact ⟨by simpa using valueless, found⟩

theorem mem_plainDeclarations :
    declaration ∈ package.plainDeclarations relocations atModuleLevel owners entry ↔
      package.typeOf relocations atModuleLevel owners entry = some declaration ∨
        package.aliasOf relocations atModuleLevel owners entry = some declaration ∨
        package.valueOf relocations atModuleLevel owners entry = some declaration := by
  rw [plainDeclarations_eq, List.mem_append, List.mem_append, Option.mem_toList, Option.mem_toList,
    Option.mem_toList, or_assoc]

theorem mem_group {levels : Nat} :
    declaration ∈ package.group relocations atModuleLevel owners entry levels ↔
      declaration ∈ package.plainDeclarations relocations atModuleLevel owners entry ∨
        declaration ∈ package.blockOf relocations entry levels :=
  List.mem_append

theorem mem_blockOf {levels : Nat} :
    declaration ∈ package.blockOf relocations entry levels ↔
      package.hasBlock relocations entry = true ∧
        declaration = .namespaceBlock entry.name (package.scopeDeclarations relocations levels false
          (package.innerEntries relocations entry) (hostedIn relocations entry.paths)) := by
  unfold blockOf
  split
  · next block => simp [block]
  · next noBlock => simp [noBlock]

theorem mem_scopeDeclarations {levels : Nat} {entries : List Entry} :
    declaration ∈ package.scopeDeclarations relocations (levels + 1) atModuleLevel entries owners ↔
      ∃ entry ∈ entries,
        declaration ∈ package.group relocations atModuleLevel owners entry levels := by
  rw [scopeDeclarations_succ, List.mem_flatMap]

theorem not_mem_plainDeclarations {name : String} {members : List Declaration} :
    .namespaceBlock name members ∉
      package.plainDeclarations relocations atModuleLevel owners entry := by
  intro membership
  rcases mem_plainDeclarations.mp membership with asType | asAlias | asValue
  · rcases typeDeclaration?_eq_some asType with same | same | same | same <;> contradiction
  · obtain ⟨-, target, -, same⟩ := aliasOf_eq_some asAlias
    contradiction
  · rcases valueDeclaration?_eq_some (valueOf_eq_some asValue).2 with same | ⟨⟨_, same, -⟩, -⟩ <;>
      contradiction

/-- A namespace block is that of an entry, and holds what is inside the paths of the entry. -/
theorem exists_entry_of_namespaceBlock {levels : Nat} {entries : List Entry} {name : String}
    {members : List Declaration}
    (membership : .namespaceBlock name members ∈
      package.scopeDeclarations relocations levels atModuleLevel entries owners) :
    ∃ entry ∈ entries, entry.name = name ∧
      members = package.scopeDeclarations relocations (levels - 1) false
        (package.innerEntries relocations entry) (hostedIn relocations entry.paths) := by
  cases levels with
  | zero => simp [scopeDeclarations] at membership
  | succ levels =>
      obtain ⟨entry, listed, inGroup⟩ := mem_scopeDeclarations.mp membership
      rcases mem_group.mp inGroup with plain | block
      · exact absurd plain not_mem_plainDeclarations
      · have same := (mem_blockOf.mp block).2
        rw [Declaration.namespaceBlock.injEq] at same
        exact ⟨entry, listed, same.1.symm, same.2⟩

theorem name_of_mem_group {levels : Nat}
    (membership : declaration ∈ package.group relocations atModuleLevel owners entry levels) :
    declaration.name = entry.name := by
  rcases mem_group.mp membership with plain | block
  · rcases mem_plainDeclarations.mp plain with asType | asAlias | asValue
    · rcases typeDeclaration?_eq_some asType with rfl | rfl | rfl | rfl <;> rfl
    · obtain ⟨-, target, -, rfl⟩ := aliasOf_eq_some asAlias
      rfl
    · have declared := valueDeclaration?_eq_some (valueOf_eq_some asValue).2
      rcases declared with rfl | ⟨⟨type, rfl, -⟩, -⟩ <;> rfl
  · rw [(mem_blockOf.mp block).2]
    rfl

theorem classBody_of_mem_group {levels : Nat} {name : String} {methods : List Method}
    (membership : .classBody name methods ∈
      package.group relocations atModuleLevel owners entry levels) :
    name = entry.name ∧ methods = package.scopeMethods owners entry.name := by
  rcases mem_group.mp membership with plain | block
  · rcases mem_plainDeclarations.mp plain with asType | asAlias | asValue
    · rcases typeDeclaration?_eq_some asType with same | same | same | same
      · exact Declaration.classBody.inj same
      · contradiction
      · contradiction
      · contradiction
    · obtain ⟨-, target, -, different⟩ := aliasOf_eq_some asAlias
      contradiction
    · rcases valueDeclaration?_eq_some (valueOf_eq_some asValue).2 with
        different | ⟨⟨_, different, -⟩, -⟩ <;> contradiction
  · have different := (mem_blockOf.mp block).2
    contradiction

end Groups

end AmbientStubs.Package
