import AmbientStubs.Proofs.Declaration.Bodies
import AmbientStubs.Proofs.Declaration.Paths
import Mathlib.Data.List.Nodup

/-!
Where the bodies of a package stand.  The entries of a scope belong under the dotted paths
that the namespace blocks around the scope stand for, so a body with methods is that of an
owner that was placed there, and no place has two bodies of one name.
-/

namespace AmbientStubs.Package

open Text Declaration

/-- Whether nested namespace blocks are those of a dotted path.  A root that stands for the
whole module has no block; any other symbol of the top level has one. -/
def IsBlockPath (package : Package) (path : String) (blocks : List String) : Prop :=
  (∃ root ∈ package.flattenedRoots, segments path = root :: blocks) ∨
    segments path = blocks ∧ ∃ symbol ∈ package.topLevel,
      symbol.kind ≠ .namespaceScope ∧ blocks.head? = some symbol.name

/-- Whether the methods of an owner belong inside some namespace blocks. -/
def PlacedIn (package : Package) (owner : String) (blocks : List String) : Prop :=
  match package.placement owner with
  | .moduleLevel => blocks = []
  | .relocated container => package.IsBlockPath container blocks

def methodLines (package : Package) (owner : String) : List String :=
  (package.methodsOf owner).map fun method => method.signature ++ ";"

/-- Whether a body shows the methods of an owner, in a class if one of them is static. -/
structure ShowsMethodsOf (package : Package) (owner : String) (body : MethodBody) : Prop where
  name : body.name = owner
  lines : body.lines = package.methodLines owner
  keyword : (package.methodsOf owner).any (·.isStatic) = true → body.keyword = "class"

variable {package : Package}

theorem IsBlockPath.append {path name : String} {blocks : List String}
    (stands : package.IsBlockPath path blocks) (plain : '.' ∉ name.toList) :
    package.IsBlockPath (path ++ "." ++ name) (blocks ++ [name]) := by
  rcases stands with ⟨root, flattened, split⟩ | ⟨split, symbol, top, kind, starts⟩
  · refine .inl ⟨root, flattened, ?_⟩
    rw [segments_append plain, split, List.cons_append]
  · refine .inr ⟨?_, symbol, top, kind, ?_⟩
    · rw [segments_append plain, split]
    · rw [List.head?_append, starts, Option.some_or]

theorem placedIn_nil_iff {owner : String} :
    package.PlacedIn owner [] ↔ package.placement owner = .moduleLevel := by
  unfold PlacedIn
  cases placed : package.placement owner with
  | moduleLevel => simp
  | relocated container =>
      refine iff_of_false ?_ (by simp)
      rintro (⟨root, flattened, split⟩ | ⟨split, -⟩)
      · apply (placement_eq_relocated placed).2
        rw [← dotted_segments container, split, dotted_singleton]
        exact flattened
      · exact segments_ne_nil container split

/-- Whether the entries of a scope belong under the namespace blocks around it. -/
def Located (package : Package) (blocks : List String) (entries : List Entry) : Prop :=
  ∀ entry ∈ entries, ∀ path ∈ entry.paths, package.IsBlockPath path (blocks ++ [entry.name])

theorem Legible.not_mem_name (legible : package.Legible) {symbol : Symbol}
    (membership : symbol ∈ package.symbols) : '.' ∉ symbol.name.toList :=
  (legible.symbols symbol membership).name.not_mem (by decide)

theorem located_innerEntries (legible : package.Legible) {relocations : List Relocation}
    {entry : Entry} {blocks : List String}
    (stands : ∀ path ∈ entry.paths, package.IsBlockPath path blocks) :
    package.Located blocks (package.innerEntries relocations entry) := by
  intro inner listed path known
  obtain ⟨symbol, membership, named, rfl⟩ := (Entry.exists_symbol_of_mem listed).1 path known
  obtain ⟨parent, above, child⟩ := List.mem_flatMap.mp membership
  obtain ⟨present, inside⟩ := List.mem_filter.mp child
  rw [beq_iff_eq] at inside
  rw [Symbol.qualifiedPath, inside, ← named]
  exact (stands parent above).append (legible.not_mem_name present)

theorem located_moduleEntries (legible : package.Legible) :
    package.Located [] package.moduleEntries := by
  intro entry listed path known
  obtain ⟨symbol, membership, named, rfl⟩ := (Entry.exists_symbol_of_mem listed).1 path known
  obtain ⟨present, atModuleLevel⟩ := List.mem_filter.mp membership
  have plain := legible.not_mem_name present
  rw [List.nil_append, ← named, Symbol.qualifiedPath]
  cases inside : symbol.parentPath with
  | none =>
      simp only [inside, bne_iff_ne] at atModuleLevel
      refine .inr ⟨segments_of_not_mem plain, symbol, ?_, atModuleLevel, rfl⟩
      exact List.mem_filter.mpr ⟨present, by simp [Symbol.isTopLevel, inside]⟩
  | some parent =>
      simp only [inside, List.contains_iff_mem] at atModuleLevel
      obtain ⟨root, flattened, rfl⟩ := List.mem_map.mp atModuleLevel
      have rootPlain : '.' ∉ root.name.toList := by
        apply legible.not_mem_name
        exact (List.mem_filter.mp (List.mem_filter.mp flattened).1).1
      refine .inl ⟨root.name, atModuleLevel, ?_⟩
      rw [segments_append plain, segments_of_not_mem rootPlain, List.singleton_append]

/-- The owners that are hosted in an entry are placed in its block. -/
theorem placed_hostedIn {entry : Entry} {blocks : List String}
    (stands : ∀ path ∈ entry.paths, package.IsBlockPath path blocks) {owner : String}
    (hosted : owner ∈ hostedIn package.relocations entry.paths) :
    owner ∈ package.methodOwners ∧ package.PlacedIn owner blocks := by
  obtain ⟨container, known, relocated⟩ := mem_hostedIn.mp hosted
  obtain ⟨ofMethod, placement⟩ := mem_relocations.mp relocated
  refine ⟨ofMethod, ?_⟩
  rw [PlacedIn, placement]
  exact stands container known

theorem placed_moduleLevelOwners {owner : String} (hosted : owner ∈ package.moduleLevelOwners) :
    owner ∈ package.methodOwners ∧ package.PlacedIn owner [] := by
  obtain ⟨listed, placed⟩ := List.mem_filter.mp hosted
  refine ⟨listed, ?_⟩
  rw [PlacedIn, of_decide_eq_true placed]

section Scopes

variable {relocations : List Relocation} {levels : Nat} {atModuleLevel : Bool}
  {owners : List String} {entry : Entry} {blocks : List String} {body : MethodBody}

/-- The bodies of an entry: that of its type, and those inside its namespace block. -/
theorem bodies_group :
    bodies blocks (package.group relocations atModuleLevel owners entry levels) =
      (package.typeOf relocations atModuleLevel owners entry).toList.flatMap (bodiesIn blocks) ++
        bodies blocks (package.blockOf relocations entry levels) := by
  have noAlias : (package.aliasOf relocations atModuleLevel owners entry).toList.flatMap
      (bodiesIn blocks) = [] := by
    rw [List.flatMap_eq_nil_iff]
    intro declaration membership
    obtain ⟨-, target, -, rfl⟩ := aliasOf_eq_some (Option.mem_toList.mp membership)
    rw [bodiesIn]
  have noValue : (package.valueOf relocations atModuleLevel owners entry).toList.flatMap
      (bodiesIn blocks) = [] := by
    rw [List.flatMap_eq_nil_iff]
    intro declaration membership
    have found := (valueOf_eq_some (Option.mem_toList.mp membership)).2
    rcases valueDeclaration?_eq_some found with rfl | ⟨⟨type, rfl, -⟩, -⟩ <;> rw [bodiesIn]
  rw [group, plainDeclarations_eq, bodies_eq_flatMap, bodies_eq_flatMap, List.flatMap_append,
    List.flatMap_append, List.flatMap_append, noAlias, noValue, List.append_nil, List.append_nil]

theorem bodies_scopeDeclarations {entries : List Entry} :
    bodies blocks
        (package.scopeDeclarations relocations (levels + 1) atModuleLevel entries owners) =
      entries.flatMap fun entry =>
        bodies blocks (package.group relocations atModuleLevel owners entry levels) := by
  simp only [scopeDeclarations_succ, bodies_eq_flatMap, List.flatMap_assoc]

theorem typeDeclaration?_interfaceBody {kinds : List SymbolKind} {name : String}
    {methods shown : List Method}
    (found : typeDeclaration? kinds name methods = some (.interfaceBody name shown)) :
    methods.any (·.isStatic) = false := by
  cases static : methods.any (·.isStatic) with
  | false => rfl
  | true => simp [typeDeclaration?, static] at found

theorem showsMethodsOf_of_typeOf {declaration : Declaration}
    (asType : package.typeOf relocations atModuleLevel owners entry = some declaration)
    (membership : body ∈ bodiesIn blocks declaration) :
    body.path = blocks ∧ entry.name ∈ owners ∧ package.ShowsMethodsOf entry.name body := by
  rcases typeDeclaration?_eq_some asType with rfl | rfl | rfl | rfl <;> rw [bodiesIn] at membership
  · obtain ⟨nonempty, rfl⟩ := mem_methodBody.mp membership
    obtain ⟨listed, methods⟩ := scopeMethods_of_ne_nil nonempty
    exact ⟨rfl, listed, rfl, by rw [methods]; rfl, fun _ => rfl⟩
  · obtain ⟨nonempty, rfl⟩ := mem_methodBody.mp membership
    obtain ⟨listed, methods⟩ := scopeMethods_of_ne_nil nonempty
    refine ⟨rfl, listed, rfl, by rw [methods]; rfl, ?_⟩
    intro static
    have noStatic := typeDeclaration?_interfaceBody asType
    rw [methods, static] at noStatic
    contradiction
  · simp at membership
  · simp at membership

theorem mem_bodies_blockOf (membership : body ∈ bodies blocks
      (package.blockOf relocations entry levels)) :
    body ∈ bodies (blocks ++ [entry.name]) (package.scopeDeclarations relocations levels false
      (package.innerEntries relocations entry) (hostedIn relocations entry.paths)) := by
  rw [bodies_eq_flatMap] at membership
  obtain ⟨declaration, block, inside⟩ := List.mem_flatMap.mp membership
  rw [(mem_blockOf.mp block).2, bodiesIn] at inside
  exact inside

/-- The bodies of a scope show the methods of owners, each where the owner is placed. -/
theorem bodies_placed (legible : package.Legible) {entries : List Entry}
    (located : package.Located blocks entries)
    (placed : ∀ owner ∈ owners, owner ∈ package.methodOwners ∧ package.PlacedIn owner blocks)
    (membership : body ∈ bodies blocks (package.scopeDeclarations package.relocations levels
      atModuleLevel entries owners)) :
    body.name ∈ package.methodOwners ∧ package.ShowsMethodsOf body.name body ∧
      package.PlacedIn body.name body.path := by
  induction levels generalizing atModuleLevel entries owners blocks with
  | zero => simp [scopeDeclarations, bodies] at membership
  | succ levels inductionHypothesis =>
      rw [bodies_scopeDeclarations] at membership
      obtain ⟨entry, listed, inGroup⟩ := List.mem_flatMap.mp membership
      rw [bodies_group] at inGroup
      rcases List.mem_append.mp inGroup with own | inner
      · obtain ⟨declaration, asType, inType⟩ := List.mem_flatMap.mp own
        obtain ⟨path, hosted, shows⟩ :=
          showsMethodsOf_of_typeOf (Option.mem_toList.mp asType) inType
        rw [shows.name, path]
        exact ⟨(placed _ hosted).1, shows, (placed _ hosted).2⟩
      · have stands := located entry listed
        exact inductionHypothesis (located_innerEntries legible stands)
          (fun _ => placed_hostedIn stands) (mem_bodies_blockOf inner)

theorem ne_of_prefix_append {path : List String} {name : String}
    (below : blocks ++ [name] <+: path) : path ≠ blocks := by
  rintro rfl
  have shorter := below.length_le
  rw [List.length_append, List.length_singleton] at shorter
  omega

/-- Whether a body is that of an entry of the scope inside some blocks, or stands in the block
of the entry. -/
def ComesFrom (blocks : List String) (name : String) (body : MethodBody) : Prop :=
  (body.path = blocks ∧ body.name = name) ∨ blocks ++ [name] <+: body.path

theorem comesFrom_of_mem_group (membership : body ∈ bodies blocks
      (package.group relocations atModuleLevel owners entry levels)) :
    ComesFrom blocks entry.name body := by
  rw [bodies_group] at membership
  rcases List.mem_append.mp membership with own | inner
  · obtain ⟨declaration, asType, inType⟩ := List.mem_flatMap.mp own
    obtain ⟨path, -, shows⟩ := showsMethodsOf_of_typeOf (Option.mem_toList.mp asType) inType
    exact .inl ⟨path, shows.name⟩
  · exact .inr (prefix_path_of_mem_bodies _ (mem_bodies_blockOf inner))

theorem ComesFrom.key_ne {first second : MethodBody} {firstName secondName : String}
    (fromFirst : ComesFrom blocks firstName first) (fromSecond : ComesFrom blocks secondName second)
    (different : firstName ≠ secondName) :
    (first.path, first.name) ≠ (second.path, second.name) := by
  intro same
  obtain ⟨samePath, sameName⟩ := Prod.mk.inj same
  rcases fromFirst with ⟨firstPath, named⟩ | firstBelow
  · rcases fromSecond with ⟨-, otherNamed⟩ | secondBelow
    · exact different (by rw [← named, ← otherNamed, sameName])
    · exact ne_of_prefix_append secondBelow (samePath ▸ firstPath)
  · rcases fromSecond with ⟨secondPath, -⟩ | secondBelow
    · exact ne_of_prefix_append firstBelow (samePath ▸ secondPath)
    · rw [samePath] at firstBelow
      have sameLength : (blocks ++ [firstName]).length = (blocks ++ [secondName]).length := by simp
      have equal := (List.prefix_of_prefix_length_le firstBelow secondBelow
        (Nat.le_of_eq sameLength)).eq_of_length sameLength
      exact different (by simpa using equal)

theorem nodup_keys_typeOf :
    (((package.typeOf relocations atModuleLevel owners entry).toList.flatMap
      (bodiesIn blocks)).map fun body => (body.path, body.name)).Nodup := by
  have ofMethods (keyword : String) (methods : List Method) :
      ((methodBody blocks keyword entry.name methods).map
        fun body => (body.path, body.name)).Nodup := by
    unfold methodBody
    split
    · exact List.nodup_nil
    · exact List.nodup_singleton _
  cases asType : package.typeOf relocations atModuleLevel owners entry with
  | none => exact List.nodup_nil
  | some declaration =>
      rw [Option.toList_some, List.flatMap_singleton]
      rcases typeDeclaration?_eq_some asType with rfl | rfl | rfl | rfl <;> rw [bodiesIn]
      · exact ofMethods _ _
      · exact ofMethods _ _
      · exact List.nodup_nil
      · exact List.nodup_nil

theorem nodup_keys_group
    (inside : ((bodies (blocks ++ [entry.name]) (package.scopeDeclarations relocations levels false
      (package.innerEntries relocations entry) (hostedIn relocations entry.paths))).map
        fun body => (body.path, body.name)).Nodup) :
    ((bodies blocks (package.group relocations atModuleLevel owners entry levels)).map
      fun body => (body.path, body.name)).Nodup := by
  rw [bodies_group, List.map_append, List.nodup_append]
  refine ⟨nodup_keys_typeOf, ?_, ?_⟩
  · unfold blockOf
    split
    · rw [bodies_eq_flatMap, List.flatMap_singleton, bodiesIn]
      exact inside
    · simp [bodies]
  · intro ownKey inOwn innerKey inInner
    obtain ⟨own, ofType, rfl⟩ := List.mem_map.mp inOwn
    obtain ⟨inner, ofBlock, rfl⟩ := List.mem_map.mp inInner
    obtain ⟨declaration, asType, inType⟩ := List.mem_flatMap.mp ofType
    obtain ⟨path, -, -⟩ := showsMethodsOf_of_typeOf (Option.mem_toList.mp asType) inType
    intro same
    apply ne_of_prefix_append (prefix_path_of_mem_bodies _ (mem_bodies_blockOf ofBlock))
    rw [← (Prod.mk.inj same).1, path]

theorem nodup_keys_bodies {symbols : List Symbol} {added : List String} :
    ((bodies blocks (package.scopeDeclarations relocations levels atModuleLevel
      (Entry.withOwners (Entry.ofSymbols symbols) added) owners)).map
        fun body => (body.path, body.name)).Nodup := by
  induction levels generalizing atModuleLevel symbols added owners blocks with
  | zero => simp [scopeDeclarations, bodies]
  | succ levels inductionHypothesis =>
      have distinct := Entry.nodup_names symbols added
      rw [bodies_scopeDeclarations, List.map_flatMap, List.nodup_flatMap]
      refine ⟨?_, ?_⟩
      · intro entry _
        exact nodup_keys_group inductionHypothesis
      · rw [List.Nodup, List.pairwise_map] at distinct
        refine distinct.imp ?_
        intro first second different key inFirst inSecond
        obtain ⟨firstBody, firstGroup, rfl⟩ := List.mem_map.mp inFirst
        obtain ⟨secondBody, secondGroup, same⟩ := List.mem_map.mp inSecond
        exact (comesFrom_of_mem_group firstGroup).key_ne (comesFrom_of_mem_group secondGroup)
          different same.symm

end Scopes

end AmbientStubs.Package
