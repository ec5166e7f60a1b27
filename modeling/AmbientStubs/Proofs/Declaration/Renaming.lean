import AmbientStubs.Proofs.Declaration.Levels

/-!
Renaming the roots of a package.  Of the names that occur only as roots which stand for the whole
module nothing is left in the declarations, so renaming them one to one leaves the text as it is.
Every step of the layout commutes with the renaming: where paths are compared they agree as
before, and where a path is written its root is either left out or not renamed.
-/

namespace AmbientStubs

open Text

namespace Declaration

mutual

def mapMethods (change : Method → Method) : Declaration → Declaration
  | classBody name methods => classBody name (methods.map change)
  | interfaceBody name methods => interfaceBody name (methods.map change)
  | enumeration name => enumeration name
  | typeAlias name target => typeAlias name target
  | function name returnType => function name returnType
  | constant name type => constant name type
  | namespaceBlock name members => namespaceBlock name (mapAllMethods change members)

def mapAllMethods (change : Method → Method) : List Declaration → List Declaration
  | [] => []
  | declaration :: rest => mapMethods change declaration :: mapAllMethods change rest

end

theorem mapAllMethods_eq_map (change : Method → Method) (declarations : List Declaration) :
    mapAllMethods change declarations = declarations.map (mapMethods change) := by
  induction declarations with
  | nil => rw [mapAllMethods, List.map_nil]
  | cons declaration rest inductionHypothesis =>
      rw [mapAllMethods, inductionHypothesis, List.map_cons]

theorem bodyLines_map {change : Method → Method}
    (sameSignature : ∀ method, (change method).signature = method.signature) (depth : Nat)
    (head : String) (methods : List Method) :
    bodyLines depth head (methods.map change) = bodyLines depth head methods := by
  simp [bodyLines, sameSignature, Function.comp_def]

mutual

theorem lines_mapMethods {change : Method → Method}
    (sameSignature : ∀ method, (change method).signature = method.signature) (depth : Nat) :
    ∀ declaration : Declaration,
      lines depth (mapMethods change declaration) = lines depth declaration
  | classBody name methods | interfaceBody name methods => by
      rw [mapMethods, lines, lines, bodyLines_map sameSignature]
  | enumeration name | typeAlias name target | function name returnType | constant name type => by
      rw [mapMethods]
  | namespaceBlock name members => by
      rw [mapMethods, lines, lines, scopeLines_mapAllMethods sameSignature (depth + 1) members]

/-- The lines of a scope show nothing of its methods but their signatures. -/
theorem scopeLines_mapAllMethods {change : Method → Method}
    (sameSignature : ∀ method, (change method).signature = method.signature) (depth : Nat) :
    ∀ declarations : List Declaration,
      scopeLines depth (mapAllMethods change declarations) = scopeLines depth declarations
  | [] => by rw [mapAllMethods]
  | declaration :: rest => by
      rw [mapAllMethods, scopeLines, scopeLines, lines_mapMethods sameSignature depth declaration,
        scopeLines_mapAllMethods sameSignature depth rest]

end

end Declaration

/-- A change of the names of roots that is one to one on the names that occur. -/
structure RootRenaming where
  name : String → String
  Occurs : String → Prop
  injective : ∀ first second, Occurs first → Occurs second → name first = name second →
    first = second
  plain : ∀ root, '.' ∉ root.toList → '.' ∉ (name root).toList

namespace RootRenaming

variable (roots : RootRenaming)

def path (path : String) : String :=
  match segments path with
  | [] => path
  | root :: way => dotted (roots.name root :: way)

def OccursIn (path : String) : Prop :=
  ∀ root ∈ (segments path).head?, roots.Occurs root

def symbol (symbol : Symbol) : Symbol :=
  match symbol.parentPath with
  | some parent => { symbol with parentPath := some (roots.path parent) }
  | none =>
      if roots.name symbol.name = symbol.name then symbol
      else { symbol with
        name := roots.name symbol.name
        signature := symbol.signature.map fun _ =>
          Convention.rootSignature (roots.name symbol.name) symbol.kind }

def method (method : Method) : Method :=
  { method with qualifier := roots.path method.qualifier }

def entry (entry : Package.Entry) : Package.Entry :=
  { entry with paths := entry.paths.map roots.path }

def relocation (relocation : Package.Relocation) : Package.Relocation :=
  { relocation with container := roots.path relocation.container }

section Paths

variable {roots}

theorem path_eq {path root : String} {way : List String} (split : segments path = root :: way) :
    roots.path path = dotted (roots.name root :: way) := by
  rw [RootRenaming.path, split]

theorem segments_path {path root : String} {way : List String}
    (split : segments path = root :: way) :
    segments (roots.path path) = roots.name root :: way := by
  rw [path_eq split]
  have plain : ∀ segment ∈ root :: way, '.' ∉ segment.toList := by
    intro segment membership
    exact not_mem_of_mem_segments (split ▸ membership)
  rw [List.forall_mem_cons] at plain
  exact segments_dotted_cons (roots.plain root plain.1) plain.2

theorem path_of_not_mem {root : String} (plain : '.' ∉ root.toList) :
    roots.path root = roots.name root := by
  rw [path_eq (segments_of_not_mem plain), dotted_singleton]

theorem path_append {path name : String} (plain : '.' ∉ name.toList) :
    roots.path (path ++ "." ++ name) = roots.path path ++ "." ++ name := by
  obtain ⟨root, way, split⟩ := List.exists_cons_of_ne_nil (segments_ne_nil path)
  have longer : segments (path ++ "." ++ name) = root :: (way ++ [name]) := by
    rw [segments_append plain, split, List.cons_append]
  rw [path_eq longer, ← dotted_segments (roots.path path ++ "." ++ name),
    segments_append plain, segments_path split, List.cons_append]

theorem path_inj {first second : String} (occursFirst : roots.OccursIn first)
    (occursSecond : roots.OccursIn second) :
    roots.path first = roots.path second ↔ first = second := by
  refine ⟨?_, fun same => same ▸ rfl⟩
  intro same
  obtain ⟨root, way, split⟩ := List.exists_cons_of_ne_nil (segments_ne_nil first)
  obtain ⟨other, otherWay, otherSplit⟩ := List.exists_cons_of_ne_nil (segments_ne_nil second)
  have parts := congrArg segments same
  rw [segments_path split, segments_path otherSplit, List.cons.injEq] at parts
  have sameRoot := roots.injective root other (occursFirst root (by simp [split]))
    (occursSecond other (by simp [otherSplit])) parts.1
  rw [← dotted_segments first, ← dotted_segments second, split, otherSplit, sameRoot, parts.2]

theorem occursIn_append {path name : String} (plain : '.' ∉ name.toList) :
    roots.OccursIn (path ++ "." ++ name) ↔ roots.OccursIn path := by
  obtain ⟨root, way, split⟩ := List.exists_cons_of_ne_nil (segments_ne_nil path)
  simp [OccursIn, segments_append plain, split]

theorem occursIn_of_not_mem {root : String} (plain : '.' ∉ root.toList) :
    roots.OccursIn root ↔ roots.Occurs root := by
  simp [OccursIn, segments_of_not_mem plain]

theorem contains_map_path {paths : List String} {path : String} (occurs : roots.OccursIn path)
    (occurAll : ∀ other ∈ paths, roots.OccursIn other) :
    (paths.map roots.path).contains (roots.path path) = paths.contains path := by
  rw [Bool.eq_iff_iff, List.contains_iff_mem, List.contains_iff_mem, List.mem_map]
  constructor
  · rintro ⟨other, listed, same⟩
    exact (path_inj (occurAll other listed) occurs).mp same ▸ listed
  · intro listed
    exact ⟨path, listed, rfl⟩

end Paths

section Symbols

variable {roots} (symbol : Symbol)

@[simp]
theorem kind_symbol : (roots.symbol symbol).kind = symbol.kind := by
  unfold RootRenaming.symbol
  split
  · rfl
  · split <;> rfl

@[simp]
theorem returnType_symbol : (roots.symbol symbol).returnType = symbol.returnType := by
  unfold RootRenaming.symbol
  split
  · rfl
  · split <;> rfl

@[simp]
theorem parentPath_symbol :
    (roots.symbol symbol).parentPath = symbol.parentPath.map roots.path := by
  unfold RootRenaming.symbol
  split
  · next inside => simp [inside]
  · next top => split <;> simp [top]

@[simp]
theorem isTopLevel_symbol : (roots.symbol symbol).isTopLevel = symbol.isTopLevel := by
  simp [Symbol.isTopLevel]

variable {symbol}

theorem name_symbol_of_top (top : symbol.parentPath = none) :
    (roots.symbol symbol).name = roots.name symbol.name := by
  unfold RootRenaming.symbol
  simp only [top]
  split
  · next kept => exact kept.symm
  · rfl

theorem name_symbol_of_inside {parent : String} (inside : symbol.parentPath = some parent) :
    (roots.symbol symbol).name = symbol.name := by
  simp [RootRenaming.symbol, inside]

theorem symbol_eq_self (top : symbol.parentPath = none)
    (kept : roots.name symbol.name = symbol.name) : roots.symbol symbol = symbol := by
  simp [RootRenaming.symbol, top, kept]

theorem qualifiedPath_symbol (plain : '.' ∉ symbol.name.toList) :
    (roots.symbol symbol).qualifiedPath = roots.path symbol.qualifiedPath := by
  rw [Symbol.qualifiedPath, Symbol.qualifiedPath, parentPath_symbol]
  cases inside : symbol.parentPath with
  | none =>
      rw [Option.map_none, name_symbol_of_top inside]
      exact (path_of_not_mem plain).symm
  | some parent =>
      rw [Option.map_some, name_symbol_of_inside inside]
      exact (path_append plain).symm

end Symbols

section Entries

open Package

variable {roots}

theorem including_map_path {paths : List String} {path : String} (occurs : roots.OccursIn path)
    (occurAll : ∀ other ∈ paths, roots.OccursIn other) :
    Entry.including (paths.map roots.path) (roots.path path) =
      (Entry.including paths path).map roots.path := by
  unfold Entry.including
  rw [contains_map_path occurs occurAll]
  split
  · rfl
  · rw [List.map_append, List.map_singleton]

def OccurInAll (roots : RootRenaming) (entries : List Entry) : Prop :=
  ∀ entry ∈ entries, ∀ path ∈ entry.paths, roots.OccursIn path

/-- A symbol whose own name is not renamed. -/
structure Keeps (roots : RootRenaming) (symbol : Symbol) : Prop where
  plain : '.' ∉ symbol.name.toList
  occurs : roots.OccursIn symbol.qualifiedPath
  name : (roots.symbol symbol).name = symbol.name

theorem Keeps.entry_add {entry : Entry} {symbol : Symbol} (keeps : roots.Keeps symbol)
    (occurAll : ∀ path ∈ entry.paths, roots.OccursIn path) :
    (roots.entry entry).add (roots.symbol symbol) = roots.entry (entry.add symbol) := by
  simp only [RootRenaming.entry, Entry.add, kind_symbol, returnType_symbol,
    qualifiedPath_symbol keeps.plain, including_map_path keeps.occurs occurAll]

theorem Keeps.file {symbol : Symbol} (keeps : roots.Keeps symbol) {entries : List Entry}
    (occurAll : roots.OccurInAll entries) :
    Entry.file (roots.symbol symbol) (entries.map roots.entry) =
      (Entry.file symbol entries).map roots.entry := by
  induction entries with
  | nil =>
      have fresh : (roots.entry { name := symbol.name }).add (roots.symbol symbol) =
          roots.entry (Entry.add { name := symbol.name } symbol) :=
        keeps.entry_add (by simp)
      rw [List.map_nil, Entry.file, Entry.file, List.map_singleton, ← fresh, keeps.name]
      rfl
  | cons entry rest inductionHypothesis =>
      rw [OccurInAll, List.forall_mem_cons] at occurAll
      rw [List.map_cons, Entry.file, Entry.file, keeps.name]
      have sameName : (roots.entry entry).name = entry.name := rfl
      rw [sameName]
      split
      · rw [keeps.entry_add occurAll.1, List.map_cons]
      · rw [inductionHypothesis occurAll.2, List.map_cons]

theorem Keeps.occurInAll_file {symbol : Symbol} (keeps : roots.Keeps symbol) {entries : List Entry}
    (occurAll : roots.OccurInAll entries) : roots.OccurInAll (Entry.file symbol entries) := by
  have add : ∀ entry : Entry, entry.name = symbol.name →
      (∀ path ∈ entry.paths, roots.OccursIn path) →
      ∀ path ∈ (entry.add symbol).paths, roots.OccursIn path := by
    intro entry _ before path known
    rcases Entry.mem_including.mp known with earlier | rfl
    · exact before path earlier
    · exact keeps.occurs
  exact Entry.forall_mem_file (add _ rfl (by simp)) add occurAll

theorem ofSymbols_map {symbols : List Symbol} (keeps : ∀ symbol ∈ symbols, roots.Keeps symbol) :
    Entry.ofSymbols (symbols.map roots.symbol) = (Entry.ofSymbols symbols).map roots.entry := by
  have general : ∀ entries : List Entry, roots.OccurInAll entries →
      (symbols.map roots.symbol).foldl (fun entries symbol => Entry.file symbol entries)
          (entries.map roots.entry) =
        (symbols.foldl (fun entries symbol => Entry.file symbol entries) entries).map
          roots.entry := by
    induction symbols with
    | nil => exact fun entries _ => rfl
    | cons symbol rest inductionHypothesis =>
        rw [List.forall_mem_cons] at keeps
        intro entries occurAll
        rw [List.map_cons, List.foldl_cons, List.foldl_cons, keeps.1.file occurAll]
        exact inductionHypothesis keeps.2 _ (keeps.1.occurInAll_file occurAll)
  exact general [] (by simp [OccurInAll])

theorem withOwners_map (entries : List Entry) (owners : List String) :
    Entry.withOwners (entries.map roots.entry) owners =
      (Entry.withOwners entries owners).map roots.entry := by
  unfold Entry.withOwners
  induction owners generalizing entries with
  | nil => rfl
  | cons owner rest inductionHypothesis =>
      have known : (entries.map roots.entry).any (·.name == owner) =
          entries.any (·.name == owner) := by
        rw [List.any_map]
        rfl
      rw [List.foldl_cons, List.foldl_cons, known]
      split
      · exact inductionHypothesis entries
      · rw [← inductionHypothesis, List.map_append]
        rfl

theorem occurInAll_withOwners {symbols : List Symbol} {owners : List String}
    (keeps : ∀ symbol ∈ symbols, roots.Keeps symbol) :
    roots.OccurInAll (Entry.withOwners (Entry.ofSymbols symbols) owners) := by
  intro entry listed path known
  obtain ⟨symbol, membership, -, rfl⟩ := (Entry.exists_symbol_of_mem listed).1 path known
  exact (keeps symbol membership).occurs

end Entries

end RootRenaming

end AmbientStubs
