import AmbientStubs.Proofs.Package.Model

/-!
Collecting builds exactly the model that the uses call for: the packages are the external
ones that are imported, and a package holds the imports that name it and what the accesses
resolved to it call for, segment by segment, with the first record of every identity.
-/

namespace AmbientStubs.Package

open Text Convention

/-- The path of an access from the symbol of its import on: the segments of the access, the
first one replaced by the root of the import. -/
def usePath (imported : Import) (access : Access) : List String :=
  imported.rootName :: membersOf access

/-- The symbols below the root that an access with the given path calls for. -/
inductive CallsForSymbol (access : Access) (path : List String) : Symbol.Identity → Prop where
  /-- A segment between the root and the class of a static call. -/
  | beforeClass {index : Nat} {name : String} (static : access.isStaticCall = true)
      (long : 3 ≤ path.length) (below : 1 ≤ index) (before : index < path.length - 2)
      (segment : path[index]? = some name) :
      CallsForSymbol access path ⟨name, .constant, some (dotted (path.take index))⟩
  /-- A segment between the root and the last segment of any other access. -/
  | beforeLast {index : Nat} {name : String} (plain : access.isStaticCall = false)
      (long : 2 ≤ path.length) (below : 1 ≤ index) (before : index < path.length - 1)
      (segment : path[index]? = some name) :
      CallsForSymbol access path ⟨name, .constant, some (dotted (path.take index))⟩
  | last {name : String} (plain : access.isStaticCall = false) (long : 2 ≤ path.length)
      (segment : path[path.length - 1]? = some name) :
      CallsForSymbol access path
        ⟨name, memberKind access.context, some (dotted (path.take (path.length - 1)))⟩

inductive CallsForMethod (access : Access) (path : List String) : Method.Identity → Prop where
  | ofClass {className : String} (static : access.isStaticCall = true)
      (long : 3 ≤ path.length) (named : access.className = some className) :
      CallsForMethod access path ⟨access.member, className, true⟩
  /-- A method call on a member, which is taken for the owner of the method. -/
  | ofMember {name owner : String} (plain : access.isStaticCall = false)
      (call : access.context = .methodCall) (long : 3 ≤ path.length)
      (segment : path[path.length - 1]? = some name)
      (before : path[path.length - 2]? = some owner) :
      CallsForMethod access path ⟨name, owner, false⟩

theorem mem_map_constantsBelow {root : String} {way : List String} {identity : Symbol.Identity}
    (after : List String) :
    identity ∈ (constantsBelow root way).map Symbol.identity ↔
      ∃ index name, 1 ≤ index ∧ index < way.length + 1 ∧
        (root :: (way ++ after))[index]? = some name ∧
        identity = ⟨name, .constant, some (dotted ((root :: (way ++ after)).take index))⟩ := by
  simp only [List.mem_map, mem_constantsBelow]
  constructor
  · rintro ⟨symbol, ⟨before, name, rest, rfl, rfl⟩, rfl⟩
    refine ⟨before.length + 1, name, by omega, by simp, by simp, ?_⟩
    simp [Symbol.identity]
  · rintro ⟨index, name, below, bound, segment, rfl⟩
    obtain ⟨place, rfl⟩ : ∃ place, index = place + 1 := ⟨index - 1, by omega⟩
    have inside : place < way.length := by omega
    rw [List.getElem?_cons_succ, List.getElem?_append_left inside,
      List.getElem?_eq_getElem inside, Option.some.injEq] at segment
    refine ⟨_, ⟨way.take place, name, way.drop (place + 1), ?_, rfl⟩, ?_⟩
    · rw [← segment]
      simp
    · have early : (way ++ after).take place = way.take place := by
        rw [List.take_append_of_le_length (by omega)]
      simp [Symbol.identity, early]

theorem mem_map_nestedSymbols_of_static {imported : Import} {access : Access}
    {identity : Symbol.Identity} (static : access.isStaticCall = true) :
    identity ∈ (nestedSymbols imported access).map Symbol.identity ↔
      CallsForSymbol access (usePath imported access) identity := by
  have split : (membersOf access).dropLast.dropLast ++
      (membersOf access).drop ((membersOf access).length - 2) = membersOf access := by
    rw [List.dropLast_eq_take, List.dropLast_eq_take, List.take_take]
    simp only [List.length_take]
    rw [show min (min ((membersOf access).length - 1) (membersOf access).length - 1)
      ((membersOf access).length - 1) = (membersOf access).length - 2 by omega]
    exact List.take_append_drop _ _
  simp only [nestedSymbols, static, ↓reduceIte]
  rw [mem_map_constantsBelow ((membersOf access).drop ((membersOf access).length - 2)),
    split]
  constructor
  · rintro ⟨index, name, below, bound, segment, rfl⟩
    simp only [List.length_dropLast] at bound
    exact .beforeClass static (by simp [usePath]; omega) below (by simp [usePath]; omega) segment
  · rintro (⟨-, long, below, before, segment⟩ | ⟨plain⟩ | ⟨plain⟩)
    · rename_i index name
      simp only [usePath, List.length_cons] at before
      exact ⟨index, name, below, by simp; omega, segment, rfl⟩
    · simp [static] at plain
    · simp [static] at plain

theorem mem_map_nestedSymbols_of_plain {imported : Import} {access : Access}
    {identity : Symbol.Identity} (plain : access.isStaticCall = false) :
    identity ∈ (nestedSymbols imported access).map Symbol.identity ↔
      CallsForSymbol access (usePath imported access) identity := by
  simp only [nestedSymbols, plain, Bool.false_eq_true, ↓reduceIte]
  rcases List.eq_nil_or_concat (membersOf access) with empty | ⟨way, member, shape⟩
  · rw [empty]
    simp only [List.dropLast_nil, List.getLast?_nil, constantsBelow]
    constructor
    · simp
    · rintro (⟨static⟩ | ⟨-, long⟩ | ⟨-, long⟩)
      · simp [plain] at static
      · simp [usePath, empty] at long
      · simp [usePath, empty] at long
  · rw [List.concat_eq_append] at shape
    have path : usePath imported access = imported.rootName :: (way ++ [member]) := by
      rw [usePath, shape]
    rw [path, shape]
    simp only [List.dropLast_concat, List.getLast?_concat, Option.map_some, Option.toList_some,
      List.map_append, List.mem_append, List.map_cons, List.map_nil, List.mem_singleton]
    rw [mem_map_constantsBelow [member]]
    constructor
    · rintro (⟨index, name, below, bound, segment, rfl⟩ | rfl)
      · exact .beforeLast plain (by simp) below (by simpa using bound) segment
      · have parent : (imported.rootName :: (way ++ [member])).take (way.length + 1) =
            imported.rootName :: way := by simp
        have last := @CallsForSymbol.last access (imported.rootName :: (way ++ [member])) member
          plain (by simp) (by simp)
        simpa [parent] using last
    · rintro (⟨static⟩ | ⟨-, long, below, before, segment⟩ | ⟨-, long, segment⟩)
      · simp [plain] at static
      · rename_i index name
        exact .inl ⟨index, name, below, by simpa using before, segment, rfl⟩
      · right
        simp only [List.length_cons, List.length_append, List.length_nil, Nat.add_sub_cancel,
          List.getElem?_cons_succ, List.getElem?_concat_length, Option.some.injEq,
          Nat.zero_add] at segment
        simp [← segment]

theorem mem_map_nestedSymbols {imported : Import} {access : Access}
    {identity : Symbol.Identity} :
    identity ∈ (nestedSymbols imported access).map Symbol.identity ↔
      CallsForSymbol access (usePath imported access) identity := by
  cases shape : access.isStaticCall with
  | true => exact mem_map_nestedSymbols_of_static shape
  | false => exact mem_map_nestedSymbols_of_plain shape

theorem mem_map_observedMethod? {settings : InferenceSettings} {imported : Import}
    {access : Access} {identity : Method.Identity} :
    identity ∈ (observedMethod? settings imported access).toList.map Method.identity ↔
      CallsForMethod access (usePath imported access) identity := by
  rcases eq_nil_or_singleton_or_append_pair (membersOf access) with
      shape | ⟨only, shape⟩ | ⟨way, owner, last, shape⟩
  · constructor
    · simp [observedMethod?, shape]
    · rintro (⟨-, long⟩ | ⟨-, -, long⟩) <;> simp [usePath, shape] at long
  · constructor
    · simp [observedMethod?, shape]
    · rintro (⟨-, long⟩ | ⟨-, -, long⟩) <;> simp [usePath, shape] at long
  · have path : usePath imported access = imported.rootName :: (way ++ [owner, last]) := by
      rw [usePath, shape]
    have lastSegment : (usePath imported access)[(usePath imported access).length - 1]? =
        some last := by simp [path]
    have ownerSegment : (usePath imported access)[(usePath imported access).length - 2]? =
        some owner := by simp [path]
    have long : 3 ≤ (usePath imported access).length := by simp [path]
    simp only [observedMethod?, shape, List.reverse_append, List.reverse_cons, List.reverse_nil,
      List.nil_append, List.cons_append]
    constructor
    · split
      · next className context named =>
          intro membership
          obtain rfl : identity = ⟨access.member, className, true⟩ := by simpa using membership
          exact .ofClass (by simp [Access.isStaticCall, context, named]) long named
      · next context =>
          intro membership
          obtain rfl : identity = ⟨last, owner, false⟩ := by simpa using membership
          exact .ofMember (by simp [Access.isStaticCall, context]) context long lastSegment
            ownerSegment
      · simp
    · rintro (⟨static, -, named⟩ | ⟨plain, call, -, segment, before⟩)
      · have context : access.context = .staticCall := by
          simp only [Access.isStaticCall, Bool.and_eq_true, decide_eq_true_eq] at static
          exact static.1
        simp [context, named]
      · rw [lastSegment, Option.some.injEq] at segment
        rw [ownerSegment, Option.some.injEq] at before
        simp [call, segment, before]

theorem mem_map_nested_iff {package : Package} {identity : Symbol.Identity}
    (inside : identity.parentPath.isSome = true) :
    identity ∈ package.nested.map Symbol.identity ↔
      identity ∈ package.symbols.map Symbol.identity := by
  simp only [nested, List.mem_map, List.mem_filter]
  constructor
  · rintro ⟨symbol, ⟨membership, -⟩, same⟩
    exact ⟨symbol, membership, same⟩
  · rintro ⟨symbol, membership, rfl⟩
    refine ⟨symbol, ⟨membership, ?_⟩, rfl⟩
    simpa [Symbol.isTopLevel, Symbol.identity] using inside

theorem uses_ne_nil_iff {modulePath : String} {summaries : List SourceSummary} :
    uses modulePath summaries ≠ [] ↔
      ∃ summary ∈ summaries, ∃ imported ∈ summary.imports,
        imported.modulePath = modulePath := by
  constructor
  · intro nonempty
    obtain ⟨use, membership⟩ := List.exists_mem_of_ne_nil _ nonempty
    obtain ⟨summary, inList, inFile⟩ := List.mem_flatMap.mp membership
    rcases mem_usesIn inFile with ⟨imported, found, same, -⟩ | ⟨imported, found, same, -⟩
    · exact ⟨summary, inList, imported, found, same⟩
    · exact ⟨summary, inList, imported, found, same⟩
  · rintro ⟨summary, inList, imported, found, same⟩
    refine List.ne_nil_of_mem (a := Use.ofImport imported) (List.mem_flatMap.mpr
      ⟨summary, inList, List.mem_append_left _ (List.mem_map.mpr ⟨imported, ?_, rfl⟩)⟩)
    exact List.mem_filter.mpr ⟨found, beq_iff_eq.mpr same⟩

theorem startsWith_of_mem_keys_collect {settings : InferenceSettings}
    {summaries : List SourceSummary} {modulePath : String}
    (listed : modulePath ∈ (collect settings summaries).keys) :
    startsWith modulePath "." = false := by
  rw [Catalog.mem_keys_iff] at listed
  obtain ⟨package, found⟩ := Option.isSome_iff_exists.mp listed
  exact external_of_get?_collect settings modulePath found

/-- The packages collected are the external ones that are imported. -/
theorem mem_keys_collect_iff {settings : InferenceSettings} {summaries : List SourceSummary}
    {modulePath : String} :
    modulePath ∈ (collect settings summaries).keys ↔
      ∃ summary ∈ summaries, ∃ imported ∈ summary.imports,
        imported.isExternal = true ∧ imported.modulePath = modulePath := by
  constructor
  · intro listed
    have external := startsWith_of_mem_keys_collect listed
    rw [Catalog.mem_keys_iff, get?_collect settings modulePath summaries external] at listed
    have nonempty : uses modulePath summaries ≠ [] := by
      intro empty
      simp [empty] at listed
    obtain ⟨summary, inList, imported, inFile, rfl⟩ := uses_ne_nil_iff.mp nonempty
    exact ⟨summary, inList, imported, inFile, by simpa [Import.isExternal] using external, rfl⟩
  · rintro ⟨summary, inList, imported, inFile, external, rfl⟩
    have nonempty : uses imported.modulePath summaries ≠ [] :=
      uses_ne_nil_iff.mpr ⟨summary, inList, imported, inFile, rfl⟩
    have outside : startsWith imported.modulePath "." = false := by
      simpa [Import.isExternal] using external
    rw [Catalog.mem_keys_iff, get?_collect settings _ summaries outside]
    simp [nonempty]

/-- The packages collected are the external ones that are imported.  Each holds the imports
that name it, in order; below its roots and among its methods it holds exactly what the
accesses resolved to it call for; and it keeps the first record offered for an identity. -/
theorem collect_holds_exactly_what_uses_call_for (settings : InferenceSettings)
    (summaries : List SourceSummary) :
    (∀ modulePath, modulePath ∈ (collect settings summaries).keys ↔
      ∃ summary ∈ summaries, ∃ imported ∈ summary.imports,
        imported.isExternal = true ∧ imported.modulePath = modulePath) ∧
    (∀ modulePath ∈ (collect settings summaries).keys, startsWith modulePath "." = false) ∧
    ∀ modulePath package, (collect settings summaries).get? modulePath = some package →
      package.imports =
        summaries.flatMap (fun summary =>
          summary.imports.filter (·.modulePath == modulePath)) ∧
      (∀ identity : Symbol.Identity, identity.parentPath.isSome = true →
        (identity ∈ package.symbols.map Symbol.identity ↔
          ∃ use ∈ resolved modulePath summaries,
            CallsForSymbol use.2 (usePath use.1 use.2) identity)) ∧
      (∀ identity : Method.Identity, identity ∈ package.methods.map Method.identity ↔
        ∃ use ∈ resolved modulePath summaries,
          CallsForMethod use.2 (usePath use.1 use.2) identity) ∧
      (∀ name, package.hasTopLevel name = true ↔
        (∃ imported ∈ package.imports, imported.rootName = name) ∨
          ∃ use ∈ resolved modulePath summaries, staticOwner? use.2 = some name) ∧
      package.nested =
        appendAllNew Symbol.identity [] ((resolved modulePath summaries).flatMap fun use =>
          nestedSymbols use.1 use.2) ∧
      package.methods =
        appendAllNew Method.identity [] ((resolved modulePath summaries).flatMap fun use =>
          (observedMethod? settings use.1 use.2).toList) := by
  refine ⟨?_, ?_, ?_⟩
  · intro modulePath
    exact mem_keys_collect_iff
  · intro modulePath listed
    exact startsWith_of_mem_keys_collect listed
  · intro modulePath package found
    obtain rfl := eq_ofUses_of_get?_collect found
    have nestedEq := nested_ofUses settings modulePath summaries
    have methodsEq := methods_ofUses settings modulePath summaries
    have importsEq := imports_ofUses settings modulePath summaries
    refine ⟨importsEq, ?_, ?_, ?_, nestedEq, methodsEq⟩
    · intro identity inside
      rw [← mem_map_nested_iff inside, nestedEq, mem_map_appendAllNew]
      simp only [List.map_nil, List.not_mem_nil, false_or, List.map_flatMap, List.mem_flatMap,
        mem_map_nestedSymbols]
    · intro identity
      rw [methodsEq, mem_map_appendAllNew]
      simp only [List.map_nil, List.not_mem_nil, false_or, List.map_flatMap, List.mem_flatMap,
        mem_map_observedMethod?]
    · intro name
      exact hasTopLevel_ofUses settings modulePath summaries

/-- One file that calls `Lib.tools.Box.open()` on a class and `Lib.tools.list.add()` on a
member of the module `m`. -/
theorem collect_holds_calls_on_class_and_member :
    ∃ package,
      (collect {} [{
        path := "a.ets"
        imports := [.wholeModule "m" "Lib" false]
        accesses := [
          ⟨"Lib", "Lib.tools.Box.open", "open", .staticCall, some "Box"⟩,
          ⟨"Lib", "Lib.tools.list.add", "add", .methodCall, none⟩] }]).get? "m" = some package ∧
      ⟨"list", .constant, some "Lib.tools"⟩ ∈ package.symbols.map Symbol.identity ∧
      ⟨"open", "Box", true⟩ ∈ package.methods.map Method.identity ∧
      ⟨"add", "list", false⟩ ∈ package.methods.map Method.identity := by
  obtain ⟨keys, -, held⟩ := collect_holds_exactly_what_uses_call_for {} [{
    path := "a.ets"
    imports := [.wholeModule "m" "Lib" false]
    accesses := [
      ⟨"Lib", "Lib.tools.Box.open", "open", .staticCall, some "Box"⟩,
      ⟨"Lib", "Lib.tools.list.add", "add", .methodCall, none⟩] }]
  have listed := (keys "m").mpr ⟨_, List.mem_singleton.mpr rfl, _, List.mem_singleton.mpr rfl,
    by decide, rfl⟩
  obtain ⟨package, found⟩ := Option.isSome_iff_exists.mp ((Catalog.mem_keys_iff _ _).mp listed)
  obtain ⟨-, symbols, methods, -⟩ := held "m" package found
  refine ⟨package, found, (symbols _ rfl).mpr ?_, (methods _).mpr ?_, (methods _).mpr ?_⟩
  · exact ⟨_, List.mem_cons_of_mem _ List.mem_cons_self,
      @CallsForSymbol.beforeLast _ _ 2 _ rfl (by decide) (by decide) (by decide) rfl⟩
  · exact ⟨_, List.mem_cons_self, .ofClass rfl (by decide) rfl⟩
  · exact ⟨_, List.mem_cons_of_mem _ List.mem_cons_self, .ofMember rfl rfl (by decide) rfl rfl⟩

end AmbientStubs.Package
