import AmbientStubs.Proofs.Declaration.Unambiguous
import Mathlib.Data.List.Nodup
import Std.Data.HashSet.Lemmas

/-!
Packages with an index.  A package holds one symbol and one method of every identity, the first
that was inserted, in the order of first insertion.  A store that looks identities up in a hash
index, which it updates before the lists, holds the same lists and gives the same answers; and the
views of a package by owner and by enclosing scope take every method and every symbol once.
-/

namespace AmbientStubs

section KeepsFirsts

variable {Element Identity : Type} [DecidableEq Identity] {identity : Element → Identity}

/-- Of the offered elements the first of every identity is kept, in the order of first offer. -/
structure KeepsFirsts (identity : Element → Identity) (offered kept : List Element) : Prop where
  distinct : (kept.map identity).Nodup
  /-- An element is kept if and only if it is the first one offered of its identity. -/
  first : ∀ element, element ∈ kept ↔
    offered.find? (fun other => identity other = identity element) = some element
  order : (kept.map identity).Pairwise fun earlier later =>
    (offered.map identity).idxOf earlier < (offered.map identity).idxOf later

theorem KeepsFirsts.nil : KeepsFirsts identity [] [] :=
  ⟨List.nodup_nil, by simp, .nil⟩

variable {offered kept : List Element}

/-- Every identity that was offered is kept, and no other. -/
theorem KeepsFirsts.mem_map_iff (keeps : KeepsFirsts identity offered kept) {key : Identity} :
    key ∈ kept.map identity ↔ key ∈ offered.map identity := by
  constructor
  · intro known
    obtain ⟨element, membership, rfl⟩ := List.mem_map.mp known
    exact List.mem_map_of_mem (List.mem_of_find?_eq_some ((keeps.first element).mp membership))
  · intro known
    obtain ⟨element, membership, rfl⟩ := List.mem_map.mp known
    have found : (offered.find? fun other => identity other = identity element).isSome := by
      rw [List.find?_isSome]
      exact ⟨element, membership, by simp⟩
    obtain ⟨earliest, found⟩ := Option.isSome_iff_exists.mp found
    have same : identity earliest = identity element := by
      simpa using List.find?_some found
    rw [← same] at found ⊢
    exact List.mem_map_of_mem ((keeps.first earliest).mpr found)

theorem find?_eq_none_of_not_mem_map {key : Identity} (absent : key ∉ offered.map identity) :
    offered.find? (fun other => identity other = key) = none := by
  rw [List.find?_eq_none]
  intro other membership
  rw [decide_eq_true_eq]
  rintro rfl
  exact absent (List.mem_map_of_mem membership)

theorem KeepsFirsts.order_append (keeps : KeepsFirsts identity offered kept)
    (more : List Element) :
    (kept.map identity).Pairwise fun earlier later =>
      ((offered ++ more).map identity).idxOf earlier <
        ((offered ++ more).map identity).idxOf later := by
  refine keeps.order.imp_of_mem fun earlierKept laterKept before => ?_
  rw [List.map_append, List.idxOf_append, List.idxOf_append,
    if_pos (keeps.mem_map_iff.mp earlierKept), if_pos (keeps.mem_map_iff.mp laterKept)]
  exact before

theorem KeepsFirsts.appendNew (keeps : KeepsFirsts identity offered kept) (element : Element) :
    KeepsFirsts identity (offered ++ [element]) (appendNew identity kept element) := by
  unfold AmbientStubs.appendNew
  split
  · next taken =>
      refine ⟨keeps.distinct, fun other => ?_, keeps.order_append [element]⟩
      rw [keeps.first, List.find?_append]
      by_cases known : identity other ∈ offered.map identity
      · obtain ⟨earliest, membership, same⟩ := List.mem_map.mp (keeps.mem_map_iff.mpr known)
        have found := (keeps.first earliest).mp membership
        rw [same] at found
        rw [found, Option.some_or]
      · have apart : identity element ≠ identity other := by
          intro same
          exact known (same ▸ keeps.mem_map_iff.mp taken)
        simp [find?_eq_none_of_not_mem_map known, apart]
  · next fresh =>
      have unknown : identity element ∉ offered.map identity := fun known =>
        fresh (keeps.mem_map_iff.mpr known)
      refine ⟨?_, fun other => ?_, ?_⟩
      · rw [List.map_append, List.map_singleton, List.nodup_append]
        refine ⟨keeps.distinct, by simp, fun key before last new => ?_⟩
        rw [List.mem_singleton.mp new]
        rintro rfl
        exact fresh before
      · rw [List.mem_append, List.mem_singleton, keeps.first, List.find?_append]
        by_cases same : identity element = identity other
        · rw [← same, find?_eq_none_of_not_mem_map unknown]
          simp [eq_comm]
        · have apart : other ≠ element := fun equal => same (equal ▸ rfl)
          simp [same, apart]
      · rw [@List.map_append _ _ identity kept, List.pairwise_append]
        refine ⟨keeps.order_append [element], by simp, fun key before last new => ?_⟩
        rw [List.map_singleton, List.mem_singleton] at new
        have known := keeps.mem_map_iff.mp before
        rw [List.map_append, List.idxOf_append, List.idxOf_append, new, if_pos known,
          if_neg unknown]
        exact Nat.lt_add_left _ (List.idxOf_lt_length_of_mem known)

theorem KeepsFirsts.appendAllNew (keeps : KeepsFirsts identity offered kept)
    (more : List Element) :
    KeepsFirsts identity (offered ++ more) (appendAllNew identity kept more) := by
  induction more generalizing offered kept with
  | nil => simpa using keeps
  | cons element rest inductionHypothesis =>
      have step := inductionHypothesis (keeps.appendNew element)
      rwa [List.append_assoc, List.singleton_append] at step

theorem perm_flatMap_filter {Key : Type} [BEq Key] [LawfulBEq Key] (keyOf : Element → Key)
    {keys : List Key} (distinct : keys.Nodup) {elements : List Element}
    (covered : ∀ element ∈ elements, keyOf element ∈ keys) :
    (keys.flatMap fun key => elements.filter (keyOf · == key)).Perm elements := by
  induction keys generalizing elements with
  | nil =>
      cases elements with
      | nil => exact .nil
      | cons element _ => exact absurd (covered element List.mem_cons_self) List.not_mem_nil
  | cons key rest inductionHypothesis =>
      rw [List.nodup_cons] at distinct
      have elsewhere : (rest.flatMap fun other => elements.filter (keyOf · == other)) =
          rest.flatMap fun other => (elements.filter (!keyOf · == key)).filter (keyOf · == other) := by
        apply List.flatMap_congr
        intro other listed
        rw [List.filter_filter]
        apply List.filter_congr
        intro element _
        cases same : keyOf element == other with
        | false => rfl
        | true =>
            have different : keyOf element ≠ key := by
              rw [beq_iff_eq.mp same]
              rintro rfl
              exact distinct.1 listed
            simp [different]
      have covers : ∀ element ∈ elements.filter (!keyOf · == key), keyOf element ∈ rest := by
        intro element membership
        obtain ⟨present, different⟩ := List.mem_filter.mp membership
        exact (List.mem_cons.mp (covered element present)).resolve_left (by simpa using different)
      have others := inductionHypothesis distinct.2 covers
      rw [List.flatMap_cons, elsewhere]
      exact (others.append_left _).trans (List.filter_append_perm _ elements)

end KeepsFirsts

section InsertIndexed

variable {Element Identity : Type} [DecidableEq Identity] [Hashable Identity]
  (identity : Element → Identity)

/-- Append an element unless the index has its identity, and tell whether it was appended.  The
index is updated before the list, and in any case. -/
def insertIndexed (elements : List Element) (index : Std.HashSet Identity) (element : Element) :
    Bool × List Element × Std.HashSet Identity :=
  let (taken, index) := index.containsThenInsert (identity element)
  if taken then (false, elements, index) else (true, elements ++ [element], index)

def Mirrors (elements : List Element) (index : Std.HashSet Identity) : Prop :=
  ∀ key, key ∈ index ↔ key ∈ elements.map identity

theorem Mirrors.insertIndexed {identity : Element → Identity} {elements : List Element}
    {index : Std.HashSet Identity} (mirrors : Mirrors identity elements index) (element : Element) :
    ((insertIndexed identity elements index element).1 = true ↔
        identity element ∉ elements.map identity) ∧
      (insertIndexed identity elements index element).2.1 =
        appendNew identity elements element ∧
      Mirrors identity (insertIndexed identity elements index element).2.1
        (insertIndexed identity elements index element).2.2 := by
  have answer : index.contains (identity element) = true ↔
      identity element ∈ elements.map identity := by
    rw [Std.HashSet.contains_iff_mem, mirrors]
  simp only [AmbientStubs.insertIndexed, Std.HashSet.containsThenInsert_fst,
    Std.HashSet.containsThenInsert_snd, appendNew, ← answer]
  cases taken : index.contains (identity element) with
  | true =>
      refine ⟨by simp, rfl, fun key => ?_⟩
      simp only [if_true, Std.HashSet.mem_insert, beq_iff_eq, mirrors key]
      exact or_iff_right_of_imp fun same => same ▸ answer.mp taken
  | false =>
      refine ⟨by simp, rfl, fun key => ?_⟩
      simp only [Bool.false_eq_true, if_false, Std.HashSet.mem_insert, beq_iff_eq, mirrors key,
        List.map_append, List.map_singleton, List.mem_append, List.mem_singleton]
      rw [or_comm, eq_comm]

omit [Hashable Identity] in
theorem length_lt_length_appendNew_iff (elements : List Element) (element : Element) :
    elements.length < (appendNew identity elements element).length ↔
      identity element ∉ elements.map identity := by
  unfold appendNew
  split
  · next taken => simp [taken]
  · next fresh => simp [fresh]

end InsertIndexed

deriving instance Hashable for SymbolKind, Symbol.Identity, Method.Identity

namespace Package

/-- One way to change a package: an insertion, or a declaration given in the settings. -/
inductive Change where
  | ofInsertion (insertion : Insertion)
  | ofExtraDeclaration (name declaration : String)

namespace Change

def apply (package : Package) : Change → Package
  | ofInsertion insertion => insertion.apply package
  | ofExtraDeclaration name declaration => package.addExtraDeclaration name declaration

def symbol? : Change → Option Symbol
  | ofInsertion (.ofSymbol symbol) => some symbol
  | _ => none

def method? : Change → Option Method
  | ofInsertion (.ofMethod method) => some method
  | _ => none

theorem lists_apply (package : Package) (change : Change) :
    (change.apply package).symbols =
        appendAllNew Symbol.identity package.symbols change.symbol?.toList ∧
      (change.apply package).methods =
        appendAllNew Method.identity package.methods change.method?.toList := by
  rcases change with (_ | symbol | method) | _
  · exact ⟨rfl, rfl⟩
  · rw [apply, Insertion.apply, insertSymbol_eq]
    exact ⟨rfl, rfl⟩
  · rw [apply, Insertion.apply, insertMethod_eq]
    exact ⟨rfl, rfl⟩
  · exact ⟨rfl, rfl⟩

theorem lists_foldl_apply (package : Package) (changes : List Change) :
    (changes.foldl apply package).symbols =
        appendAllNew Symbol.identity package.symbols (changes.filterMap symbol?) ∧
      (changes.foldl apply package).methods =
        appendAllNew Method.identity package.methods (changes.filterMap method?) := by
  induction changes generalizing package with
  | nil => exact ⟨rfl, rfl⟩
  | cons change rest inductionHypothesis =>
      obtain ⟨symbols, methods⟩ := inductionHypothesis (change.apply package)
      obtain ⟨firstSymbols, firstMethods⟩ := lists_apply package change
      rw [List.foldl_cons, symbols, methods, firstSymbols, firstMethods, ← appendAllNew_append,
        ← appendAllNew_append, List.filterMap_cons, List.filterMap_cons]
      constructor
      · cases change.symbol? <;> rfl
      · cases change.method? <;> rfl

end Change

def changed (modulePath : String) (changes : List Change) : Package :=
  changes.foldl Change.apply { modulePath }

/-- A package beside which the identities of its symbols and methods are kept in an index. -/
structure Indexed where
  package : Package
  symbolIndex : Std.HashSet Symbol.Identity := {}
  methodIndex : Std.HashSet Method.Identity := {}

namespace Indexed

def insertSymbol (store : Indexed) (symbol : Symbol) : Bool × Indexed :=
  let (inserted, symbols, index) :=
    insertIndexed Symbol.identity store.package.symbols store.symbolIndex symbol
  (inserted,
    { store with package := { store.package with symbols := symbols }, symbolIndex := index })

def insertMethod (store : Indexed) (method : Method) : Bool × Indexed :=
  let (inserted, methods, index) :=
    insertIndexed Method.identity store.package.methods store.methodIndex method
  (inserted,
    { store with package := { store.package with methods := methods }, methodIndex := index })

def hasSymbol (store : Indexed) (identity : Symbol.Identity) : Bool :=
  store.symbolIndex.contains identity

def apply (store : Indexed) : Change → Indexed
  | .ofInsertion (.ofImport imported) =>
      { store with package := store.package.addImport imported }
  | .ofInsertion (.ofSymbol symbol) => (store.insertSymbol symbol).2
  | .ofInsertion (.ofMethod method) => (store.insertMethod method).2
  | .ofExtraDeclaration name declaration =>
      { store with package := store.package.addExtraDeclaration name declaration }

def changed (modulePath : String) (changes : List Change) : Indexed :=
  changes.foldl apply { package := { modulePath } }

structure Faithful (store : Indexed) : Prop where
  symbols : Mirrors Symbol.identity store.package.symbols store.symbolIndex
  methods : Mirrors Method.identity store.package.methods store.methodIndex

namespace Faithful

variable {store : Indexed} (faithful : store.Faithful)

include faithful

theorem insertSymbol (symbol : Symbol) :
    (store.insertSymbol symbol).2.package = store.package.insertSymbol symbol ∧
      (store.insertSymbol symbol).2.Faithful := by
  obtain ⟨-, appended, mirrors⟩ := faithful.symbols.insertIndexed symbol
  rw [insertSymbol_eq, ← appended]
  exact ⟨rfl, mirrors, faithful.methods⟩

theorem insertMethod (method : Method) :
    (store.insertMethod method).2.package = store.package.insertMethod method ∧
      (store.insertMethod method).2.Faithful := by
  obtain ⟨-, appended, mirrors⟩ := faithful.methods.insertIndexed method
  rw [insertMethod_eq, ← appended]
  exact ⟨rfl, faithful.symbols, mirrors⟩

/-- A change keeps the indexes true and changes the package as it does without an index. -/
theorem apply (change : Change) :
    (store.apply change).package = change.apply store.package ∧ (store.apply change).Faithful := by
  rcases change with (_ | symbol | method) | _
  · exact ⟨rfl, faithful.symbols, faithful.methods⟩
  · exact faithful.insertSymbol symbol
  · exact faithful.insertMethod method
  · exact ⟨rfl, faithful.symbols, faithful.methods⟩

theorem foldl_apply (changes : List Change) :
    (changes.foldl Indexed.apply store).package = changes.foldl Change.apply store.package ∧
      (changes.foldl Indexed.apply store).Faithful := by
  induction changes generalizing store with
  | nil => exact ⟨rfl, faithful⟩
  | cons change rest inductionHypothesis =>
      obtain ⟨same, kept⟩ := faithful.apply change
      rw [List.foldl_cons, List.foldl_cons, ← same]
      exact inductionHypothesis kept

theorem insertSymbol_fst (symbol : Symbol) :
    (store.insertSymbol symbol).1 = true ↔
      store.package.symbols.length < (store.insertSymbol symbol).2.package.symbols.length := by
  obtain ⟨answer, appended, -⟩ := faithful.symbols.insertIndexed symbol
  refine answer.trans ?_
  rw [← length_lt_length_appendNew_iff, ← appended]
  rfl

theorem insertMethod_fst (method : Method) :
    (store.insertMethod method).1 = true ↔
      store.package.methods.length < (store.insertMethod method).2.package.methods.length := by
  obtain ⟨answer, appended, -⟩ := faithful.methods.insertIndexed method
  refine answer.trans ?_
  rw [← length_lt_length_appendNew_iff, ← appended]
  rfl

end Faithful

theorem faithful_changed (modulePath : String) (changes : List Change) :
    (changed modulePath changes).package = Package.changed modulePath changes ∧
      (changed modulePath changes).Faithful :=
  Faithful.foldl_apply ⟨fun key => by simp, fun key => by simp⟩ changes

end Indexed

section Views

variable (package : Package)

theorem isSome_insertSymbol? (symbol : Symbol) :
    (package.insertSymbol? symbol).isSome = true ↔
      symbol.identity ∉ package.symbols.map Symbol.identity := by
  simp [insertSymbol?, hasSymbol]

theorem isSome_insertMethod? (method : Method) :
    (package.insertMethod? method).isSome = true ↔
      method.identity ∉ package.methods.map Method.identity := by
  simp [insertMethod?, hasMethod]

theorem methodOwners_keepsFirsts :
    KeepsFirsts id (package.methods.map (·.owner)) package.methodOwners := by
  have same : package.methodOwners = appendAllNew id [] (package.methods.map (·.owner)) := by
    rw [methodOwners_eq, appendAllNew]
    congr 1
    funext owners owner
    simp [Entry.including, appendNew]
  rw [same]
  exact KeepsFirsts.nil.appendAllNew _

theorem perm_flatMap_methodsOf :
    (package.methodOwners.flatMap package.methodsOf).Perm package.methods := by
  refine perm_flatMap_filter Method.owner ?_ fun method membership => ?_
  · simpa using (methodOwners_keepsFirsts package).distinct
  · exact mem_methodOwners.mpr ⟨method, membership, rfl⟩

/-- The symbols of the top level and the symbols by enclosing scope are the symbols. -/
theorem perm_topLevel_append_flatMap_childrenOf {paths : List String} (distinct : paths.Nodup)
    (covered : ∀ path, path ∈ paths ↔ ∃ symbol ∈ package.symbols, symbol.parentPath = some path) :
    (package.topLevel ++ paths.flatMap package.childrenOf).Perm package.symbols := by
  have top : package.topLevel = package.symbols.filter (·.parentPath == none) := by
    apply List.filter_congr
    intro symbol _
    cases above : symbol.parentPath <;> simp [Symbol.isTopLevel, above]
  have split : package.topLevel ++ paths.flatMap package.childrenOf =
      (none :: paths.map some).flatMap fun path =>
        package.symbols.filter (·.parentPath == path) := by
    rw [List.flatMap_cons, List.flatMap_map, top]
    rfl
  rw [split]
  refine perm_flatMap_filter Symbol.parentPath ?_ fun symbol membership => ?_
  · rw [List.nodup_cons]
    exact ⟨by simp, distinct.map fun _ _ => Option.some.inj⟩
  · cases above : symbol.parentPath with
    | none => exact List.mem_cons_self
    | some path =>
        refine List.mem_cons_of_mem _ (List.mem_map_of_mem ?_)
        exact (covered path).mpr ⟨symbol, membership, above⟩

end Views

/-- What a store is to its users after some changes. -/
structure Indexed.Consistent (changes : List Change) (store : Indexed) : Prop where
  symbols : KeepsFirsts Symbol.identity (changes.filterMap Change.symbol?) store.package.symbols
  methods : KeepsFirsts Method.identity (changes.filterMap Change.method?) store.package.methods
  /-- The answer of an insertion tells whether the list grew. -/
  insertSymbol : ∀ symbol, (store.insertSymbol symbol).1 = true ↔
    store.package.symbols.length < (store.insertSymbol symbol).2.package.symbols.length
  insertMethod : ∀ method, (store.insertMethod method).1 = true ↔
    store.package.methods.length < (store.insertMethod method).2.package.methods.length
  hasSymbol : ∀ identity, store.hasSymbol identity = true ↔
    identity ∈ store.package.symbols.map Symbol.identity
  methodOwners : KeepsFirsts id (store.package.methods.map (·.owner)) store.package.methodOwners
  methodsByOwner :
    (store.package.methodOwners.flatMap store.package.methodsOf).Perm store.package.methods
  symbolsByParent : ∀ paths : List String, paths.Nodup →
    (∀ path, path ∈ paths ↔ ∃ symbol ∈ store.package.symbols, symbol.parentPath = some path) →
    (store.package.topLevel ++ paths.flatMap store.package.childrenOf).Perm store.package.symbols

/-- The package and the answers of a store are those of the package without an index. -/
structure Indexed.Stores (package : Package) (store : Indexed) : Prop where
  same : store.package = package
  insertSymbol : ∀ symbol,
    (store.insertSymbol symbol).1 = (package.insertSymbol? symbol).isSome ∧
      (store.insertSymbol symbol).2.package = package.insertSymbol symbol
  insertMethod : ∀ method,
    (store.insertMethod method).1 = (package.insertMethod? method).isSome ∧
      (store.insertMethod method).2.package = package.insertMethod method
  hasSymbol : ∀ identity, store.hasSymbol identity = package.hasSymbol identity

theorem Indexed.Faithful.hasSymbol_iff {store : Indexed} (faithful : store.Faithful)
    (identity : Symbol.Identity) :
    store.hasSymbol identity = true ↔ identity ∈ store.package.symbols.map Symbol.identity := by
  rw [Indexed.hasSymbol, Std.HashSet.contains_iff_mem]
  exact faithful.symbols identity

theorem Indexed.Faithful.stores {store : Indexed} (faithful : store.Faithful) :
    store.Stores store.package where
  same := rfl
  insertSymbol symbol := by
    refine ⟨?_, (faithful.insertSymbol symbol).1⟩
    rw [Bool.eq_iff_iff, isSome_insertSymbol?]
    exact (faithful.symbols.insertIndexed symbol).1
  insertMethod method := by
    refine ⟨?_, (faithful.insertMethod method).1⟩
    rw [Bool.eq_iff_iff, isSome_insertMethod?]
    exact (faithful.methods.insertIndexed method).1
  hasSymbol identity := by
    rw [Bool.eq_iff_iff, faithful.hasSymbol_iff]
    simp [Package.hasSymbol]

/-- Whatever changes a store goes through, its lists keep the first element of every identity in
the order of first insertion, its answers and its index agree with the lists, and the views of the
lists lose and repeat nothing; and it is the same package, with the same answers, that results
without an index. -/
theorem indexed_store_keeps_the_first_of_every_identity (modulePath : String)
    (changes : List Change) :
    (Indexed.changed modulePath changes).Consistent changes ∧
      (Indexed.changed modulePath changes).Stores (changed modulePath changes) := by
  obtain ⟨same, faithful⟩ := Indexed.faithful_changed modulePath changes
  obtain ⟨symbols, methods⟩ := Change.lists_foldl_apply { modulePath } changes
  rw [← same]
  refine ⟨?_, faithful.stores⟩
  constructor
  · rw [same, changed, symbols]
    exact KeepsFirsts.nil.appendAllNew _
  · rw [same, changed, methods]
    exact KeepsFirsts.nil.appendAllNew _
  · exact faithful.insertSymbol_fst
  · exact faithful.insertMethod_fst
  · exact faithful.hasSymbol_iff
  · exact methodOwners_keepsFirsts _
  · exact perm_flatMap_methodsOf _
  · exact fun paths distinct covered => perm_topLevel_append_flatMap_childrenOf _ distinct covered

end Package

end AmbientStubs
