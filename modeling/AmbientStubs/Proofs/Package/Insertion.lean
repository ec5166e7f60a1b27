import AmbientStubs.Package

/-!
Insertion by identity.  A package keeps the first element of every identity, in the order
of first insertion, so the symbols and methods after a run of insertions are determined
by the list of elements offered.
-/

namespace AmbientStubs

section FirstKept

variable {Element Identity : Type} [DecidableEq Identity] (identity : Element → Identity)

def appendNew (elements : List Element) (element : Element) : List Element :=
  if identity element ∈ elements.map identity then elements else elements ++ [element]

def appendAllNew (elements offered : List Element) : List Element :=
  offered.foldl (appendNew identity) elements

@[simp]
theorem appendAllNew_nil (elements : List Element) :
    appendAllNew identity elements [] = elements := rfl

@[simp]
theorem appendAllNew_cons (elements : List Element) (element : Element)
    (offered : List Element) :
    appendAllNew identity elements (element :: offered) =
      appendAllNew identity (appendNew identity elements element) offered := rfl

theorem appendAllNew_append (elements first second : List Element) :
    appendAllNew identity elements (first ++ second) =
      appendAllNew identity (appendAllNew identity elements first) second :=
  List.foldl_append

theorem subset_appendNew (elements : List Element) (element : Element) :
    elements ⊆ appendNew identity elements element := by
  unfold appendNew
  split
  · exact List.Subset.refl _
  · exact List.subset_append_left _ _

theorem subset_appendAllNew (elements offered : List Element) :
    elements ⊆ appendAllNew identity elements offered := by
  induction offered generalizing elements with
  | nil => exact List.Subset.refl _
  | cons element rest inductionHypothesis =>
      exact List.Subset.trans (subset_appendNew identity elements element) (inductionHypothesis _)

theorem mem_of_mem_appendNew {elements : List Element} {element other : Element}
    (membership : other ∈ appendNew identity elements element) :
    other ∈ elements ∨ other = element := by
  unfold appendNew at membership
  split at membership
  · exact .inl membership
  · rw [List.mem_append, List.mem_singleton] at membership
    exact membership

theorem new_of_mem_appendAllNew {elements offered : List Element} {element : Element}
    (membership : element ∈ appendAllNew identity elements offered) :
    element ∈ elements ∨ element ∈ offered ∧ identity element ∉ elements.map identity := by
  induction offered generalizing elements with
  | nil => exact .inl membership
  | cons first rest inductionHypothesis =>
      rw [appendAllNew_cons] at membership
      rcases inductionHypothesis membership with earlier | ⟨later, new⟩
      · unfold appendNew at earlier
        split at earlier
        · exact .inl earlier
        · next absent =>
            rw [List.mem_append, List.mem_singleton] at earlier
            rcases earlier with old | rfl
            · exact .inl old
            · exact .inr ⟨List.mem_cons_self, absent⟩
      · refine .inr ⟨List.mem_cons_of_mem first later, ?_⟩
        intro old
        exact new (List.map_subset identity (subset_appendNew identity elements first) old)

theorem mem_of_mem_appendAllNew {elements offered : List Element} {element : Element}
    (membership : element ∈ appendAllNew identity elements offered) :
    element ∈ elements ∨ element ∈ offered :=
  (new_of_mem_appendAllNew identity membership).imp_right And.left

theorem mem_map_appendNew {elements : List Element} {element : Element} {sought : Identity} :
    sought ∈ (appendNew identity elements element).map identity ↔
      sought ∈ elements.map identity ∨ sought = identity element := by
  unfold appendNew
  split
  · next present =>
      constructor
      · exact .inl
      · rintro (old | rfl)
        · exact old
        · exact present
  · simp

/-- Nothing offered is lost and nothing else is added, as far as identities go. -/
theorem mem_map_appendAllNew {elements offered : List Element} {sought : Identity} :
    sought ∈ (appendAllNew identity elements offered).map identity ↔
      sought ∈ elements.map identity ∨ sought ∈ offered.map identity := by
  induction offered generalizing elements with
  | nil => simp
  | cons first rest inductionHypothesis =>
      rw [appendAllNew_cons, inductionHypothesis, mem_map_appendNew, List.map_cons, List.mem_cons,
        or_assoc]

/-- The first element that passes a test of identities is the first one offered. -/
theorem find?_appendAllNew {test : Element → Bool}
    (seesIdentity : ∀ first second, identity first = identity second → test first = test second)
    (elements offered : List Element) :
    (appendAllNew identity elements offered).find? test =
      (elements.find? test).or (offered.find? test) := by
  induction offered generalizing elements with
  | nil => simp
  | cons element rest inductionHypothesis =>
      rw [appendAllNew_cons, inductionHypothesis, List.find?_cons]
      unfold appendNew
      split
      · next present =>
          obtain ⟨earlier, membership, same⟩ := List.mem_map.mp present
          cases passed : test element with
          | false => rfl
          | true =>
              have found : (elements.find? test).isSome := by
                rw [List.find?_isSome]
                exact ⟨earlier, membership, by rw [seesIdentity _ _ same, passed]⟩
              obtain ⟨first, found⟩ := Option.isSome_iff_exists.mp found
              simp [found]
      · rw [List.find?_append, Option.or_assoc, List.find?_singleton]
        cases test element <;> simp

/-- A test that sees identities only may be made before or after the insertions. -/
theorem filter_appendAllNew {test : Element → Bool}
    (seesIdentity : ∀ first second, identity first = identity second → test first = test second)
    (elements offered : List Element) :
    (appendAllNew identity elements offered).filter test =
      appendAllNew identity (elements.filter test) (offered.filter test) := by
  induction offered generalizing elements with
  | nil => rfl
  | cons first rest inductionHypothesis =>
      rw [appendAllNew_cons, inductionHypothesis]
      by_cases passed : test first = true
      · have samePlaces : identity first ∈ (elements.filter test).map identity ↔
            identity first ∈ elements.map identity := by
          simp only [List.mem_map, List.mem_filter]
          constructor
          · rintro ⟨element, ⟨membership, -⟩, same⟩
            exact ⟨element, membership, same⟩
          · rintro ⟨element, membership, same⟩
            exact ⟨element, ⟨membership, (seesIdentity _ _ same).trans passed⟩, same⟩
        rw [List.filter_cons_of_pos passed, appendAllNew_cons]
        congr 1
        simp only [appendNew, samePlaces]
        split
        · rfl
        · simp [passed]
      · rw [List.filter_cons_of_neg passed]
        congr 1
        unfold appendNew
        split
        · rfl
        · simp [passed]

/-- A change that keeps identities apart may be made before or after the insertions. -/
theorem appendAllNew_map {change : Element → Element} {Holds : Element → Prop}
    (keepsApart : ∀ first second, Holds first → Holds second →
      (identity (change first) = identity (change second) ↔ identity first = identity second))
    {elements offered : List Element} (held : ∀ element ∈ elements, Holds element)
    (offeredHeld : ∀ element ∈ offered, Holds element) :
    appendAllNew identity (elements.map change) (offered.map change) =
      (appendAllNew identity elements offered).map change := by
  induction offered generalizing elements with
  | nil => rfl
  | cons first rest inductionHypothesis =>
      rw [List.forall_mem_cons] at offeredHeld
      have samePlaces : identity (change first) ∈ (elements.map change).map identity ↔
          identity first ∈ elements.map identity := by
        simp only [List.map_map, List.mem_map, Function.comp_apply]
        apply exists_congr
        intro element
        apply and_congr_right
        intro membership
        exact keepsApart element first (held element membership) offeredHeld.1
      have step : appendNew identity (elements.map change) (change first) =
          (appendNew identity elements first).map change := by
        simp only [appendNew, samePlaces]
        split
        · rfl
        · rw [List.map_append, List.map_singleton]
      rw [List.map_cons, appendAllNew_cons, appendAllNew_cons, step]
      apply inductionHypothesis ?_ offeredHeld.2
      intro element membership
      rcases mem_of_mem_appendNew identity membership with before | rfl
      · exact held element before
      · exact offeredHeld.1

end FirstKept

namespace Package

variable (package : Package)

def insertMethods (methods : List Method) : Package :=
  methods.foldl insertMethod package

theorem insertSymbol_eq (symbol : Symbol) :
    package.insertSymbol symbol =
      { package with symbols := appendNew Symbol.identity package.symbols symbol } := by
  unfold insertSymbol insertSymbol? appendNew hasSymbol
  by_cases taken : ∃ present ∈ package.symbols, present.identity = symbol.identity <;>
    simp [taken]

theorem insertMethod_eq (method : Method) :
    package.insertMethod method =
      { package with methods := appendNew Method.identity package.methods method } := by
  unfold insertMethod insertMethod? appendNew hasMethod
  by_cases taken : ∃ present ∈ package.methods, present.identity = method.identity <;>
    simp [taken]

theorem insertMethods_eq (methods : List Method) :
    package.insertMethods methods =
      { package with methods := appendAllNew Method.identity package.methods methods } := by
  induction methods generalizing package with
  | nil => rfl
  | cons method rest inductionHypothesis =>
      have step := inductionHypothesis (package.insertMethod method)
      simpa [insertMethods, insertMethod_eq] using step

def Knows (identity : Symbol.Identity) : Prop :=
  identity ∈ package.symbols.map Symbol.identity

variable {package}

theorem knows_iff {name : String} {kind : SymbolKind}
    {parentPath : Option String} :
    package.Knows ⟨name, kind, parentPath⟩ ↔ ∃ symbol ∈ package.symbols,
      symbol.name = name ∧ symbol.kind = kind ∧ symbol.parentPath = parentPath := by
  simp [Knows, Symbol.identity]

end Package

end AmbientStubs
