import AmbientStubs.Package.Usage
import AmbientStubs.Proofs.Package.Insertion
import AmbientStubs.Proofs.Text.Pieces

/-!
What one use adds to a package.  An import adds its root symbol.  An access offers symbols
below the root of its import, perhaps a method, and perhaps an interface for the class of a
static call; everything else of the package stays as it is.
-/

namespace AmbientStubs.Package

open Text Convention

def membersOf (access : Access) : List String :=
  access.segments.drop 1

theorem not_mem_of_mem_membersOf {access : Access} {member : String}
    (membership : member ∈ membersOf access) : '.' ∉ member.toList :=
  not_mem_of_mem_segments (List.mem_of_mem_drop membership)

/-- The symbols that an access calls for below the root of its import.  The class and the
method of a static call are not among them. -/
def nestedSymbols (imported : Import) (access : Access) : List Symbol :=
  let members := membersOf access
  if access.isStaticCall then constantsBelow imported.rootName members.dropLast.dropLast
  else
    constantsBelow imported.rootName members.dropLast ++
      (members.getLast?.map fun member =>
        memberSymbol (dotted (imported.rootName :: members.dropLast)) member
          access.context).toList

/-- The method that an access calls for: that of a static call, or of a call on a member. -/
def observedMethod? (settings : InferenceSettings) (imported : Import) (access : Access) :
    Option Method :=
  let members := membersOf access
  let qualifier := dotted (imported.rootName :: members)
  match members.reverse with
  | member :: owner :: _ =>
      match access.context, access.className with
      | .staticCall, some className =>
          some (inferredMethod settings true className access.member qualifier)
      | .methodCall, _ => some (inferredMethod settings false owner member qualifier)
      | _, _ => none
  | _ => none

/-- The class that a static call with at least three segments names. -/
def staticOwner? (access : Access) : Option String :=
  if access.context = .staticCall ∧ 2 ≤ (membersOf access).length then access.className
  else none

theorem className_of_staticOwner? {access : Access} {owner : String}
    (static : staticOwner? access = some owner) : access.className = some owner := by
  unfold staticOwner? at static
  split at static
  · exact static
  · contradiction

def declareOwner (package : Package) (owner : String) : Package :=
  if package.hasTopLevel owner then package
  else package.insertSymbol { name := owner, kind := .interfaceType }

@[simp]
theorem identity_inferredMethod (settings : InferenceSettings) (isStatic : Bool)
    (owner name qualifier : String) :
    (inferredMethod settings isStatic owner name qualifier).identity = ⟨name, owner, isStatic⟩ :=
  rfl

@[simp]
theorem identity_memberSymbol (parent member : String) (context : AccessContext) :
    (memberSymbol parent member context).identity =
      ⟨member, memberKind context, some parent⟩ := rfl

@[simp]
theorem identity_rootSymbol (settings : InferenceSettings) (imported : Import) :
    (rootSymbol settings imported).identity =
      ⟨imported.rootName, (rootSymbol settings imported).kind, none⟩ := rfl

theorem insertSymbols_eq (package : Package) (symbols : List Symbol) :
    package.insertSymbols symbols =
      { package with symbols := appendAllNew Symbol.identity package.symbols symbols } := by
  induction symbols generalizing package with
  | nil => rfl
  | cons symbol rest inductionHypothesis =>
      have step := inductionHypothesis (package.insertSymbol symbol)
      simpa [insertSymbols, insertSymbol_eq] using step

theorem eq_nil_or_singleton_or_append_pair {Element : Type} (elements : List Element) :
    elements = [] ∨ (∃ only, elements = [only]) ∨
      ∃ front secondLast last, elements = front ++ [secondLast, last] := by
  rcases List.eq_nil_or_concat elements with rfl | ⟨initial, last, rfl⟩
  · exact .inl rfl
  · rcases List.eq_nil_or_concat initial with rfl | ⟨front, secondLast, rfl⟩
    · exact .inr (.inl ⟨last, rfl⟩)
    · exact .inr (.inr ⟨front, secondLast, last, by simp⟩)

theorem addAccess_eq (settings : InferenceSettings) (package : Package) (imported : Import)
    (access : Access) :
    package.addAccess settings imported access =
      (staticOwner? access).toList.foldl declareOwner
        ((package.insertSymbols (nestedSymbols imported access)).insertMethods
          (observedMethod? settings imported access).toList) := by
  have members : access.segments.drop 1 = membersOf access := rfl
  unfold addAccess nestedSymbols observedMethod? staticOwner? Access.isStaticCall
  rw [members]
  rcases eq_nil_or_singleton_or_append_pair (membersOf access) with
      shape | ⟨only, shape⟩ | ⟨way, owner, last, shape⟩ <;>
    cases context : access.context <;> cases className : access.className <;>
    simp [shape, addChain, addStaticCall, constantsBelow, insertSymbols, insertMethods,
      declareOwner]

/-- A method is observed at a static call or at a method call on a member. -/
theorem observedMethod?_eq_some {settings : InferenceSettings} {imported : Import}
    {access : Access} {method : Method}
    (found : observedMethod? settings imported access = some method) :
    ∃ way owner member, membersOf access = way ++ [owner, member] ∧
      ((∃ className, access.context = .staticCall ∧ access.className = some className ∧
        method = inferredMethod settings true className access.member
          (dotted (imported.rootName :: membersOf access))) ∨
      access.context = .methodCall ∧
        method = inferredMethod settings false owner member
          (dotted (imported.rootName :: membersOf access))) := by
  unfold observedMethod? at found
  rcases eq_nil_or_singleton_or_append_pair (membersOf access) with
      shape | ⟨only, shape⟩ | ⟨way, owner, member, shape⟩
  · simp [shape] at found
  · simp [shape] at found
  · refine ⟨way, owner, member, shape, ?_⟩
    rw [shape] at found ⊢
    simp only [List.reverse_append, List.reverse_cons, List.reverse_nil, List.nil_append,
      List.cons_append] at found
    split at found
    · next className isStatic named =>
        exact .inl ⟨className, isStatic, named, (Option.some.inj found).symm⟩
    · next call => exact .inr ⟨call, (Option.some.inj found).symm⟩
    · contradiction

theorem mem_constantsBelow {root : String} {way : List String} {symbol : Symbol} :
    symbol ∈ constantsBelow root way ↔
      ∃ before name after, way = before ++ name :: after ∧
        symbol =
          { name := name, kind := .constant, parentPath := some (dotted (root :: before)) } := by
  induction way generalizing root with
  | nil => simp [constantsBelow]
  | cons segment rest inductionHypothesis =>
      rw [constantsBelow, List.mem_cons, inductionHypothesis]
      constructor
      · rintro (rfl | ⟨before, name, after, rfl, rfl⟩)
        · exact ⟨[], segment, rest, rfl, by simp⟩
        · exact ⟨segment :: before, name, after, rfl, by rw [dotted_cons_cons]⟩
      · rintro ⟨before, name, after, split, rfl⟩
        cases before with
        | nil =>
            obtain ⟨rfl, rfl⟩ := List.cons.inj split
            exact .inl (by simp)
        | cons first before =>
            obtain ⟨rfl, rfl⟩ := List.cons.inj split
            exact .inr ⟨before, name, after, rfl, by rw [dotted_cons_cons]⟩

/-- A symbol below a root stands for one member of its access, inside the members before it; the
last one has the kind that its use tells. -/
theorem mem_nestedSymbols {imported : Import} {access : Access} {symbol : Symbol}
    (membership : symbol ∈ nestedSymbols imported access) :
    ∃ before name after, membersOf access = before ++ name :: after ∧
      (symbol = { name := name, kind := .constant,
                  parentPath := some (dotted (imported.rootName :: before)) } ∨
        symbol = memberSymbol (dotted (imported.rootName :: before)) name access.context) := by
  have onTheWay {way : List String} (front : way <+: membersOf access)
      (inside : symbol ∈ constantsBelow imported.rootName way) :
      ∃ before name after, membersOf access = before ++ name :: after ∧
        symbol = { name := name, kind := .constant,
                   parentPath := some (dotted (imported.rootName :: before)) } := by
    obtain ⟨before, name, after, rfl, same⟩ := mem_constantsBelow.mp inside
    obtain ⟨more, whole⟩ := front
    exact ⟨before, name, after ++ more, by simp [← whole], same⟩
  unfold nestedSymbols at membership
  dsimp only at membership
  split at membership
  · obtain ⟨before, name, after, split, same⟩ := onTheWay
      ((List.dropLast_prefix _).trans (List.dropLast_prefix _)) membership
    exact ⟨before, name, after, split, .inl same⟩
  · rcases List.mem_append.mp membership with inner | last
    · obtain ⟨before, name, after, split, same⟩ := onTheWay (List.dropLast_prefix _) inner
      exact ⟨before, name, after, split, .inl same⟩
    · obtain ⟨member, found, rfl⟩ := Option.map_eq_some_iff.mp (Option.mem_toList.mp last)
      obtain ⟨way, split⟩ := List.getLast?_eq_some_iff.mp found
      refine ⟨way, member, [], split, .inr ?_⟩
      rw [split, List.dropLast_concat]

/-- The constants on the way to a symbol below a root come from the same access. -/
theorem exists_way_of_mem_nestedSymbols {imported : Import} {access : Access} {symbol : Symbol}
    (membership : symbol ∈ nestedSymbols imported access) :
    ∃ way ⊆ membersOf access, symbol.parentPath = some (dotted (imported.rootName :: way)) ∧
      constantsBelow imported.rootName way ⊆ nestedSymbols imported access := by
  have onTheWay {way : List String} (inside : symbol ∈ constantsBelow imported.rootName way) :
      ∃ before ⊆ way, symbol.parentPath = some (dotted (imported.rootName :: before)) ∧
        constantsBelow imported.rootName before ⊆ constantsBelow imported.rootName way := by
    obtain ⟨before, name, after, rfl, rfl⟩ := mem_constantsBelow.mp inside
    refine ⟨before, List.subset_append_left _ _, rfl, ?_⟩
    intro constant earlier
    obtain ⟨first, middle, last, rfl, same⟩ := mem_constantsBelow.mp earlier
    exact mem_constantsBelow.mpr ⟨first, middle, last ++ name :: after, by simp, same⟩
  unfold nestedSymbols at membership ⊢
  dsimp only at membership ⊢
  split at membership
  · next static =>
      rw [if_pos static]
      obtain ⟨way, front, parent, below⟩ := onTheWay membership
      refine ⟨way, List.Subset.trans front ?_, parent, below⟩
      exact List.Subset.trans (List.dropLast_subset _) (List.dropLast_subset _)
  · next plain =>
      rw [if_neg plain]
      rcases List.mem_append.mp membership with inner | last
      · obtain ⟨way, front, parent, below⟩ := onTheWay inner
        exact ⟨way, List.Subset.trans front (List.dropLast_subset _), parent,
          List.Subset.trans below (List.subset_append_left _ _)⟩
      · obtain ⟨member, -, rfl⟩ := Option.map_eq_some_iff.mp (Option.mem_toList.mp last)
        exact ⟨_, List.dropLast_subset _, rfl, List.subset_append_left _ _⟩

end AmbientStubs.Package
