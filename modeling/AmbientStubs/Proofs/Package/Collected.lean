import AmbientStubs.Proofs.Package.Legible
import AmbientStubs.Proofs.Package.Model
import AmbientStubs.Proofs.SourceSummary

/-!
Collected packages are legible: the names that the uses in source texts lead to are
identifiers, and the texts that are inferred for them are single lines.
-/

namespace AmbientStubs.Package

open Text Convention

theorem isIdentifier_of_mem_membersOf {access : Access} (legible : access.Legible)
    {member : String} (membership : member ∈ membersOf access) : IsIdentifier member :=
  legible.identifiers member (List.mem_of_mem_drop membership)

theorem legible_memberSymbol {parent member : String} (context : AccessContext)
    (identifier : IsIdentifier member) : (memberSymbol parent member context).Legible := by
  refine ⟨identifier, ?_⟩
  intro type found
  simp only [memberSymbol, functionResult] at found
  split at found
  · rw [Option.mem_some] at found
    rw [← found]
    split <;> decide
  · contradiction

theorem legible_nestedSymbols {imported : Import} {access : Access} (legible : access.Legible)
    {symbol : Symbol} (membership : symbol ∈ nestedSymbols imported access) : symbol.Legible := by
  obtain ⟨before, name, after, split, same⟩ := mem_nestedSymbols membership
  have identifier : IsIdentifier name :=
    isIdentifier_of_mem_membersOf legible (by rw [split]; simp)
  rcases same with rfl | rfl
  · exact ⟨identifier, by simp⟩
  · exact legible_memberSymbol access.context identifier

theorem methodShape_singleLine (endings : List String) {owner : String}
    (single : SingleLine owner) (name : String) :
    SingleLine (methodShape endings owner name).returnType ∧
      ∀ parameter ∈ (methodShape endings owner name).parameters,
        SingleLine parameter.name ∧ SingleLine parameter.type := by
  unfold methodShape
  split
  · split
    · exact ⟨single, List.forall_mem_singleton.mpr (by decide)⟩
    · exact ⟨single, List.forall_mem_singleton.mpr (by decide)⟩
  · split
    · exact ⟨single, List.forall_mem_singleton.mpr (by decide)⟩
    · split
      · exact ⟨by decide, by decide⟩
      · split
        · exact ⟨by decide, by decide⟩
        · exact ⟨by decide, by decide⟩

theorem legible_inferredMethod {settings : InferenceSettings} {isStatic : Bool}
    {owner name qualifier : String} (ownerName : IsIdentifier owner)
    (methodName : IsIdentifier name) (single : SingleLine qualifier) :
    (inferredMethod settings isStatic owner name qualifier).Legible := by
  have shape := methodShape_singleLine settings.collectionEndings ownerName.singleLine name
  exact ⟨methodName, ownerName, shape.2, shape.1, single⟩

theorem isIdentifier_className {access : Access} (legible : access.Legible)
    (isStatic : access.context = .staticCall) {className : String}
    (named : access.className = some className) : IsIdentifier className := by
  obtain ⟨way, owner, found, segments⟩ := legible.staticCall isStatic
  rw [named, Option.some.injEq] at found
  rw [found]
  apply legible.identifiers
  rw [segments]
  simp

theorem isIdentifier_member {access : Access} (legible : access.Legible) :
    IsIdentifier access.member := by
  obtain ⟨way, segments⟩ := legible.segments
  apply legible.identifiers
  rw [segments]
  simp

theorem legible_observedMethod? {settings : InferenceSettings} {imported : Import}
    {access : Access} (root : IsIdentifier imported.rootName) (legible : access.Legible)
    {method : Method} (found : observedMethod? settings imported access = some method) :
    method.Legible := by
  have qualifier : SingleLine (dotted (imported.rootName :: membersOf access)) := by
    rw [singleLine_dotted, List.forall_mem_cons]
    exact ⟨root.singleLine, fun member membership =>
      (isIdentifier_of_mem_membersOf legible membership).singleLine⟩
  obtain ⟨way, owner, member, shape, ⟨className, isStatic, named, rfl⟩ | ⟨-, rfl⟩⟩ :=
    observedMethod?_eq_some found
  · exact legible_inferredMethod (isIdentifier_className legible isStatic named)
      (isIdentifier_member legible) qualifier
  · have ownerName : IsIdentifier owner :=
      isIdentifier_of_mem_membersOf legible (by simp [shape])
    have memberName : IsIdentifier member :=
      isIdentifier_of_mem_membersOf legible (by simp [shape])
    exact legible_inferredMethod ownerName memberName qualifier

theorem isIdentifier_staticOwner? {access : Access} (legible : access.Legible) {owner : String}
    (found : staticOwner? access = some owner) : IsIdentifier owner := by
  unfold staticOwner? at found
  split at found
  · next call => exact isIdentifier_className legible call.1 found
  · contradiction

def Use.Legible : Use → Prop
  | .ofImport imported => imported.Legible
  | .ofAccess imported access => imported.Legible ∧ access.Legible

theorem Use.Legible.symbols {use : Use} (readable : use.Legible) (settings : InferenceSettings)
    (package : Package) :
    ∀ symbol ∈ use.symbols settings ++ use.standIns package, symbol.Legible := by
  intro symbol membership
  cases use with
  | ofImport imported =>
      rw [Use.symbols, Use.standIns, List.append_nil, List.mem_singleton] at membership
      rw [membership]
      exact ⟨Import.Legible.rootName readable, by simp [rootSymbol]⟩
  | ofAccess imported access =>
      rcases List.mem_append.mp membership with inside | standing
      · exact legible_nestedSymbols readable.2 inside
      · obtain ⟨owner, unknown, rfl⟩ := List.mem_map.mp standing
        have static := Option.mem_toList.mp (List.mem_filter.mp unknown).1
        exact ⟨isIdentifier_staticOwner? readable.2 static, by simp [standIn]⟩

theorem Use.Legible.methods {use : Use} (readable : use.Legible) (settings : InferenceSettings) :
    ∀ method ∈ use.methods settings, method.Legible := by
  intro method membership
  cases use with
  | ofImport imported => simp [Use.methods] at membership
  | ofAccess imported access =>
      rw [Use.methods, Option.mem_toList] at membership
      exact legible_observedMethod? readable.1.rootName readable.2 membership

theorem Use.Legible.imports {use : Use} (readable : use.Legible) :
    ∀ imported ∈ use.imports, SingleLine imported.importedName := by
  intro imported membership
  cases use with
  | ofImport other =>
      rw [List.mem_singleton.mp membership]
      exact Import.Legible.singleLine_importedName readable
  | ofAccess other access => simp [Use.imports] at membership

section Step

variable {package : Package} (legible : package.Legible)

include legible

theorem Legible.apply (settings : InferenceSettings) {use : Use} (readable : use.Legible) :
    (use.apply settings package).Legible := by
  rw [apply_eq]
  refine { legible with imports := ?_, symbols := ?_, methods := ?_ }
  · rw [List.forall_mem_append]
    exact ⟨legible.imports, readable.imports⟩
  · intro symbol membership
    rcases mem_of_mem_appendAllNew Symbol.identity membership with before | offered
    · exact legible.symbols symbol before
    · exact readable.symbols settings package symbol offered
  · intro method membership
    rcases mem_of_mem_appendAllNew Method.identity membership with before | offered
    · exact legible.methods method before
    · exact readable.methods settings method offered

theorem Legible.foldl_apply (settings : InferenceSettings) {uses : List Use}
    (readable : ∀ use ∈ uses, use.Legible) :
    (uses.foldl (Use.apply settings) package).Legible := by
  induction uses generalizing package with
  | nil => exact legible
  | cons use rest inductionHypothesis =>
      rw [List.forall_mem_cons] at readable
      exact inductionHypothesis (legible.apply settings readable.1) readable.2

end Step

/-- Every collected package of legible summaries is legible. -/
theorem legible_of_get?_collect {settings : InferenceSettings} {summaries : List SourceSummary}
    (readable : ∀ summary ∈ summaries, summary.Legible) {modulePath : String} {package : Package}
    (found : (collect settings summaries).get? modulePath = some package) : package.Legible := by
  have concerned : ∀ use ∈ uses modulePath summaries, use.Legible ∧ SingleLine modulePath := by
    intro use membership
    obtain ⟨summary, listed, inFile⟩ := List.mem_flatMap.mp membership
    have legible := readable summary listed
    rcases mem_usesIn inFile with ⟨imported, known, rfl, rfl⟩ |
      ⟨imported, known, rfl, access, used, rfl⟩
    · exact ⟨legible.imports imported known, (legible.imports imported known).modulePath⟩
    · exact ⟨⟨legible.imports imported known, legible.accesses access used⟩,
        (legible.imports imported known).modulePath⟩
  have external := external_of_get?_collect settings modulePath found
  rw [get?_collect settings modulePath summaries external] at found
  split at found
  · contradiction
  · next nonempty =>
      rw [List.isEmpty_iff] at nonempty
      obtain ⟨use, membership⟩ := List.exists_mem_of_ne_nil _ nonempty
      have empty : Package.Legible { modulePath := modulePath } :=
        ⟨(concerned use membership).2, by simp, by simp, by simp, rfl⟩
      rw [← Option.some.inj found]
      exact empty.foldl_apply settings fun use membership => (concerned use membership).1

end AmbientStubs.Package
