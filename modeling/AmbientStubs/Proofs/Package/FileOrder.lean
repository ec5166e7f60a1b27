import AmbientStubs.Proofs.Package.Exactness
import AmbientStubs.Proofs.Package.Origins
import Mathlib.Data.List.Sort

/-!
The order of the files.  Files in another order lead to the same packages with the same model:
the same imports, methods, symbols below the roots and names of the top level.  Only the interface
that stands in for the class of a static call depends on the order, where an import gives the name
another kind.
-/

namespace AmbientStubs

theorem Catalog.Ascending.keys_eq {Value : Type} {first second : Catalog Value}
    (firstAscending : first.Ascending) (secondAscending : second.Ascending)
    (same : ∀ key, key ∈ first.keys ↔ key ∈ second.keys) : first.keys = second.keys :=
  firstAscending.keys.eq_of_mem_iff secondAscending.keys same

theorem Catalog.exists_get?_of_keys_eq {Value : Type} {first second : Catalog Value}
    (same : first.keys = second.keys) {key : String} {value : Value}
    (found : second.get? key = some value) : ∃ other, first.get? key = some other := by
  rw [← Option.isSome_iff_exists, ← mem_keys_iff, same, mem_keys_iff, found, Option.isSome_some]

namespace Package

/-- Two packages hold the same model.  The identities of their symbols agree, but for interfaces
of the top level whose name both declare with another kind as well. -/
structure SameModel (first second : Package) : Prop where
  imports : first.imports.Perm second.imports
  methods : ∀ identity, identity ∈ first.methods.map Method.identity ↔
    identity ∈ second.methods.map Method.identity
  nested : ∀ identity : Symbol.Identity, identity.parentPath.isSome = true →
    (first.Knows identity ↔ second.Knows identity)
  topLevel : ∀ name, first.hasTopLevel name = second.hasTopLevel name
  differences : ∀ identity, ¬ (first.Knows identity ↔ second.Knows identity) →
    identity.kind = .interfaceType ∧ identity.parentPath = none ∧
      ∃ kind, kind ≠ .interfaceType ∧ first.Knows ⟨identity.name, kind, none⟩ ∧
        second.Knows ⟨identity.name, kind, none⟩

section Uses

variable {settings : InferenceSettings} {modulePath : String} {uses : List Use}

theorem imports_eq_flatMap :
    (ofUses settings modulePath uses).imports = uses.flatMap Use.imports := by
  rw [ofUses, foldl_apply_eq]
  rfl

theorem mem_methods_ofUses {identity : Method.Identity} :
    identity ∈ (ofUses settings modulePath uses).methods.map Method.identity ↔
      ∃ use ∈ uses, identity ∈ (use.methods settings).map Method.identity := by
  rw [ofUses, foldl_apply_eq]
  simp only [mem_map_appendAllNew, List.map_nil, List.not_mem_nil, false_or, List.map_flatMap,
    List.mem_flatMap]

theorem knows_nested_ofUses {identity : Symbol.Identity}
    (inside : identity.parentPath.isSome = true) :
    (ofUses settings modulePath uses).Knows identity ↔
      ∃ use ∈ uses, identity ∈ use.nestedSymbols.map Symbol.identity := by
  have fresh : ({ modulePath := modulePath } : Package).nested = [] := rfl
  rw [Knows, ← mem_map_nested_iff inside, ofUses, nested_foldl_apply, fresh]
  simp only [mem_map_appendAllNew, List.map_nil, List.not_mem_nil, false_or, List.map_flatMap,
    List.mem_flatMap]

/-- What is known at the top level comes from an import, or is an interface. -/
theorem exists_import_of_knows {name : String} {kind : SymbolKind}
    (known : (ofUses settings modulePath uses).Knows ⟨name, kind, none⟩)
    (other : kind ≠ .interfaceType) :
    ∃ imported, .ofImport imported ∈ uses ∧
      (rootSymbol settings imported).identity = ⟨name, kind, none⟩ := by
  obtain ⟨symbol, membership, rfl, rfl, top⟩ := knows_iff.mp known
  obtain ⟨use, listed, adds⟩ := exists_use_of_topLevel membership top
  cases adds with
  | root => exact ⟨_, listed, rfl⟩
  | owner static => exact absurd rfl other

variable {others : List Use} (permuted : uses.Perm others)

include permuted

theorem knows_topLevel_of_perm {name : String} {kind : SymbolKind}
    (known : (ofUses settings modulePath uses).Knows ⟨name, kind, none⟩)
    (other : kind ≠ .interfaceType) :
    (ofUses settings modulePath others).Knows ⟨name, kind, none⟩ := by
  obtain ⟨imported, listed, same⟩ := exists_import_of_knows known other
  rw [← same]
  exact knows_rootSymbol (mem_imports_ofUses.mpr (permuted.mem_iff.mp listed))

theorem hasTopLevel_eq_of_perm (name : String) :
    (ofUses settings modulePath uses).hasTopLevel name =
      (ofUses settings modulePath others).hasTopLevel name := by
  rw [Bool.eq_iff_iff, ofUses, ofUses, hasTopLevel_foldl_apply, hasTopLevel_foldl_apply,
    (permuted.flatMap_right Use.topLevelNames).mem_iff]

theorem knows_nested_of_perm {identity : Symbol.Identity}
    (inside : identity.parentPath.isSome = true) :
    (ofUses settings modulePath uses).Knows identity ↔
      (ofUses settings modulePath others).Knows identity := by
  simp only [knows_nested_ofUses inside, permuted.mem_iff]

/-- A symbol that another order does not lead to is an interface of the top level, and both orders
know its name by another kind. -/
theorem otherKind_of_not_knows {identity : Symbol.Identity}
    (known : (ofUses settings modulePath uses).Knows identity)
    (unknown : ¬ (ofUses settings modulePath others).Knows identity) :
    identity.kind = .interfaceType ∧ identity.parentPath = none ∧
      ∃ kind, kind ≠ .interfaceType ∧
        (ofUses settings modulePath uses).Knows ⟨identity.name, kind, none⟩ ∧
        (ofUses settings modulePath others).Knows ⟨identity.name, kind, none⟩ := by
  obtain ⟨name, kind, parentPath⟩ := identity
  cases parentPath with
  | some parent => exact absurd ((knows_nested_of_perm permuted rfl).mp known) unknown
  | none =>
      have interfaceKind : kind = .interfaceType := by
        by_contra other
        exact unknown (knows_topLevel_of_perm permuted known other)
      refine ⟨interfaceKind, rfl, ?_⟩
      have present : (ofUses settings modulePath others).hasTopLevel name = true := by
        rw [← hasTopLevel_eq_of_perm permuted, hasTopLevel_iff]
        exact ⟨kind, known⟩
      obtain ⟨found, knownThere⟩ := (hasTopLevel_iff _).mp present
      have other : found ≠ .interfaceType := by
        rintro rfl
        exact unknown (interfaceKind ▸ knownThere)
      exact ⟨found, other, knows_topLevel_of_perm permuted.symm knownThere other, knownThere⟩

/-- Uses in another order lead to the same model. -/
theorem sameModel_of_perm :
    SameModel (ofUses settings modulePath uses) (ofUses settings modulePath others) where
  imports := by
    rw [imports_eq_flatMap, imports_eq_flatMap]
    exact permuted.flatMap_right Use.imports
  methods := by
    intro identity
    simp only [mem_methods_ofUses, permuted.mem_iff]
  nested := fun _ inside => knows_nested_of_perm permuted inside
  topLevel := hasTopLevel_eq_of_perm permuted
  differences := by
    intro identity different
    by_cases known : (ofUses settings modulePath uses).Knows identity
    · by_cases knownThere : (ofUses settings modulePath others).Knows identity
      · exact absurd (iff_of_true known knownThere) different
      · exact otherKind_of_not_knows permuted known knownThere
    · by_cases knownThere : (ofUses settings modulePath others).Knows identity
      · obtain ⟨kind, top, found, other, there, here⟩ :=
          otherKind_of_not_knows permuted.symm knownThere known
        exact ⟨kind, top, found, other, here, there⟩
      · exact absurd (iff_of_false known knownThere) different

end Uses

theorem ascending_collect (settings : InferenceSettings) (summaries : List SourceSummary) :
    (collect settings summaries).Ascending :=
  (ready_collect settings summaries).ascending

/-- The order of the files does not change the model.  The same packages are collected, in the same
order; each has the same imports, as often, and the same methods, symbols below the roots and names
of the top level; and a symbol that only one order leads to is an interface of the top level whose
name has another kind as well. -/
theorem file_order_does_not_change_the_model (settings : InferenceSettings)
    {summaries others : List SourceSummary} (permuted : others.Perm summaries) :
    (collect settings others).keys = (collect settings summaries).keys ∧
    ∀ modulePath package, (collect settings summaries).get? modulePath = some package →
      ∃ reordered, (collect settings others).get? modulePath = some reordered ∧
        SameModel reordered package := by
  have sameKeys : (collect settings others).keys = (collect settings summaries).keys := by
    refine (ascending_collect settings others).keys_eq (ascending_collect settings summaries) ?_
    intro modulePath
    simp only [mem_keys_collect_iff, permuted.mem_iff]
  refine ⟨sameKeys, ?_⟩
  intro modulePath package found
  obtain ⟨reordered, foundThere⟩ := Catalog.exists_get?_of_keys_eq sameKeys found
  refine ⟨reordered, foundThere, ?_⟩
  rw [eq_ofUses_of_get?_collect found, eq_ofUses_of_get?_collect foundThere]
  exact sameModel_of_perm (permuted.flatMap_right (usesIn modulePath))

def callingSummary : SourceSummary where
  path := "call.ets"
  imports := [.wholeModule "m" "Lib" false]
  accesses := [⟨"Lib", "Lib.core.Box.open", "open", .staticCall, some "Box"⟩]

def importingSummary : SourceSummary where
  path := "import.ets"
  imports := [.named "m" "Box" none false]

theorem uses_callingSummary :
    uses "m" [callingSummary, importingSummary] =
      [.ofImport (.wholeModule "m" "Lib" false),
        .ofAccess (.wholeModule "m" "Lib" false)
          ⟨"Lib", "Lib.core.Box.open", "open", .staticCall, some "Box"⟩,
        .ofImport (.named "m" "Box" none false)] := by
  decide +kernel

theorem box_files_lead_to_the_same_model :
    ∃ package reordered,
      (collect {} [callingSummary, importingSummary]).get? "m" = some package ∧
      (collect {} [importingSummary, callingSummary]).get? "m" = some reordered ∧
      SameModel reordered package ∧
      package.Knows ⟨"Box", .interfaceType, none⟩ ∧
      ¬ reordered.Knows ⟨"Box", .interfaceType, none⟩ := by
  have found := get?_collect_of_uses {} uses_callingSummary (by decide)
  obtain ⟨-, held⟩ := file_order_does_not_change_the_model {}
    (List.Perm.swap callingSummary importingSummary [])
  obtain ⟨reordered, foundThere, same⟩ := held "m" _ found
  refine ⟨_, reordered, found, foundThere, same, ?_, ?_⟩
  · rw [Knows]
    decide +kernel
  · rw [eq_ofUses_of_get?_collect foundThere, Knows]
    decide +kernel

end Package

end AmbientStubs
