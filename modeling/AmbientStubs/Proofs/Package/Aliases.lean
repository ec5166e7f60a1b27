import AmbientStubs.Proofs.Package.RenamedUses
import Mathlib.Data.List.Basic
import Mathlib.Data.List.Find
import Mathlib.Tactic.MkIffOfInductiveProp

/-!
Local aliases.  The alias of a symbol that is imported by its name leaves no trace in the model
of a package.  The alias of a whole module is the root of its paths there, but no declaration
shows it.
-/

namespace AmbientStubs

open Text

def replaceName (old new name : String) : String :=
  if name = old then new else name

section Replacement

variable {old new name : String}

theorem replaceName_of_ne (other : name ≠ old) : replaceName old new name = name :=
  if_neg other

/-- A name that was not there before keeps the others apart. -/
theorem replaceName_inj {first second : String} (freshFirst : first ≠ new)
    (freshSecond : second ≠ new) :
    replaceName old new first = replaceName old new second ↔ first = second := by
  refine ⟨?_, fun same => same ▸ rfl⟩
  intro same
  by_cases firstOld : first = old
  · by_cases secondOld : second = old
    · rw [firstOld, secondOld]
    · rw [replaceName, if_pos firstOld, replaceName_of_ne secondOld] at same
      exact absurd same.symm freshSecond
  · by_cases secondOld : second = old
    · rw [replaceName_of_ne firstOld, replaceName, if_pos secondOld] at same
      exact absurd same freshFirst
    · rwa [replaceName_of_ne firstOld, replaceName_of_ne secondOld] at same

end Replacement

namespace Import

def renameAlias (old new : String) (imported : Import) : Import :=
  { imported with localAlias := imported.localAlias.map (replaceName old new) }

theorem rootName_eq_or (imported : Import) :
    imported.rootName = imported.importedName ∨
      imported.localAlias = some imported.rootName := by
  unfold rootName
  cases wildcard : imported.isWildcard with
  | false => exact .inl rfl
  | true =>
      cases given : imported.localAlias with
      | none => exact .inl (beq_iff_eq.mp wildcard).symm
      | some localAlias => exact .inr rfl

/-- An import that mentions the one name as an alias at most, and the other not at all. -/
@[mk_iff]
structure Frees (old new : String) (imported : Import) : Prop where
  ne_old : imported.importedName ≠ old
  ne_new : imported.importedName ≠ new
  localAlias : imported.localAlias ≠ some new

instance (old new : String) (imported : Import) : Decidable (imported.Frees old new) :=
  decidable_of_iff _ (frees_iff old new imported).symm

variable {old new : String} {imported : Import} (frees : imported.Frees old new)

include frees

/-- The whole module has the root that its alias gives it, and a symbol that of its own name. -/
theorem rootName_renameAlias :
    (imported.renameAlias old new).rootName = replaceName old new imported.rootName := by
  have symbolName : replaceName old new imported.importedName = imported.importedName :=
    replaceName_of_ne frees.ne_old
  have sameWildcard : (imported.renameAlias old new).isWildcard = imported.isWildcard := rfl
  rw [rootName, rootName, sameWildcard]
  cases wildcard : imported.isWildcard with
  | false => exact symbolName.symm
  | true =>
      rw [isWildcard, beq_iff_eq] at wildcard
      rw [wildcard] at symbolName
      cases given : imported.localAlias with
      | none => simpa [renameAlias, given] using symbolName.symm
      | some localAlias => simp [renameAlias, given]

theorem rootName_ne : imported.rootName ≠ new := by
  rcases imported.rootName_eq_or with same | given
  · rw [same]
    exact frees.ne_new
  · intro same
    exact frees.localAlias (same ▸ given)

theorem binds_renameAlias {identifier : String} (fresh : identifier ≠ new) :
    (imported.renameAlias old new).binds (replaceName old new identifier) =
      imported.binds identifier := by
  have symbolName : (imported.importedName == replaceName old new identifier) =
      (imported.importedName == identifier) := by
    rw [Bool.eq_iff_iff, beq_iff_eq, beq_iff_eq, ← replaceName_inj frees.ne_new fresh,
      replaceName_of_ne frees.ne_old]
  have aliasName : (imported.localAlias.map (replaceName old new) ==
      some (replaceName old new identifier)) = (imported.localAlias == some identifier) := by
    cases given : imported.localAlias with
    | none => rfl
    | some localAlias =>
        have aliasFresh : localAlias ≠ new := by
          rintro rfl
          exact frees.localAlias given
        rw [Bool.eq_iff_iff, beq_iff_eq, beq_iff_eq, Option.map_some, Option.some.injEq,
          Option.some.injEq, replaceName_inj aliasFresh fresh]
  rw [binds, binds, ← symbolName, ← aliasName]
  rfl

end Import

namespace Access

/-- The access with another base, which is also the first segment of its path. -/
def renameBase (old new : String) (access : Access) : Access :=
  if access.base = old then
    { access with base := new, path := dotted (new :: access.segments.drop 1) }
  else access

end Access

namespace SourceSummary

def renameAlias (old new : String) (summary : SourceSummary) : SourceSummary :=
  { summary with
    imports := summary.imports.map (Import.renameAlias old new)
    accesses := summary.accesses.map (Access.renameBase old new) }

@[mk_iff]
structure HasPlainNames (summary : SourceSummary) : Prop where
  importedName : ∀ imported ∈ summary.imports, '.' ∉ imported.importedName.toList
  localAlias : ∀ imported ∈ summary.imports, ∀ name ∈ imported.localAlias, '.' ∉ name.toList
  className : ∀ access ∈ summary.accesses, ∀ name ∈ access.className, '.' ∉ name.toList

/-- A file that mentions the one name as an alias or a base at most, and the other in neither of
these places nor as the name of an imported symbol. -/
@[mk_iff]
structure Frees (old new : String) (summary : SourceSummary) : Prop where
  imports : ∀ imported ∈ summary.imports, imported.Frees old new
  accesses : ∀ access ∈ summary.accesses, access.base ≠ new

instance (summary : SourceSummary) : Decidable summary.HasPlainNames :=
  decidable_of_iff _ (hasPlainNames_iff summary).symm

instance (old new : String) (summary : SourceSummary) : Decidable (summary.Frees old new) :=
  decidable_of_iff _ (frees_iff old new summary).symm

variable {old new : String} {summary : SourceSummary} (frees : summary.Frees old new)

include frees

theorem binding?_renameAlias {identifier : String} (fresh : identifier ≠ new) :
    (summary.renameAlias old new).binding? (replaceName old new identifier) =
      (summary.binding? identifier).map (Import.renameAlias old new) := by
  rw [binding?, renameAlias, Import.binding?, List.find?_map, binding?, Import.binding?]
  congr 1
  apply List.find?_congr
  intro imported listed
  exact Import.binds_renameAlias (frees.imports imported listed) fresh

end SourceSummary

namespace Package

def Use.renameAlias (old new : String) : Use → Use
  | .ofImport imported => .ofImport (imported.renameAlias old new)
  | .ofAccess imported access =>
      .ofAccess (imported.renameAlias old new) (access.renameBase old new)

section Uses

variable {old new modulePath : String} {summary : SourceSummary}

theorem base_renameBase (access : Access) :
    (access.renameBase old new).base = replaceName old new access.base := by
  unfold Access.renameBase replaceName
  split <;> rfl

theorem membersOf_renameBase (plain : '.' ∉ new.toList) (access : Access) :
    membersOf (access.renameBase old new) = membersOf access := by
  unfold Access.renameBase
  split
  · have split : segments (dotted (new :: membersOf access)) = new :: membersOf access :=
      segments_dotted_cons plain fun member => not_mem_of_mem_membersOf
    change (segments (dotted (new :: membersOf access))).drop 1 = membersOf access
    rw [split, List.drop_succ_cons, List.drop_zero]
  · rfl

theorem resolvedIn_renameAlias (frees : summary.Frees old new) :
    resolvedIn modulePath (summary.renameAlias old new) =
      (resolvedIn modulePath summary).map fun use =>
        (use.1.renameAlias old new, use.2.renameBase old new) := by
  have accesses : (summary.renameAlias old new).accesses =
      summary.accesses.map (Access.renameBase old new) := rfl
  rw [resolvedIn, accesses, List.filterMap_map, resolvedIn, List.map_filterMap]
  apply List.filterMap_congr
  intro access listed
  rw [Function.comp_apply, base_renameBase,
    SourceSummary.binding?_renameAlias frees (frees.accesses access listed)]
  cases summary.binding? access.base with
  | none => rfl
  | some imported =>
      by_cases same : imported.modulePath = modulePath
      · simp [Option.filter, Import.renameAlias, same]
      · simp [Option.filter, Import.renameAlias, same]

/-- The uses of a package are the same before and after the replacement. -/
theorem usesIn_renameAlias (frees : summary.Frees old new) :
    usesIn modulePath (summary.renameAlias old new) =
      (usesIn modulePath summary).map (Use.renameAlias old new) := by
  have imports : (summary.renameAlias old new).imports =
      summary.imports.map (Import.renameAlias old new) := rfl
  rw [usesIn, usesIn, resolvedIn_renameAlias frees, imports, List.filter_map, List.map_append,
    List.map_map, List.map_map, List.map_map, List.map_map]
  rfl

end Uses

end Package

namespace RootRenaming

def identity : RootRenaming where
  name := id
  Occurs _ := True
  injective _ _ _ _ same := same
  plain _ plain := plain

def ofAlias (old new : String) (plain : '.' ∉ new.toList) : RootRenaming where
  name := replaceName old new
  Occurs root := root ≠ new
  injective _ _ freshFirst freshSecond same := (replaceName_inj freshFirst freshSecond).mp same
  plain root plainRoot := by
    unfold replaceName
    split
    · exact plain
    · exact plainRoot

theorem path_identity (path : String) : identity.path path = path := by
  obtain ⟨root, way, split⟩ := List.exists_cons_of_ne_nil (segments_ne_nil path)
  calc identity.path path = dotted (root :: way) := path_eq split
    _ = path := by rw [← split, dotted_segments]

theorem symbol_identity (symbol : Symbol) : identity.symbol symbol = symbol := by
  cases inside : symbol.parentPath with
  | none => exact symbol_eq_self inside rfl
  | some parent =>
      simp only [RootRenaming.symbol, inside, path_identity]
      rw [← inside]

theorem method_identity (method : Method) : identity.method method = method := by
  rw [RootRenaming.method, path_identity]

section Files

open Package

variable {roots : RootRenaming} {old new modulePath : String} {summary : SourceSummary}

theorem plain_rootName (plainNames : summary.HasPlainNames) {imported : Import}
    (listed : imported ∈ summary.imports) : '.' ∉ imported.rootName.toList := by
  rcases imported.rootName_eq_or with same | given
  · rw [same]
    exact plainNames.importedName imported listed
  · exact plainNames.localAlias imported listed _ given

theorem keepsAccess_renameBase (plain : '.' ∉ new.toList) {access : Access}
    (keeps : roots.KeepsClass access) :
    roots.KeepsAccess access (access.renameBase old new) where
  toKeepsClass := keeps
  members := membersOf_renameBase plain access
  member := by
    unfold Access.renameBase
    split <;> rfl
  context := by
    unfold Access.renameBase
    split <;> rfl
  className := by
    unfold Access.renameBase
    split <;> rfl

/-- Two files whose uses of a package differ only in the roots of imports. -/
def RenamesFile (roots : RootRenaming) (modulePath : String) (summary other : SourceSummary) :
    Prop :=
  List.Forall₂ roots.RenamesUse (usesIn modulePath summary) (usesIn modulePath other)

theorem renamesFile_renameAlias (plain : '.' ∉ new.toList) (frees : summary.Frees old new)
    (imports : ∀ imported ∈ summary.imports,
      roots.RenamesImport imported (imported.renameAlias old new))
    (accesses : ∀ access ∈ summary.accesses, roots.KeepsClass access) :
    roots.RenamesFile modulePath summary (summary.renameAlias old new) := by
  rw [RenamesFile, usesIn_renameAlias frees, List.forall₂_map_right_iff, List.forall₂_same]
  intro use membership
  obtain ⟨imported, listed, -, rfl⟩ | ⟨imported, listed, -, access, used, rfl⟩ :=
    mem_usesIn membership
  · exact .ofImport (imports imported listed)
  · exact .ofAccess (imports imported listed) (keepsAccess_renameBase plain (accesses access used))

end Files

section Identity

open Package

variable {old new modulePath : String} {summary : SourceSummary}
  (plainNames : summary.HasPlainNames)

include plainNames

theorem keepsClass_identity {access : Access} (used : access ∈ summary.accesses) :
    identity.KeepsClass access :=
  ⟨plainNames.className access used, fun _ _ => trivial, fun _ _ => rfl⟩

theorem renamesImport_identity {imported : Import} (listed : imported ∈ summary.imports)
    (named : imported.localAlias = some old → imported.isWildcard = false) :
    identity.RenamesImport imported (imported.renameAlias old new) where
  modulePath := rfl
  importedName := rfl
  kind := rfl
  rootName := by
    have sameWildcard : (imported.renameAlias old new).isWildcard = imported.isWildcard := rfl
    change _ = imported.rootName
    rw [Import.rootName, Import.rootName, sameWildcard]
    cases wildcard : imported.isWildcard with
    | false => rfl
    | true =>
        cases given : imported.localAlias with
        | none => simp [Import.renameAlias, given]
        | some localAlias =>
            have other : localAlias ≠ old := by
              rintro rfl
              rw [named given] at wildcard
              contradiction
            simp [Import.renameAlias, given, replaceName_of_ne other]
  plain := plain_rootName plainNames listed
  occurs := trivial

theorem renamesFile_self : identity.RenamesFile modulePath summary summary := by
  have root : ∀ imported ∈ summary.imports, identity.RenamesImport imported imported := by
    intro imported listed
    exact ⟨rfl, rfl, rfl, rfl, plain_rootName plainNames listed, trivial⟩
  rw [RenamesFile, List.forall₂_same]
  intro use membership
  obtain ⟨imported, listed, -, rfl⟩ | ⟨imported, listed, -, access, used, rfl⟩ :=
    mem_usesIn membership
  · exact .ofImport (root imported listed)
  · exact .ofAccess (root imported listed) ⟨keepsClass_identity plainNames used, rfl, rfl, rfl, rfl⟩

/-- The one file has another alias for symbols that it imports by their names. -/
theorem renamesFile_identity (plain : '.' ∉ new.toList) (frees : summary.Frees old new)
    (named : ∀ imported ∈ summary.imports, imported.localAlias = some old →
      imported.isWildcard = false) :
    identity.RenamesFile modulePath summary (summary.renameAlias old new) := by
  apply renamesFile_renameAlias plain frees
  · intro imported listed
    exact renamesImport_identity plainNames listed (named imported listed)
  · intro access used
    exact keepsClass_identity plainNames used

end Identity

section Alias

variable {old new modulePath : String} (plain : '.' ∉ new.toList) {summary : SourceSummary}
  (plainNames : summary.HasPlainNames) (frees : summary.Frees old new)

include plainNames frees

theorem renamesImport_ofAlias {imported : Import} (listed : imported ∈ summary.imports) :
    (ofAlias old new plain).RenamesImport imported (imported.renameAlias old new) where
  modulePath := rfl
  importedName := rfl
  kind := rfl
  rootName := Import.rootName_renameAlias (frees.imports imported listed)
  plain := plain_rootName plainNames listed
  occurs := Import.rootName_ne (frees.imports imported listed)

theorem renamesFile_ofAlias
    (classes : ∀ access ∈ summary.accesses,
      access.className ≠ some old ∧ access.className ≠ some new) :
    (ofAlias old new plain).RenamesFile modulePath summary (summary.renameAlias old new) := by
  apply renamesFile_renameAlias plain frees
  · intro imported listed
    exact renamesImport_ofAlias plain plainNames frees listed
  · intro access used
    refine ⟨plainNames.className access used, ?_, ?_⟩
    · rintro className named rfl
      exact (classes access used).2 named
    · intro className named
      apply replaceName_of_ne
      rintro rfl
      exact (classes access used).1 named

end Alias

end RootRenaming

namespace Package

open RootRenaming

/-- Files that differ in the roots of imports lead to packages that look the same, if the view
does not show the roots. -/
theorem map_get?_collect_of_renames (roots : RootRenaming) {modulePath : String}
    {summaries others : List SourceSummary} {View : Type} (view : Package → View)
    (settings : InferenceSettings)
    (files : List.Forall₂ (roots.RenamesFile modulePath) summaries others)
    (same : ∀ package renamed, roots.Renames package renamed → roots.Fits package →
      view renamed = view package) :
    ((collect settings others).get? modulePath).map view =
      ((collect settings summaries).get? modulePath).map view := by
  have steps : List.Forall₂ roots.RenamesUse (uses modulePath summaries) (uses modulePath others) :=
    List.rel_flatMap files fun _ _ inFile => inFile
  apply map_get?_collect
  · rw [Bool.eq_iff_iff, List.isEmpty_iff_length_eq_zero, List.isEmpty_iff_length_eq_zero,
      steps.length_eq]
  · exact same _ _ (renames_ofUses steps).1 (fits_ofUses steps)

/-- Local aliases leave no trace.  Another alias for symbols that a file imports by their names
changes no symbol, no method and no declaration of any package.  Another alias for whole modules
in all files changes no declaration, as long as no class of a static call has the one name or the
other. -/
theorem alias_choices_do_not_leak (settings : InferenceSettings) {old new : String}
    (plain : '.' ∉ new.toList) :
    (∀ (earlier later : List SourceSummary) (file : SourceSummary),
      (∀ summary ∈ earlier ++ file :: later, summary.HasPlainNames) → file.Frees old new →
      (∀ imported ∈ file.imports, imported.localAlias = some old → imported.isWildcard = false) →
      ∀ modulePath,
        ((collect settings (earlier ++ file.renameAlias old new :: later)).get? modulePath).map
            (fun package => (package.symbols, package.methods, package.declarationText)) =
          ((collect settings (earlier ++ file :: later)).get? modulePath).map
            (fun package => (package.symbols, package.methods, package.declarationText))) ∧
    ∀ summaries : List SourceSummary,
      (∀ summary ∈ summaries, summary.HasPlainNames ∧ summary.Frees old new ∧
        ∀ access ∈ summary.accesses, access.className ≠ some old ∧ access.className ≠ some new) →
      ∀ modulePath,
        ((collect settings (summaries.map (SourceSummary.renameAlias old new))).get?
            modulePath).map declarationText =
          ((collect settings summaries).get? modulePath).map declarationText := by
  constructor
  · intro earlier later file plainNames frees named modulePath
    rw [List.forall_mem_append, List.forall_mem_cons] at plainNames
    -- The roots stay as they are, so the packages are equal but for the aliases of their imports.
    apply map_get?_collect_of_renames identity
    · have unchanged (summaries : List SourceSummary)
          (plainNames : ∀ summary ∈ summaries, summary.HasPlainNames) :
          List.Forall₂ (identity.RenamesFile modulePath) summaries summaries := by
        rw [List.forall₂_same]
        intro summary listed
        exact renamesFile_self (plainNames summary listed)
      have changed : identity.RenamesFile modulePath file (file.renameAlias old new) :=
        renamesFile_identity plainNames.2.1 plain frees named
      exact List.rel_append (unchanged earlier plainNames.1)
        (.cons changed (unchanged later plainNames.2.2))
    · intro package renamed renames fits
      have symbols : renamed.symbols = package.symbols := by
        rw [renames.symbols]
        exact List.map_id'' symbol_identity package.symbols
      have methods : renamed.methods = package.methods := by
        rw [renames.methods]
        exact List.map_id'' method_identity package.methods
      rw [symbols, methods, renames.declarationText fits]
  · intro summaries readable modulePath
    apply map_get?_collect_of_renames (ofAlias old new plain)
    · rw [List.forall₂_map_right_iff, List.forall₂_same]
      intro summary listed
      obtain ⟨plainNames, frees, classes⟩ := readable summary listed
      exact renamesFile_ofAlias plain plainNames frees classes
    · intro package renamed renames fits
      exact renames.declarationText fits

def clientSummary : SourceSummary where
  path := "client.ets"
  imports := [.named "m" "Client" (some "Api") false]
  accesses := [⟨"Api", "Api.open", "open", .methodCall, none⟩]

def kitSummary : SourceSummary where
  path := "kit.ets"
  imports := [.wholeModule "m" "kit" false]
  accesses := [⟨"kit", "kit.crypto.Hash.create", "create", .staticCall, some "Hash"⟩]

theorem api_and_kit_do_not_leak :
    ((collect {} [clientSummary.renameAlias "Api" "Service", kitSummary]).get? "m").map
        (fun package => (package.symbols, package.methods, package.declarationText)) =
      ((collect {} [clientSummary, kitSummary]).get? "m").map
        (fun package => (package.symbols, package.methods, package.declarationText)) ∧
    ((collect {} [clientSummary, kitSummary]).get? "m").map flattenedRoots = some ["kit"] ∧
    ((collect {} ([clientSummary, kitSummary].map (SourceSummary.renameAlias "kit" "box"))).get?
      "m").map flattenedRoots = some ["box"] ∧
    ((collect {} ([clientSummary, kitSummary].map (SourceSummary.renameAlias "kit" "box"))).get?
        "m").map declarationText =
      ((collect {} [clientSummary, kitSummary]).get? "m").map declarationText := by
  refine ⟨?_, by decide +kernel, by decide +kernel, ?_⟩
  · apply (alias_choices_do_not_leak {} (by decide)).1 [] [kitSummary] clientSummary
    · decide
    · decide
    · decide
  · apply (alias_choices_do_not_leak {} (by decide)).2
    decide

end Package

end AmbientStubs
