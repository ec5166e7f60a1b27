import AmbientStubs.Proofs.Declaration.Groups
import AmbientStubs.Proofs.Package.FileOrder

/-!
Files that were seen before.  A package absorbs what it already holds: its symbols and methods stay
as they are, and only its list of imports grows.  The imports show in the declarations through the
first default export alone, so a repeated file leaves no trace in the text.
-/

namespace AmbientStubs

theorem appendAllNew_eq_self {Element Identity : Type} [DecidableEq Identity]
    {identity : Element → Identity} {elements offered : List Element}
    (taken : ∀ element ∈ offered, identity element ∈ elements.map identity) :
    appendAllNew identity elements offered = elements := by
  induction offered with
  | nil => rfl
  | cons element rest inductionHypothesis =>
      rw [List.forall_mem_cons] at taken
      rw [appendAllNew_cons, appendNew, if_pos taken.1]
      exact inductionHypothesis taken.2

namespace Package

def withImports (package : Package) (imports : List Import) : Package :=
  { package with imports := imports }

structure Absorbs (settings : InferenceSettings) (package : Package) (use : Use) : Prop where
  symbols : ∀ symbol ∈ use.symbols settings, package.Knows symbol.identity
  methods : ∀ method ∈ use.methods settings,
    method.identity ∈ package.methods.map Method.identity
  topLevel : ∀ name ∈ use.topLevelNames, package.hasTopLevel name = true

section Step

variable {settings : InferenceSettings} {package : Package} {use : Use}

theorem absorbs_apply (settings : InferenceSettings) (package : Package) (use : Use) :
    (use.apply settings package).Absorbs settings use where
  symbols := fun _ asked => knows_apply (.inr (List.mem_map_of_mem asked))
  methods := by
    intro method asked
    rw [apply_eq]
    exact (mem_map_appendAllNew _).mpr (.inr (List.mem_map_of_mem asked))
  topLevel := fun _ named => (hasTopLevel_apply settings package use).mpr (.inr named)

theorem Absorbs.apply (absorbed : package.Absorbs settings use) (other : Use) :
    (other.apply settings package).Absorbs settings use where
  symbols := fun symbol asked => knows_apply (.inl (absorbed.symbols symbol asked))
  methods := by
    intro method asked
    rw [apply_eq]
    exact (mem_map_appendAllNew _).mpr (.inl (absorbed.methods method asked))
  topLevel := fun name named =>
    (hasTopLevel_apply settings package other).mpr (.inl (absorbed.topLevel name named))

theorem Absorbs.foldl_apply (absorbed : package.Absorbs settings use) (others : List Use) :
    (others.foldl (Use.apply settings) package).Absorbs settings use := by
  induction others generalizing package with
  | nil => exact absorbed
  | cons other rest inductionHypothesis => exact inductionHypothesis (absorbed.apply other)

theorem absorbs_of_mem {uses : List Use} (seen : use ∈ uses) :
    (uses.foldl (Use.apply settings) package).Absorbs settings use := by
  obtain ⟨before, after, rfl⟩ := List.append_of_mem seen
  rw [List.foldl_append, List.foldl_cons]
  exact (absorbs_apply settings _ use).foldl_apply after

theorem Absorbs.standIns_eq_nil (absorbed : package.Absorbs settings use) :
    use.standIns package = [] := by
  cases use with
  | ofImport imported => rfl
  | ofAccess imported access =>
      rw [Use.standIns, List.map_eq_nil_iff, List.filter_eq_nil_iff]
      intro owner named
      simp [absorbed.topLevel owner named]

theorem Absorbs.apply_eq_withImports (absorbed : package.Absorbs settings use) :
    use.apply settings package = package.withImports (package.imports ++ use.imports) := by
  rw [apply_eq, absorbed.standIns_eq_nil, List.append_nil, appendAllNew_eq_self absorbed.symbols,
    appendAllNew_eq_self absorbed.methods]
  rfl

end Step

section Run

variable (settings : InferenceSettings)

theorem foldl_apply_of_absorbs {package : Package} {uses : List Use}
    (absorbed : ∀ use ∈ uses, package.Absorbs settings use) :
    uses.foldl (Use.apply settings) package =
      package.withImports (package.imports ++ uses.flatMap Use.imports) := by
  induction uses generalizing package with
  | nil => simp [withImports]
  | cons use rest inductionHypothesis =>
      rw [List.forall_mem_cons] at absorbed
      rw [List.foldl_cons, inductionHypothesis fun later listed =>
        (absorbed.2 later listed).apply use, absorbed.1.apply_eq_withImports]
      simp [withImports]

/-- The imports of a package have no part in what later uses add. -/
theorem foldl_apply_withImports (package : Package) (imports : List Import) (uses : List Use) :
    uses.foldl (Use.apply settings) (package.withImports imports) =
      (uses.foldl (Use.apply settings) package).withImports
        (imports ++ uses.flatMap Use.imports) := by
  induction uses generalizing package imports with
  | nil => simp
  | cons use rest inductionHypothesis =>
      have step : use.apply settings (package.withImports imports) =
          (use.apply settings package).withImports (imports ++ use.imports) := by
        rw [apply_eq, apply_eq]
        cases use <;> rfl
      rw [List.foldl_cons, List.foldl_cons, step, inductionHypothesis, List.flatMap_cons,
        List.append_assoc]

/-- Uses that were seen before add their imports and nothing else. -/
theorem ofUses_of_repeated (modulePath : String) {earlier again : List Use} (later : List Use)
    (seen : ∀ use ∈ again, use ∈ earlier) :
    ofUses settings modulePath (earlier ++ (again ++ later)) =
      (ofUses settings modulePath (earlier ++ later)).withImports
        ((earlier ++ (again ++ later)).flatMap Use.imports) := by
  have absorbed : ∀ use ∈ again, (ofUses settings modulePath earlier).Absorbs settings use :=
    fun use listed => absorbs_of_mem (seen use listed)
  have imports : (ofUses settings modulePath earlier).imports = earlier.flatMap Use.imports :=
    imports_eq_flatMap
  rw [ofUses, List.foldl_append, List.foldl_append]
  change later.foldl _ (again.foldl _ (ofUses settings modulePath earlier)) = _
  rw [foldl_apply_of_absorbs settings absorbed, foldl_apply_withImports, imports, ofUses, ofUses,
    List.foldl_append]
  simp

end Run

section Text

variable (package : Package) (imports : List Import)

theorem scopeDeclarations_withImports (relocations : List Relocation) (levels : Nat)
    (atModuleLevel : Bool) (entries : List Entry) (owners : List String) :
    (package.withImports imports).scopeDeclarations relocations levels atModuleLevel entries
        owners =
      package.scopeDeclarations relocations levels atModuleLevel entries owners := by
  induction levels generalizing atModuleLevel entries owners with
  | zero => rfl
  | succ levels inductionHypothesis =>
      rw [scopeDeclarations_succ, scopeDeclarations_succ]
      congr 1
      funext entry
      rw [group, group, blockOf, blockOf, inductionHypothesis]
      rfl

/-- The text shows no import but the first default export. -/
theorem declarationText_withImports
    (sameDefault : (package.withImports imports).defaultExport? = package.defaultExport?) :
    (package.withImports imports).declarationText = package.declarationText := by
  have declarations :
      (package.withImports imports).moduleDeclarations = package.moduleDeclarations :=
    scopeDeclarations_withImports package imports _ _ _ _ _
  rw [declarationText, declarationText, declarationFile, declarationFile, declarations, sameDefault]
  rfl

end Text

theorem find?_append_of_subset {Element : Type} {test : Element → Bool}
    {earlier again : List Element} (later : List Element) (seen : again ⊆ earlier) :
    (earlier ++ (again ++ later)).find? test = (earlier ++ later).find? test := by
  rw [List.find?_append, List.find?_append, List.find?_append]
  cases found : earlier.find? test with
  | some element => rfl
  | none =>
      have absent : again.find? test = none := by
        rw [List.find?_eq_none] at found ⊢
        exact fun element listed => found element (seen listed)
      rw [absent, Option.none_or]

def importsOf (modulePath : String) (summaries : List SourceSummary) : List Import :=
  summaries.flatMap fun summary => summary.imports.filter (·.modulePath == modulePath)

theorem flatMap_imports_uses (modulePath : String) (summaries : List SourceSummary) :
    (uses modulePath summaries).flatMap Use.imports = importsOf modulePath summaries := by
  rw [flatMap_uses_of_imports _ _ Use.imports fun _ _ => rfl]
  simp [Use.imports, importsOf]

/-- Seeing a file again adds nothing but imports.  The same packages are collected; each keeps its
symbols and methods in their order and its text to the letter, and its imports grow by those of the
file, at the place of the copy. -/
theorem repeated_file_adds_only_imports (settings : InferenceSettings)
    (earlier middle later : List SourceSummary) (file : SourceSummary) :
    (collect settings (earlier ++ file :: (middle ++ file :: later))).keys =
      (collect settings (earlier ++ file :: (middle ++ later))).keys ∧
    ∀ modulePath package,
      (collect settings (earlier ++ file :: (middle ++ later))).get? modulePath = some package →
      ∃ grown,
        (collect settings (earlier ++ file :: (middle ++ file :: later))).get? modulePath =
          some grown ∧
        grown.symbols = package.symbols ∧ grown.methods = package.methods ∧
        grown.declarationText = package.declarationText ∧
        package.imports = importsOf modulePath (earlier ++ file :: middle) ++
          importsOf modulePath later ∧
        grown.imports = importsOf modulePath (earlier ++ file :: middle) ++
          (file.imports.filter (·.modulePath == modulePath) ++ importsOf modulePath later) := by
  have sameKeys : (collect settings (earlier ++ file :: (middle ++ file :: later))).keys =
      (collect settings (earlier ++ file :: (middle ++ later))).keys := by
    refine (ascending_collect settings _).keys_eq (ascending_collect settings _) ?_
    intro modulePath
    simp only [mem_keys_collect_iff, List.mem_append, List.mem_cons]
    grind
  refine ⟨sameKeys, ?_⟩
  intro modulePath package found
  obtain ⟨grown, foundAgain⟩ := Catalog.exists_get?_of_keys_eq sameKeys found
  have seen : ∀ use ∈ usesIn modulePath file, use ∈ uses modulePath (earlier ++ file :: middle) :=
    fun use inFile => List.mem_flatMap.mpr ⟨file, by simp, inFile⟩
  have before : uses modulePath (earlier ++ file :: (middle ++ later)) =
      uses modulePath (earlier ++ file :: middle) ++ uses modulePath later := by
    simp [uses]
  have after : uses modulePath (earlier ++ file :: (middle ++ file :: later)) =
      uses modulePath (earlier ++ file :: middle) ++
        (usesIn modulePath file ++ uses modulePath later) := by
    simp [uses]
  have built := eq_ofUses_of_get?_collect found
  rw [before] at built
  have imports : package.imports =
      importsOf modulePath (earlier ++ file :: middle) ++ importsOf modulePath later := by
    rw [built, imports_eq_flatMap, List.flatMap_append, flatMap_imports_uses, flatMap_imports_uses]
  have grownImports :
      (uses modulePath (earlier ++ file :: (middle ++ file :: later))).flatMap Use.imports =
        importsOf modulePath (earlier ++ file :: middle) ++
          (file.imports.filter (·.modulePath == modulePath) ++ importsOf modulePath later) := by
    rw [flatMap_imports_uses]
    simp [importsOf]
  have builtAgain := eq_ofUses_of_get?_collect foundAgain
  rw [after, ofUses_of_repeated settings modulePath _ seen, ← built, ← after, grownImports]
    at builtAgain
  refine ⟨grown, foundAgain, ?_⟩
  subst builtAgain
  refine ⟨rfl, rfl, ?_, imports, rfl⟩
  apply declarationText_withImports
  rw [defaultExport?, defaultExport?, imports, withImports, find?_append_of_subset]
  intro imported inFile
  exact List.mem_flatMap.mpr ⟨file, by simp, inFile⟩

theorem repeated_call_adds_only_its_import :
    ∃ package grown,
      (collect {} [callingSummary, importingSummary]).get? "m" = some package ∧
      (collect {} [callingSummary, importingSummary, callingSummary]).get? "m" = some grown ∧
      grown.symbols = package.symbols ∧ grown.methods = package.methods ∧
      grown.declarationText = package.declarationText ∧
      grown.imports = package.imports ++ [.wholeModule "m" "Lib" false] := by
  have found := get?_collect_of_uses {} uses_callingSummary (by decide)
  obtain ⟨-, held⟩ := repeated_file_adds_only_imports {} [] [importingSummary] [] callingSummary
  obtain ⟨grown, foundAgain, symbols, methods, text, -, imports⟩ := held "m" _ found
  refine ⟨_, grown, found, foundAgain, symbols, methods, text, ?_⟩
  rw [imports]
  decide +kernel

end Package

end AmbientStubs
