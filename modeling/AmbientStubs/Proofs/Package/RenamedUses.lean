import AmbientStubs.Proofs.Declaration.RenamedLayout
import AmbientStubs.Proofs.Package.Origins
import Mathlib.Data.List.Forall2

/-!
Uses whose imports have other roots.  Two runs of uses that differ only in the roots of imports
lead to packages that differ only in the names of roots: what one use offers is what the other
offers, renamed, and an offer is new to one package if it is new to the other.
-/

namespace AmbientStubs

open Text

namespace RootRenaming

open Package

structure RenamesImport (roots : RootRenaming) (imported renamed : Import) : Prop where
  modulePath : renamed.modulePath = imported.modulePath
  importedName : renamed.importedName = imported.importedName
  kind : renamed.kind = imported.kind
  rootName : renamed.rootName = roots.name imported.rootName
  plain : '.' ∉ imported.rootName.toList
  occurs : roots.Occurs imported.rootName

structure KeepsClass (roots : RootRenaming) (access : Access) : Prop where
  plain : ∀ className ∈ access.className, '.' ∉ className.toList
  occurs : ∀ className ∈ access.className, roots.Occurs className
  kept : ∀ className ∈ access.className, roots.name className = className

/-- An access to the same members in the same way. -/
structure KeepsAccess (roots : RootRenaming) (access renamed : Access) : Prop extends
    KeepsClass roots access where
  members : membersOf renamed = membersOf access
  member : renamed.member = access.member
  context : renamed.context = access.context
  className : renamed.className = access.className

inductive RenamesUse (roots : RootRenaming) : Use → Use → Prop where
  | ofImport {imported renamed : Import} (root : roots.RenamesImport imported renamed) :
      RenamesUse roots (.ofImport imported) (.ofImport renamed)
  | ofAccess {imported renamed : Import} {access other : Access}
      (root : roots.RenamesImport imported renamed) (kept : roots.KeepsAccess access other) :
      RenamesUse roots (.ofAccess imported access) (.ofAccess renamed other)

variable {roots : RootRenaming} {settings : InferenceSettings}

theorem path_dotted {root : String} {members : List String} (plainRoot : '.' ∉ root.toList)
    (plain : ∀ member ∈ members, '.' ∉ member.toList) :
    roots.path (dotted (root :: members)) = dotted (roots.name root :: members) :=
  path_eq (segments_dotted_cons plainRoot plain)

theorem occursIn_dotted {root : String} {members : List String} (plainRoot : '.' ∉ root.toList)
    (plain : ∀ member ∈ members, '.' ∉ member.toList) (occurs : roots.Occurs root) :
    roots.OccursIn (dotted (root :: members)) := by
  simpa [OccursIn, segments_dotted_cons plainRoot plain] using occurs

theorem constantsBelow_path (parent : String) {way : List String}
    (plain : ∀ segment ∈ way, '.' ∉ segment.toList) :
    constantsBelow (roots.path parent) way = (constantsBelow parent way).map roots.symbol := by
  induction way generalizing parent with
  | nil => rfl
  | cons segment rest inductionHypothesis =>
      rw [List.forall_mem_cons] at plain
      rw [constantsBelow, constantsBelow, List.map_cons, ← path_append plain.1,
        inductionHypothesis _ plain.2]
      rfl

theorem identity_symbol_inj {first second : Symbol} (admitsFirst : roots.Admits first)
    (admitsSecond : roots.Admits second) :
    (roots.symbol first).identity = (roots.symbol second).identity ↔
      first.identity = second.identity := by
  have occursFirst := admitsFirst.occurs
  have occursSecond := admitsSecond.occurs
  simp only [Symbol.identity, Symbol.Identity.mk.injEq, kind_symbol, parentPath_symbol]
  cases inFirst : first.parentPath with
  | none =>
      cases inSecond : second.parentPath with
      | none =>
          rw [Symbol.qualifiedPath, inFirst] at occursFirst
          rw [Symbol.qualifiedPath, inSecond] at occursSecond
          have sameName := path_inj occursFirst occursSecond
          rw [path_of_not_mem admitsFirst.plain, path_of_not_mem admitsSecond.plain] at sameName
          rw [name_symbol_of_top inFirst, name_symbol_of_top inSecond, sameName]
          simp
      | some other => simp
  | some parent =>
      cases inSecond : second.parentPath with
      | none => simp
      | some other =>
          rw [Symbol.qualifiedPath, inFirst] at occursFirst
          rw [Symbol.qualifiedPath, inSecond] at occursSecond
          have samePath := path_inj ((occursIn_append admitsFirst.plain).mp occursFirst)
            ((occursIn_append admitsSecond.plain).mp occursSecond)
          rw [name_symbol_of_inside inFirst, name_symbol_of_inside inSecond, Option.map_some,
            Option.map_some, Option.some.injEq, samePath, Option.some.injEq]

namespace RenamesImport

variable {imported renamed : Import} (root : roots.RenamesImport imported renamed)

include root

theorem isWildcard_eq : renamed.isWildcard = imported.isWildcard := by
  rw [Import.isWildcard, root.importedName]
  rfl

theorem kept (named : imported.isWildcard = false) :
    roots.name imported.rootName = imported.rootName := by
  rw [← root.rootName, Import.rootName, Import.rootName, root.isWildcard_eq, named,
    root.importedName]
  rfl

theorem rootSymbol_eq :
    rootSymbol settings renamed = roots.symbol (rootSymbol settings imported) := by
  cases wildcard : imported.isWildcard with
  | false =>
      have kept := root.kept wildcard
      rw [symbol_eq_self rfl kept]
      simp only [rootSymbol, root.isWildcard_eq, root.rootName, root.modulePath, kept]
  | true =>
      simp only [rootSymbol, root.isWildcard_eq, root.rootName, wildcard, if_true,
        RootRenaming.symbol]
      by_cases same : roots.name imported.rootName = imported.rootName
      · rw [if_pos same, same]
      · rw [if_neg same]
        rfl

theorem admits_rootSymbol : roots.Admits (rootSymbol settings imported) where
  plain := root.plain
  occurs := (occursIn_of_not_mem root.plain).mpr root.occurs
  kept := by
    intro _ kind
    apply root.kept
    rw [Bool.eq_false_iff]
    intro wildcard
    exact kind (by simp [rootSymbol, wildcard])

variable {access other : Access} (kept : roots.KeepsAccess access other)

theorem admits_of_mem_nestedSymbols {symbol : Symbol}
    (membership : symbol ∈ nestedSymbols imported access) : roots.Admits symbol := by
  obtain ⟨before, name, after, split, shape⟩ := mem_nestedSymbols membership
  have plain : ∀ member ∈ before ++ name :: after, '.' ∉ member.toList := by
    intro member listed
    exact not_mem_of_mem_membersOf (split ▸ listed)
  rw [List.forall_mem_append, List.forall_mem_cons] at plain
  have inside := occursIn_dotted root.plain plain.1 root.occurs
  have occurs := (occursIn_append plain.2.1).mpr inside
  rcases shape with rfl | rfl
  · exact ⟨plain.2.1, occurs, by simp⟩
  · exact ⟨plain.2.1, occurs, by simp [memberSymbol]⟩

include kept

theorem nestedSymbols_eq :
    nestedSymbols renamed other = (nestedSymbols imported access).map roots.symbol := by
  have rootPath : renamed.rootName = roots.path imported.rootName := by
    rw [root.rootName, path_of_not_mem root.plain]
  have below {way : List String} (front : way ⊆ membersOf access) :
      constantsBelow renamed.rootName way =
        (constantsBelow imported.rootName way).map roots.symbol := by
    rw [rootPath]
    apply constantsBelow_path
    intro segment onTheWay
    exact not_mem_of_mem_membersOf (front onTheWay)
  have onTheWay : (membersOf access).dropLast ⊆ membersOf access := List.dropLast_subset _
  have last (member : String) :
      memberSymbol (dotted (renamed.rootName :: (membersOf access).dropLast)) member
          access.context =
        roots.symbol (memberSymbol (dotted (imported.rootName :: (membersOf access).dropLast))
          member access.context) := by
    rw [root.rootName, ← path_dotted root.plain
      fun segment inside => not_mem_of_mem_membersOf (onTheWay inside)]
    rfl
  have sameCall : other.isStaticCall = access.isStaticCall := by
    rw [Access.isStaticCall, kept.context, kept.className]
    rfl
  simp only [nestedSymbols, kept.members, kept.context, sameCall, last]
  cases access.isStaticCall with
  | true => exact below (List.Subset.trans (List.dropLast_subset _) onTheWay)
  | false =>
      simp only [Bool.false_eq_true, if_false]
      rw [List.map_append, below onTheWay, ← Option.toList_map, Option.map_map]
      rfl

theorem observedMethod?_eq :
    observedMethod? settings renamed other =
      (observedMethod? settings imported access).map roots.method := by
  have qualifier : roots.path (dotted (imported.rootName :: membersOf access)) =
      dotted (roots.name imported.rootName :: membersOf access) :=
    path_dotted root.plain fun member => not_mem_of_mem_membersOf
  simp only [observedMethod?, kept.members, kept.context, kept.className, kept.member,
    root.rootName, ← qualifier]
  split
  · split <;> rfl
  · rfl

omit root in
theorem staticOwner?_eq : staticOwner? other = staticOwner? access := by
  rw [staticOwner?, kept.context, kept.members, kept.className]
  rfl

end RenamesImport

section Step

variable {package renamed : Package} {use other : Use}

theorem Renames.hasTopLevel (renames : roots.Renames package renamed)
    (admits : ∀ symbol ∈ package.symbols, roots.Admits symbol) {name : String}
    (plain : '.' ∉ name.toList) (occurs : roots.Occurs name) (kept : roots.name name = name) :
    renamed.hasTopLevel name = package.hasTopLevel name := by
  rw [Package.hasTopLevel, renames.topLevel, List.any_map, Package.hasTopLevel, Bool.eq_iff_iff,
    List.any_eq_true, List.any_eq_true]
  apply exists_congr
  intro symbol
  apply and_congr_right
  intro listed
  obtain ⟨present, top⟩ := List.mem_filter.mp listed
  rw [Symbol.isTopLevel, Option.isNone_iff_eq_none] at top
  have admitted := admits symbol present
  have occursSymbol := admitted.occurs
  rw [Symbol.qualifiedPath, top] at occursSymbol
  have sameName := path_inj occursSymbol ((occursIn_of_not_mem plain).mpr occurs)
  rw [path_of_not_mem admitted.plain, path_of_not_mem plain, kept] at sameName
  rw [Function.comp_apply, name_symbol_of_top top, beq_iff_eq, beq_iff_eq, sameName]

/-- What a use offers to a renamed package is what the other one offers, renamed. -/
theorem RenamesUse.offered (renames : roots.Renames package renamed)
    (admits : ∀ symbol ∈ package.symbols, roots.Admits symbol) (step : roots.RenamesUse use other) :
    other.symbols settings ++ other.standIns renamed =
      (use.symbols settings ++ use.standIns package).map roots.symbol := by
  rw [List.map_append]
  cases step with
  | ofImport root => simp [Use.symbols, Use.standIns, root.rootSymbol_eq]
  | @ofAccess imported _ access _ root kept =>
      rw [Use.symbols, Use.symbols, root.nestedSymbols_eq kept, Use.standIns, Use.standIns,
        RenamesImport.staticOwner?_eq kept]
      congr 1
      cases static : staticOwner? access with
      | none => rfl
      | some owner =>
          have named := className_of_staticOwner? static
          have keepsName := kept.kept owner named
          have standing : roots.symbol (standIn owner) = standIn owner :=
            symbol_eq_self rfl keepsName
          have known := renames.hasTopLevel admits (kept.plain owner named)
            (kept.occurs owner named) keepsName
          simp only [Option.toList_some, List.filter_singleton, known]
          cases package.hasTopLevel owner with
          | true => rfl
          | false => simp [standing]

theorem RenamesUse.admits (step : roots.RenamesUse use other) {symbol : Symbol}
    (offered : symbol ∈ use.symbols settings ++ use.standIns package) : roots.Admits symbol := by
  cases step with
  | ofImport root =>
      rw [Use.symbols, Use.standIns, List.append_nil, List.mem_singleton] at offered
      rw [offered]
      exact root.admits_rootSymbol
  | ofAccess root kept =>
      rcases List.mem_append.mp offered with inside | standing
      · exact root.admits_of_mem_nestedSymbols inside
      · obtain ⟨owner, unknown, rfl⟩ := List.mem_map.mp standing
        have named := className_of_staticOwner?
          (Option.mem_toList.mp (List.mem_filter.mp unknown).1)
        exact ⟨kept.plain owner named, (occursIn_of_not_mem (kept.plain owner named)).mpr
          (kept.occurs owner named), fun _ _ => kept.kept owner named⟩

theorem RenamesUse.methods_eq (step : roots.RenamesUse use other) :
    other.methods settings = (use.methods settings).map roots.method := by
  cases step with
  | ofImport root => rfl
  | ofAccess root kept =>
      rw [Use.methods, Use.methods, root.observedMethod?_eq kept, Option.toList_map]

theorem defaultExport?_apply (settings : InferenceSettings) (package : Package) (use : Use) :
    (use.apply settings package).defaultExport? =
      package.defaultExport?.or
        ((use.imports.find? (·.kind == .defaultExport)).map (·.importedName)) := by
  rw [apply_eq, defaultExport?, List.find?_append, Option.map_or]
  rfl

theorem RenamesUse.imports_eq (step : roots.RenamesUse use other) :
    (other.imports.find? (·.kind == .defaultExport)).map (·.importedName) =
      (use.imports.find? (·.kind == .defaultExport)).map (·.importedName) := by
  cases step with
  | ofImport root =>
      simp only [Use.imports, List.find?_singleton, root.kind]
      split
      · rw [Option.map_some, Option.map_some, root.importedName]
      · rfl
  | ofAccess root kept => rfl

/-- A step keeps the packages equal up to the names of roots. -/
theorem Renames.apply (renames : roots.Renames package renamed)
    (admits : ∀ symbol ∈ package.symbols, roots.Admits symbol) (step : roots.RenamesUse use other) :
    roots.Renames (use.apply settings package) (other.apply settings renamed) where
  modulePath := by
    rw [apply_eq, apply_eq]
    exact renames.modulePath
  symbols := by
    rw [apply_eq, apply_eq]
    dsimp only
    rw [renames.symbols, step.offered renames admits]
    apply appendAllNew_map Symbol.identity
    · intro first second admitsFirst admitsSecond
      exact identity_symbol_inj admitsFirst admitsSecond
    · exact admits
    · intro symbol offered
      exact step.admits offered
  methods := by
    rw [apply_eq, apply_eq]
    dsimp only
    rw [renames.methods, step.methods_eq]
    apply appendAllNew_map Method.identity
    · exact fun first second _ _ => Iff.rfl
    · exact fun method _ => trivial
    · exact fun method _ => trivial
  defaultExport := by
    rw [defaultExport?_apply, defaultExport?_apply, renames.defaultExport, step.imports_eq]
  extraDeclarations := by
    rw [apply_eq, apply_eq]
    exact renames.extraDeclarations

theorem admits_apply (admits : ∀ symbol ∈ package.symbols, roots.Admits symbol)
    (step : roots.RenamesUse use other) :
    ∀ symbol ∈ (use.apply settings package).symbols, roots.Admits symbol := by
  intro symbol membership
  rw [apply_eq] at membership
  rcases mem_of_mem_appendAllNew Symbol.identity membership with before | offered
  · exact admits symbol before
  · exact step.admits offered

end Step

section Run

variable {modulePath : String} {uses others : List Use} {summaries : List SourceSummary}

/-- Uses that differ in the roots of imports lead to packages that differ in them. -/
theorem renames_ofUses (steps : List.Forall₂ roots.RenamesUse uses others) :
    roots.Renames (ofUses settings modulePath uses) (ofUses settings modulePath others) ∧
      ∀ symbol ∈ (ofUses settings modulePath uses).symbols, roots.Admits symbol := by
  have run : ∀ package renamed, roots.Renames package renamed →
      (∀ symbol ∈ package.symbols, roots.Admits symbol) →
      roots.Renames (uses.foldl (Use.apply settings) package)
          (others.foldl (Use.apply settings) renamed) ∧
        ∀ symbol ∈ (uses.foldl (Use.apply settings) package).symbols, roots.Admits symbol := by
    induction steps with
    | nil => exact fun package renamed renames admits => ⟨renames, admits⟩
    | cons step rest inductionHypothesis =>
        intro package renamed renames admits
        exact inductionHypothesis _ _ (renames.apply admits step) (admits_apply admits step)
  exact run _ _ ⟨rfl, rfl, rfl, rfl, rfl⟩ (by simp)

theorem RenamesUse.exists_of_mem (steps : List.Forall₂ roots.RenamesUse uses others) {use : Use}
    (membership : use ∈ uses) : ∃ other, roots.RenamesUse use other := by
  induction steps with
  | nil => contradiction
  | cons step rest inductionHypothesis =>
      rcases List.mem_cons.mp membership with rfl | later
      · exact ⟨_, step⟩
      · exact inductionHypothesis later

/-- The qualifier of a method starts at the root of an import of its package. -/
theorem exists_root_of_mem_methods
    (steps : List.Forall₂ roots.RenamesUse (Package.uses modulePath summaries) others)
    {method : Method}
    (membership : method ∈
      (ofUses settings modulePath (Package.uses modulePath summaries)).methods) :
    ∃ imported ∈ (ofUses settings modulePath (Package.uses modulePath summaries)).imports,
      (∃ renamed, roots.RenamesImport imported renamed) ∧
        (segments method.qualifier).head? = some imported.rootName := by
  rw [methods_ofUses] at membership
  obtain absurdity | offered := mem_of_mem_appendAllNew Method.identity membership
  · contradiction
  · obtain ⟨⟨imported, access⟩, called, observed⟩ := List.mem_flatMap.mp offered
    obtain ⟨_, step⟩ := RenamesUse.exists_of_mem steps (ofAccess_mem_uses.mpr called)
    cases step with
    | ofAccess root kept =>
        refine ⟨imported, mem_imports_of_mem_resolved rfl called, ⟨_, root⟩, ?_⟩
        have split : segments (dotted (imported.rootName :: membersOf access)) =
            imported.rootName :: membersOf access :=
          segments_dotted_cons root.plain fun member => not_mem_of_mem_membersOf
        obtain ⟨way, owner, member, -, ⟨className, -, -, rfl⟩ | ⟨-, rfl⟩⟩ :=
          observedMethod?_eq_some (Option.mem_toList.mp observed)
        · simp [inferredMethod, split]
        · simp [inferredMethod, split]

theorem fits_ofUses
    (steps : List.Forall₂ roots.RenamesUse (Package.uses modulePath summaries) others) :
    roots.Fits (ofUses settings modulePath (Package.uses modulePath summaries)) where
  symbols := (renames_ofUses steps).2
  methods := by
    intro method membership
    obtain ⟨imported, -, ⟨renamed, root⟩, first⟩ := exists_root_of_mem_methods steps membership
    rw [OccursIn, first]
    intro name same
    rw [← Option.some.inj same]
    exact root.occurs
  qualifiers := by
    intro method membership
    obtain ⟨imported, listed, ⟨renamed, root⟩, first⟩ := exists_root_of_mem_methods steps membership
    rw [first]
    intro name same
    rw [← Option.some.inj same]
    cases wildcard : imported.isWildcard with
    | true => exact .inl (mem_flattenedRoots_ofUses.mpr ⟨imported, listed, wildcard, rfl⟩)
    | false => exact .inr (root.kept wildcard)

end Run

end RootRenaming

end AmbientStubs
