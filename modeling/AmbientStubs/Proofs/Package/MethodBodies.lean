import AmbientStubs.Proofs.Declaration.Location
import AmbientStubs.Proofs.Package.StaticCalls

/-!
Every method of a collected package stands in the body of its owner.  The text has a body for
each owner, at the module level or inside the namespace blocks of the container that the owner
is relocated to, with the signatures of all its methods; and no other class or interface of the
text has a line of its own.
-/

namespace AmbientStubs

open Text

theorem countP_eq_one {Element Key : Type} {elements : List Element} {key : Element → Key}
    {test : Element → Bool} (distinct : (elements.map key).Nodup)
    (same : ∀ first ∈ elements, ∀ second ∈ elements, test first = true → test second = true →
      key first = key second)
    (found : ∃ element ∈ elements, test element = true) : elements.countP test = 1 := by
  induction elements with
  | nil => simp at found
  | cons element rest inductionHypothesis =>
      rw [List.map_cons, List.nodup_cons] at distinct
      by_cases passed : test element = true
      · have noOther : rest.countP test = 0 := by
          rw [List.countP_eq_zero]
          intro other later otherPassed
          have clash := same element List.mem_cons_self other (List.mem_cons_of_mem _ later)
            passed otherPassed
          exact distinct.1 (clash ▸ List.mem_map_of_mem later)
        rw [List.countP_cons_of_pos passed, noOther]
      · rw [List.countP_cons_of_neg passed]
        apply inductionHypothesis distinct.2
        · intro first inFirst second inSecond
          exact same first (List.mem_cons_of_mem _ inFirst) second (List.mem_cons_of_mem _ inSecond)
        · obtain ⟨other, listed, otherPassed⟩ := found
          rcases List.mem_cons.mp listed with rfl | later
          · contradiction
          · exact ⟨other, later, otherPassed⟩

namespace Package

open Declaration

variable {package : Package}

/-- Whether no name of the top level stands both for the whole module and for a symbol. -/
def HasPlainRoots (package : Package) : Prop :=
  ∀ first ∈ package.topLevel, ∀ second ∈ package.topLevel, first.name = second.name →
    first.kind = .namespaceScope → second.kind = .namespaceScope

instance (package : Package) : Decidable package.HasPlainRoots :=
  inferInstanceAs (Decidable (∀ first ∈ package.topLevel, ∀ second ∈ package.topLevel,
    first.name = second.name → first.kind = .namespaceScope → second.kind = .namespaceScope))

theorem HasPlainRoots.not_head (plain : package.HasPlainRoots) {root : String}
    (flattened : root ∈ package.flattenedRoots) {symbol : Symbol}
    (top : symbol ∈ package.topLevel) (kind : symbol.kind ≠ .namespaceScope) :
    root ≠ symbol.name := by
  obtain ⟨other, inRoots, rfl⟩ := List.mem_map.mp flattened
  obtain ⟨otherTop, otherKind⟩ := List.mem_filter.mp inRoots
  intro same
  exact kind (plain other otherTop symbol top same (beq_iff_eq.mp otherKind))

theorem IsBlockPath.unique (plain : package.HasPlainRoots) {path : String}
    {first second : List String} (firstStands : package.IsBlockPath path first)
    (secondStands : package.IsBlockPath path second) : first = second := by
  rcases firstStands with ⟨root, flattened, split⟩ | ⟨split, symbol, top, kind, starts⟩
  · rcases secondStands with ⟨other, -, otherSplit⟩ | ⟨otherSplit, symbol, top, kind, starts⟩
    · rw [split] at otherSplit
      exact (List.cons.inj otherSplit).2
    · rw [← otherSplit, split, List.head?_cons, Option.some.injEq] at starts
      exact absurd starts (plain.not_head flattened top kind)
  · rcases secondStands with ⟨root, flattened, otherSplit⟩ | ⟨otherSplit, -⟩
    · rw [← split, otherSplit, List.head?_cons, Option.some.injEq] at starts
      exact absurd starts (plain.not_head flattened top kind)
    · rw [← split, otherSplit]

theorem PlacedIn.unique (plain : package.HasPlainRoots) {owner : String}
    {first second : List String} (firstPlaced : package.PlacedIn owner first)
    (secondPlaced : package.PlacedIn owner second) : first = second := by
  unfold PlacedIn at firstPlaced secondPlaced
  split at firstPlaced
  · next atModuleLevel =>
      rw [atModuleLevel] at secondPlaced
      rw [firstPlaced, secondPlaced]
  · next container relocated =>
      rw [relocated] at secondPlaced
      exact firstPlaced.unique plain secondPlaced

theorem methodsOf_ne_nil {owner : String} (listed : owner ∈ package.methodOwners) :
    package.methodsOf owner ≠ [] := by
  obtain ⟨method, membership, rfl⟩ := mem_methodOwners.mp listed
  exact List.ne_nil_of_mem (List.mem_filter.mpr ⟨membership, by simp⟩)

theorem typeOf_of_hosted (relocations : List Relocation) (atModuleLevel : Bool)
    {owners : List String} {entry : Entry} (listed : entry.name ∈ package.methodOwners)
    (hosted : entry.name ∈ owners) :
    ∃ declaration, package.typeOf relocations atModuleLevel owners entry = some declaration ∧
      (declaration = .classBody entry.name (package.methodsOf entry.name) ∨
        declaration = .interfaceBody entry.name (package.methodsOf entry.name)) := by
  have nonempty := methodsOf_ne_nil listed
  have methods : package.scopeMethods owners entry.name = package.methodsOf entry.name := by
    simp [scopeMethods, hosted]
  rw [typeOf, methods, typeDeclaration?]
  split
  · exact ⟨_, rfl, .inl rfl⟩
  · exact ⟨.interfaceBody entry.name (package.methodsOf entry.name), by simp [nonempty], .inr rfl⟩

/-- An owner with an entry in a scope that hosts it has its body there. -/
theorem exists_body_of_hosted {relocations : List Relocation} {levels : Nat}
    {atModuleLevel : Bool} {entries : List Entry} {owners blocks : List String} {owner : String}
    (listed : owner ∈ package.methodOwners) (hosted : owner ∈ owners)
    (entry : ∃ entry ∈ entries, entry.name = owner) :
    ∃ body ∈ bodies blocks (package.scopeDeclarations relocations (levels + 1) atModuleLevel
      entries owners), body.name = owner := by
  obtain ⟨entry, inScope, rfl⟩ := entry
  have shown : ∃ keyword declaration,
      package.typeOf relocations atModuleLevel owners entry = some declaration ∧
        bodiesIn blocks declaration =
          methodBody blocks keyword entry.name (package.methodsOf entry.name) := by
    obtain ⟨declaration, asType, rfl | rfl⟩ :=
      typeOf_of_hosted relocations atModuleLevel listed hosted
    · exact ⟨"class", _, asType, by rw [bodiesIn]⟩
    · exact ⟨"interface", _, asType, by rw [bodiesIn]⟩
  obtain ⟨keyword, declaration, asType, body⟩ := shown
  refine ⟨⟨blocks, keyword, entry.name, package.methodLines entry.name⟩, ?_, rfl⟩
  rw [bodies_scopeDeclarations]
  refine List.mem_flatMap.mpr ⟨entry, inScope, ?_⟩
  rw [bodies_group, asType, Option.toList_some, List.flatMap_singleton, body]
  exact List.mem_append_left _ (mem_methodBody.mpr ⟨methodsOf_ne_nil listed, rfl⟩)

section Collected

variable {settings : InferenceSettings} {modulePath owner : String}
  {summaries : List SourceSummary}
  (built : package = ofUses settings modulePath (uses modulePath summaries))

include built

theorem exists_body_of_owner (readable : ∀ summary ∈ summaries, summary.Legible)
    (listed : owner ∈ package.methodOwners) :
    ∃ body ∈ bodies [] package.moduleDeclarations, body.name = owner := by
  cases placed : package.placement owner with
  | moduleLevel =>
      rw [moduleDeclarations_eq, levelBound]
      refine exists_body_of_hosted listed ?_ (Entry.mem_names_withOwners listed)
      exact List.mem_filter.mpr ⟨listed, by simpa using placed⟩
  | relocated container =>
      obtain ⟨root, way, -, ⟨imported, imports, sameRoot⟩, below⟩ :=
        exists_classBody_of_relocated built readable placed
      obtain ⟨scope, reached, body⟩ := below imported imports sameRoot
      refine ⟨⟨scopePath imported way, "class", owner, package.methodLines owner⟩,
        reached.mem_bodies ?_, rfl⟩
      rw [bodies_eq_flatMap, List.nil_append]
      refine List.mem_flatMap.mpr ⟨_, body, ?_⟩
      rw [bodiesIn]
      exact mem_methodBody.mpr ⟨methodsOf_ne_nil listed, rfl⟩

end Collected

theorem bodies_moduleDeclarations_placed (legible : package.Legible) {body : MethodBody}
    (membership : body ∈ bodies [] package.moduleDeclarations) :
    body.name ∈ package.methodOwners ∧ package.ShowsMethodsOf body.name body ∧
      package.PlacedIn body.name body.path :=
  bodies_placed legible (located_moduleEntries legible)
    (fun _ => placed_moduleLevelOwners) membership

theorem isStatic_of_startsWith {method : Method} (legible : method.Legible)
    (starts : startsWith (method.signature ++ ";") "static " = true) : method.isStatic = true := by
  cases isStatic : method.isStatic with
  | true => rfl
  | false =>
      rw [startsWith, List.isPrefixOf_iff_prefix] at starts
      obtain ⟨rest, split⟩ := starts
      have shown : "static".toList ++ ' ' :: rest = method.name.toList ++ '(' ::
          ((", ".intercalate (method.parameters.map Parameter.text)).toList ++
            "): ".toList ++ method.returnType.toList ++ [';']) := by
        simpa [Method.signature, isStatic] using split
      have marker : IsIdentifier "static" := by decide +kernel
      have same := eq_of_append_eq_append marker legible.name (by decide) (by decide) shown
      exact absurd same.2 (by decide)

/-- In the text of a collected package every owner has a body with exactly the lines of its
methods, where the owner is placed; every class or interface with lines of its own is such a
body, and a class if one of the lines is static.  Each owner has one body if no name stands both
for the whole module and for a symbol. -/
theorem every_method_stands_in_the_body_of_its_owner (settings : Settings)
    (sources : List (String × String)) {modulePath : String}
    (found : (collect settings.inference (summariesOf settings sources)).get? modulePath =
      some package) :
    ∃ items, Outline.ofText? package.declarationText = some items ∧
      (∀ owner ∈ package.methodOwners, ∃ body ∈ Outline.bodies [] items,
        body.name = owner ∧ body.lines = package.methodLines owner ∧
          package.PlacedIn owner body.path) ∧
      (∀ body ∈ Outline.bodies [] items,
        body.name ∈ package.methodOwners ∧ body.lines = package.methodLines body.name ∧
          package.PlacedIn body.name body.path ∧
          ((∃ line ∈ body.lines, startsWith line "static " = true) → body.keyword = "class")) ∧
      (package.HasPlainRoots → ∀ owner ∈ package.methodOwners,
        (Outline.bodies [] items).countP (·.name == owner) = 1) := by
  have readable := legible_summariesOf settings sources
  have legible := legible_of_get?_collect readable found
  have built := eq_ofUses_of_get?_collect found
  have exists_body := fun owner (listed : owner ∈ package.methodOwners) =>
    exists_body_of_owner built readable listed
  refine ⟨_, legible.ofText?_declarationText, ?_⟩
  rw [DeclarationFile.bodies_outlines legible.declarationFile]
  refine ⟨?_, ?_, ?_⟩
  · intro owner listed
    obtain ⟨body, membership, rfl⟩ := exists_body owner listed
    obtain ⟨-, shows, placed⟩ := bodies_moduleDeclarations_placed legible membership
    exact ⟨body, membership, rfl, shows.lines, placed⟩
  · intro body membership
    obtain ⟨listed, shows, placed⟩ := bodies_moduleDeclarations_placed legible membership
    refine ⟨listed, shows.lines, placed, ?_⟩
    rintro ⟨line, inBody, marked⟩
    rw [shows.lines] at inBody
    obtain ⟨method, ofOwner, rfl⟩ := List.mem_map.mp inBody
    apply shows.keyword
    exact List.any_eq_true.mpr ⟨method, ofOwner,
      isStatic_of_startsWith (legible.methodsOf body.name method ofOwner) marked⟩
  · intro plain owner listed
    refine countP_eq_one nodup_keys_bodies ?_ ?_
    · intro first inFirst second inSecond firstNamed secondNamed
      rw [beq_iff_eq] at firstNamed secondNamed
      obtain ⟨-, -, firstPlaced⟩ := bodies_moduleDeclarations_placed legible inFirst
      obtain ⟨-, -, secondPlaced⟩ := bodies_moduleDeclarations_placed legible inSecond
      rw [firstNamed] at firstPlaced
      rw [secondNamed] at secondPlaced
      rw [firstPlaced.unique plain secondPlaced, firstNamed, secondNamed]
    · obtain ⟨body, membership, named⟩ := exists_body owner listed
      exact ⟨body, membership, beq_iff_eq.mpr named⟩

theorem box_methods_stand_in_one_body :
    ∃ package items,
      (collect {} (summariesOf {} [("a.ets", twoContainersText)])).get? "m" = some package ∧
      Outline.ofText? package.declarationText = some items ∧
      package.methodLines "Box" =
        ["static open(args: unknown): unknown;", "static close(args: unknown): unknown;"] ∧
      (Outline.bodies [] items).countP (·.name == "Box") = 1 := by
  have found := get?_collect_of_uses {} uses_twoContainersText (by decide)
  obtain ⟨items, read, -, -, once⟩ :=
    every_method_stands_in_the_body_of_its_owner {} [("a.ets", twoContainersText)] found
  refine ⟨_, items, found, read, by decide +kernel, once (by decide +kernel) "Box" ?_⟩
  decide +kernel

end Package

end AmbientStubs
