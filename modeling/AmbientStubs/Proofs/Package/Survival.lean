import AmbientStubs.Proofs.Declaration.Paths
import AmbientStubs.Proofs.Package.Collected
import AmbientStubs.Proofs.Package.Origins

/-!
Every use survives to the declarations: the path of an access that is no static call is
declared in the text of its package, segment by segment.
-/

namespace AmbientStubs.Package

open Text Convention

/-- The symbols that a resolved access asks for are there, with the root of its import. -/
theorem knows_of_mem_resolved (settings : InferenceSettings) {modulePath : String}
    {summaries : List SourceSummary} {imported : Import} {access : Access}
    (membership : (imported, access) ∈ resolved modulePath summaries) :
    ∀ symbol ∈ rootSymbol settings imported :: nestedSymbols imported access,
      (ofUses settings modulePath (uses modulePath summaries)).Knows symbol.identity := by
  obtain ⟨summary, listed, inFile⟩ := List.mem_flatMap.mp membership
  obtain ⟨-, bound, same⟩ := mem_resolvedIn.mp inFile
  have importUse : .ofImport imported ∈ uses modulePath summaries :=
    ofImport_mem_uses.mpr ⟨summary, listed, mem_of_binding? bound, same⟩
  intro symbol asked
  apply knows_foldl_apply
  right
  rcases List.mem_cons.mp asked with rfl | below
  · exact ⟨_, importUse, by simp [Use.symbols]⟩
  · exact ⟨_, ofAccess_mem_uses.mpr membership, List.mem_map_of_mem below⟩

theorem mem_resolved {summaries : List SourceSummary} {summary : SourceSummary}
    (listed : summary ∈ summaries) {access : Access} (used : access ∈ summary.accesses)
    {imported : Import} (bound : summary.binding? access.base = some imported) :
    (imported, access) ∈ resolved imported.modulePath summaries :=
  List.mem_flatMap.mpr ⟨summary, listed, mem_resolvedIn.mpr ⟨used, bound, rfl⟩⟩

theorem get?_collect_of_mem_resolved (settings : InferenceSettings)
    {summaries : List SourceSummary} {imported : Import} {access : Access}
    (membership : (imported, access) ∈ resolved imported.modulePath summaries)
    (external : imported.isExternal = true) :
    (collect settings summaries).get? imported.modulePath =
      some (ofUses settings imported.modulePath (uses imported.modulePath summaries)) := by
  have used := ofAccess_mem_uses.mpr membership
  rw [get?_collect settings _ _ (by simpa [Import.isExternal] using external)]
  simp [List.ne_nil_of_mem used]

/-- The path from the module level to what is reached by a way below an import. -/
def scopePath (imported : Import) (way : List String) : List String :=
  if imported.isWildcard then way else imported.importedName :: way

/-- A way below the symbol of an import is a way through the declarations. -/
theorem Leads.exists_scopeAt {settings : InferenceSettings} {package : Package}
    {imported : Import} {way : List String} {target : String}
    (leads : package.Leads imported.rootName way target)
    (root : package.Knows (rootSymbol settings imported).identity)
    (occupied : package.IsOccupied target) :
    ∃ levels innerLevel innerEntries innerOwners,
      Declaration.ScopeAt package.moduleDeclarations (scopePath imported way)
        (package.scopeDeclarations package.relocations (levels + 1) innerLevel innerEntries
          innerOwners) ∧
      package.Serves target innerEntries innerOwners := by
  rw [identity_rootSymbol] at root
  obtain ⟨symbol, membership, named, kind, top⟩ := knows_iff.mp root
  simp only [rootSymbol] at kind
  rw [← named] at leads
  rw [scopePath]
  split
  · next wildcard =>
      rw [if_pos wildcard] at kind
      apply leads.scopeAt_of_flattened
      refine List.mem_map.mpr ⟨symbol, List.mem_filter.mpr ⟨?_, by simp [kind]⟩, rfl⟩
      exact List.mem_filter.mpr ⟨membership, by simp [Symbol.isTopLevel, top]⟩
  · next notWildcard =>
      rw [if_neg notWildcard] at kind
      have rootName : symbol.name = imported.importedName := by
        simp [named, Import.rootName, notWildcard]
      rw [← rootName]
      exact leads.scopeAt_of_topLevel occupied membership top
        (kind ▸ importedKind_ne_namespaceScope settings _ _)

def summariesOf (settings : Settings) (sources : List (String × String)) : List SourceSummary :=
  sources.map fun source =>
    SourceSummary.ofText settings.analysis.reservedSegments source.1 source.2

theorem legible_summariesOf (settings : Settings) (sources : List (String × String)) :
    ∀ summary ∈ summariesOf settings sources, summary.Legible := by
  intro summary listed
  obtain ⟨source, -, rfl⟩ := List.mem_map.mp listed
  exact SourceSummary.legible_ofText _ _ _

theorem nestedSymbols_eq_of_plain {imported : Import} {access : Access} {way : List String}
    (plain : access.context ≠ .staticCall)
    (segments : access.segments = access.base :: (way ++ [access.member])) :
    nestedSymbols imported access = constantsBelow imported.rootName way ++
      [memberSymbol (dotted (imported.rootName :: way)) access.member access.context] := by
  simp [nestedSymbols, Access.isStaticCall, plain, membersOf, segments]

theorem memberKind_mem (context : AccessContext) :
    memberKind context ∈ [.classType, .function, .constant] := by
  cases context <;> decide

/-- The path of an access that is no static call is declared.  From the module level, or from
inside the namespace block of the imported name unless the whole module is imported, every
segment on the way is a namespace block directly inside the one before, and the innermost
scope declares the member by a class, function, constant, enumeration or namespace line. -/
theorem every_plain_access_is_declared (settings : Settings) (sources : List (String × String))
    {summary : SourceSummary} (listed : summary ∈ summariesOf settings sources)
    {access : Access} (used : access ∈ summary.accesses)
    (plain : access.context ≠ .staticCall) {imported : Import}
    (bound : summary.binding? access.base = some imported)
    (external : imported.isExternal = true) :
    ∃ package items way scope,
      (collect settings.inference (summariesOf settings sources)).get? imported.modulePath =
        some package ∧
      Outline.ofText? package.declarationText = some items ∧
      access.segments = access.base :: (way ++ [access.member]) ∧
      Outline.ScopeAt items
        (if imported.isWildcard then way else imported.importedName :: way) scope ∧
      ∃ item ∈ scope, ∃ keyword ∈ ["class", "function", "const", "enum", "namespace"],
        Outline.declared? item.head = some (keyword, access.member) := by
  have readable := legible_summariesOf settings sources
  obtain ⟨way, segments⟩ := ((readable summary listed).accesses access used).segments
  have membership := mem_resolved listed used bound
  have found := get?_collect_of_mem_resolved settings.inference membership external
  have knows := knows_of_mem_resolved settings.inference membership
  generalize ofUses settings.inference imported.modulePath _ = package at found knows
  rw [nestedSymbols_eq_of_plain plain segments, List.forall_mem_cons, List.forall_mem_append,
    List.forall_mem_singleton] at knows
  obtain ⟨root, onTheWay, last⟩ := knows
  rw [identity_memberSymbol] at last
  obtain ⟨member, present, named, kind, inside⟩ := knows_iff.mp last
  have occupied : package.IsOccupied (dotted (imported.rootName :: way)) :=
    .inl (hasChildren_iff.mpr ⟨member, present, inside⟩)
  obtain ⟨levels, level, entries, owners, reached, serves⟩ :=
    (leads_of_constantsBelow onTheWay occupied).exists_scopeAt root occupied
  obtain ⟨declaration, declared, keyword, name⟩ :=
    exists_value_of_filed (serves.symbols member present inside)
      (kind ▸ memberKind_mem access.context) package.relocations levels level owners
  have legible := legible_of_get?_collect readable found
  obtain ⟨scope, inText, shown⟩ := legible.exists_scopeAt reached
  refine ⟨package, _, way, scope, found, legible.ofText?_declarationText, segments, inText, _,
    (shown declaration declared).1, declaration.keyword, keyword, ?_⟩
  rw [(shown declaration declared).2, name, named]

def lidSources : List (String × String) :=
  [("a.ets", "import \x7b Box \x7d from 'm';\nBox.lid.open();")]

theorem lid_access_is_declared :
    ∃ package items way scope,
      (collect {} (summariesOf {} lidSources)).get? "m" = some package ∧
      Outline.ofText? package.declarationText = some items ∧
      segments "Box.lid.open" = "Box" :: (way ++ ["open"]) ∧
      Outline.ScopeAt items ("Box" :: way) scope ∧
      ∃ item ∈ scope, ∃ keyword ∈ ["class", "function", "const", "enum", "namespace"],
        Outline.declared? item.head = some (keyword, "open") := by
  have used : ⟨"Box", "Box.lid.open", "open", .methodCall, none⟩ ∈
      (SourceSummary.ofText ["enc", "mode", "pad"] "a.ets"
        "import \x7b Box \x7d from 'm';\nBox.lid.open();").accesses := by
    decide +kernel
  have bound : (SourceSummary.ofText ["enc", "mode", "pad"] "a.ets"
      "import \x7b Box \x7d from 'm';\nBox.lid.open();").binding? "Box" =
        some (.named "m" "Box" none false) := by
    decide +kernel
  exact every_plain_access_is_declared {} lidSources List.mem_cons_self used (by decide) bound
    (by decide)

end AmbientStubs.Package
