import AmbientStubs.Proofs.Declaration.Location

/-!
The scopes of a package, one for each way through its namespace blocks.  The paths that the blocks
around a scope stand for settle what it declares: its classes with methods are those of the owners
that are placed there, and the names inside a block are the members of the paths of the block.
-/

namespace AmbientStubs

theorem Outline.ScopeAt.concat {items scope inner : List Outline} {path : List String}
    (reached : ScopeAt items path scope) {head name : String} (block : .block head inner ∈ scope)
    (named : declared? head = some ("namespace", name)) :
    ScopeAt items (path ++ [name]) inner := by
  induction reached with
  | here => exact .inside block named .here
  | inside membership outer _ inductionHypothesis =>
      exact .inside membership outer (inductionHypothesis block)

namespace Declaration

theorem ScopeAt.exists_block {declarations target : List Declaration} {path : List String}
    {name : String} (reached : ScopeAt declarations (path ++ [name]) target) :
    ∃ scope, ScopeAt declarations path scope ∧ .namespaceBlock name target ∈ scope := by
  induction path generalizing declarations with
  | nil =>
      rcases reached with _ | ⟨membership, _ | _⟩
      exact ⟨declarations, .here, membership⟩
  | cons first path inductionHypothesis =>
      cases reached with
      | inside membership rest =>
          obtain ⟨scope, inside, block⟩ := inductionHypothesis rest
          exact ⟨scope, .inside membership inside, block⟩

end Declaration

namespace Package

open Text Declaration

variable {package : Package} {blocks : List String} {scope : List Declaration}

/-- Whether a name stands directly inside a dotted path: by a symbol, or as an owner of methods
that is relocated to it. -/
def HasMember (package : Package) (path name : String) : Prop :=
  (∃ symbol ∈ package.symbols, symbol.parentPath = some path ∧ symbol.name = name) ∨
    ⟨name, path⟩ ∈ package.relocations

theorem HasMember.isOccupied {path name : String} (member : package.HasMember path name) :
    package.IsOccupied path := by
  rcases member with ⟨symbol, present, inside, -⟩ | relocated
  · exact .inl (hasChildren_iff.mpr ⟨symbol, present, inside⟩)
  · exact .inr ⟨name, relocated⟩

/-- What holds of the scope inside some namespace blocks: its entries have distinct names and
belong under the blocks, its owners are placed there, and inside a block every entry is a member of
a path that the blocks stand for. -/
inductive LaidOut (package : Package) (blocks : List String) : List Declaration → Prop where
  | ofEntries {levels : Nat} {atModuleLevel : Bool} {entries : List Entry} {owners : List String}
      (distinct : (entries.map (·.name)).Nodup)
      (located : package.Located blocks entries)
      (placed : ∀ owner ∈ owners, owner ∈ package.methodOwners ∧ package.PlacedIn owner blocks)
      (members : blocks ≠ [] → ∀ entry ∈ entries,
        ∃ path, package.IsBlockPath path blocks ∧ package.HasMember path entry.name) :
      LaidOut package blocks
        (package.scopeDeclarations package.relocations levels atModuleLevel entries owners)

theorem laidOut_moduleDeclarations (legible : package.Legible) :
    package.LaidOut [] package.moduleDeclarations :=
  .ofEntries (Entry.nodup_names _ _) (located_moduleEntries legible)
    (fun _ => placed_moduleLevelOwners) (fun inside => absurd rfl inside)

/-- What is inside a block of a scope is laid out one block deeper. -/
theorem LaidOut.inside (legible : package.Legible) (laidOut : package.LaidOut blocks scope)
    {name : String} {members : List Declaration}
    (membership : .namespaceBlock name members ∈ scope) :
    package.LaidOut (blocks ++ [name]) members := by
  cases laidOut with
  | ofEntries distinct located placed _ =>
      obtain ⟨entry, listed, rfl, rfl⟩ := exists_entry_of_namespaceBlock membership
      have stands := located entry listed
      refine .ofEntries (Entry.nodup_names _ _) (located_innerEntries legible stands)
        (fun _ => placed_hostedIn stands) ?_
      intro _ inner inside
      rcases Entry.name_of_mem_withOwners inside with ⟨symbol, membership, named⟩ | hosted
      · obtain ⟨path, above, child⟩ := List.mem_flatMap.mp membership
        obtain ⟨present, parent⟩ := List.mem_filter.mp child
        exact ⟨path, stands path above, .inl ⟨symbol, present, beq_iff_eq.mp parent, named⟩⟩
      · obtain ⟨container, known, relocated⟩ := mem_hostedIn.mp hosted
        exact ⟨container, stands container known, .inr relocated⟩

theorem LaidOut.scopeAt (legible : package.Legible) {declarations : List Declaration}
    (laidOut : package.LaidOut blocks declarations) {path : List String}
    (reached : ScopeAt declarations path scope) : package.LaidOut (blocks ++ path) scope := by
  induction reached generalizing blocks with
  | here =>
      rw [List.append_nil]
      exact laidOut
  | @inside declarations inner target name path membership _ inductionHypothesis =>
      rw [← List.singleton_append, ← List.append_assoc]
      exact inductionHypothesis (laidOut.inside legible membership)

theorem LaidOut.members_eq (laidOut : package.LaidOut blocks scope) {name : String}
    {members others : List Declaration} (first : .namespaceBlock name members ∈ scope)
    (second : .namespaceBlock name others ∈ scope) : members = others := by
  cases laidOut with
  | ofEntries distinct _ _ _ =>
      obtain ⟨entry, listed, named, rfl⟩ := exists_entry_of_namespaceBlock first
      obtain ⟨other, otherListed, otherNamed, rfl⟩ := exists_entry_of_namespaceBlock second
      obtain rfl : entry = other :=
        List.inj_on_of_nodup_map distinct listed otherListed (by rw [named, otherNamed])
      rfl

/-- A path of namespace blocks leads to one scope. -/
theorem LaidOut.scopeAt_unique (legible : package.Legible)
    {declarations other : List Declaration} (laidOut : package.LaidOut blocks declarations)
    {path : List String} (first : ScopeAt declarations path scope)
    (second : ScopeAt declarations path other) : scope = other := by
  induction first generalizing blocks with
  | here =>
      cases second
      rfl
  | inside membership _ inductionHypothesis =>
      cases second with
      | inside otherMembership rest =>
          obtain rfl := laidOut.members_eq membership otherMembership
          exact inductionHypothesis (laidOut.inside legible membership) rest

theorem LaidOut.classBody (laidOut : package.LaidOut blocks scope) {owner : String}
    {methods : List Method} (body : .classBody owner methods ∈ scope) (nonempty : methods ≠ []) :
    methods = package.methodsOf owner ∧ package.PlacedIn owner blocks := by
  cases laidOut with
  | @ofEntries levels atModuleLevel entries owners _ _ placed _ =>
      cases levels with
      | zero => simp [scopeDeclarations] at body
      | succ levels =>
          obtain ⟨entry, -, inGroup⟩ := mem_scopeDeclarations.mp body
          obtain ⟨rfl, rfl⟩ := classBody_of_mem_group inGroup
          obtain ⟨hosted, same⟩ := scopeMethods_of_ne_nil nonempty
          exact ⟨same, (placed _ hosted).2⟩

theorem LaidOut.exists_path_of_mem (laidOut : package.LaidOut blocks scope)
    (inside : blocks ≠ []) {declaration : Declaration} (membership : declaration ∈ scope) :
    ∃ path, package.IsBlockPath path blocks ∧ package.HasMember path declaration.name := by
  cases laidOut with
  | @ofEntries levels _ _ _ _ _ _ members =>
      cases levels with
      | zero => simp [scopeDeclarations] at membership
      | succ levels =>
          obtain ⟨entry, listed, inGroup⟩ := mem_scopeDeclarations.mp membership
          rw [name_of_mem_group inGroup]
          exact members inside entry listed

/-- A way to a dotted path leads to every scope whose blocks stand for that path. -/
theorem Leads.exists_scopeAt_of_isBlockPath {root path : String} {way : List String}
    (leads : package.Leads root way path) (split : segments path = root :: way)
    (occupied : package.IsOccupied path) (stands : package.IsBlockPath path blocks) :
    ∃ levels innerLevel innerEntries innerOwners,
      ScopeAt package.moduleDeclarations blocks
        (package.scopeDeclarations package.relocations (levels + 1) innerLevel innerEntries
          innerOwners) ∧
      package.Serves path innerEntries innerOwners := by
  rcases stands with ⟨other, flattened, otherSplit⟩ | ⟨same, symbol, top, kind, starts⟩
  · rw [split] at otherSplit
    obtain ⟨rfl, rfl⟩ := List.cons.inj otherSplit
    exact leads.scopeAt_of_flattened flattened
  · rw [← same, split, List.head?_cons, Option.some.injEq] at starts
    rw [← same, split]
    subst starts
    obtain ⟨present, atTop⟩ := List.mem_filter.mp top
    refine leads.scopeAt_of_topLevel occupied present ?_ kind
    simpa [Symbol.isTopLevel] using atTop

end Package

end AmbientStubs
