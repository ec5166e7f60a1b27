import AmbientStubs.Proofs.Package.Exactness
import AmbientStubs.Proofs.Package.Survival

/-!
Which package a use is attributed to.  An import answers to its local name; a symbol that is
imported under an alias answers to its own name as well, and of two imports that answer to one
name the first is taken.
-/

namespace AmbientStubs

namespace Import

/-- The name of an import inside its file: its alias if it has one, and otherwise the name of
the imported symbol.  The whole module has no name but its alias. -/
def localName? (imported : Import) : Option String :=
  imported.localAlias.or (if imported.isWildcard then none else some imported.importedName)

/-- Whether an import is that of the symbol with the given name, under whatever alias. -/
def IsOf (imported : Import) (name : String) : Prop :=
  imported.isWildcard = false ∧ imported.importedName = name

variable {imported : Import} {name : String}

theorem binds_iff :
    imported.binds name = true ↔ imported.localName? = some name ∨ imported.IsOf name := by
  unfold binds localName? IsOf
  cases imported.isWildcard with
  | true => cases imported.localAlias <;> simp
  | false =>
      cases imported.localAlias with
      | none => simp
      | some localAlias => simp [or_comm]

theorem binds_eq_false {front : List Import} {imports : List Import}
    (distinct : (imports.filterMap localName?).Nodup) {back : List Import}
    (split : imports = front ++ imported :: back) (isLocal : imported.localName? = some name)
    {other : Import} (before : other ∈ front) (foreign : ¬ other.IsOf name) :
    other.binds name = false := by
  rw [Bool.eq_false_iff]
  intro binds
  rcases binds_iff.mp binds with sameName | ofName
  · rw [split, List.filterMap_append, List.filterMap_cons_some isLocal, List.nodup_append]
      at distinct
    exact distinct.2.2 name (List.mem_filterMap.mpr ⟨other, before, sameName⟩) name
      List.mem_cons_self rfl
  · exact foreign ofName

end Import

namespace Package

open Text

/-- An access of a file is taken into account in the package of an import, below the root of that
import, and every other package is what it would be without it. -/
structure IsAttributedTo (settings : InferenceSettings) (earlier later : List SourceSummary)
    (file : SourceSummary) (others : List Access) (access : Access) (imported : Import) :
    Prop where
  taken : imported.isExternal = true →
    ∃ package, (collect settings (earlier ++ file :: later)).get? imported.modulePath =
        some package ∧
      (∀ identity, CallsForSymbol access (usePath imported access) identity →
        package.Knows identity) ∧
      (∀ identity, CallsForMethod access (usePath imported access) identity →
        identity ∈ package.methods.map Method.identity) ∧
      ∀ owner, staticOwner? access = some owner → package.hasTopLevel owner = true
  onlyThere : ∀ other ≠ imported.modulePath,
    (collect settings (earlier ++ file :: later)).get? other =
      (collect settings (earlier ++ { file with accesses := others } :: later)).get? other

section Attribution

variable {settings : InferenceSettings} {earlier later : List SourceSummary}
  {file : SourceSummary} {before after : List Access} {access : Access} {imported : Import}
  (accesses : file.accesses = before ++ access :: after)
  (bound : file.binding? access.base = some imported)

include accesses bound

/-- An access leaves the uses of every package alone but that of the import that binds its base. -/
theorem usesIn_of_binding? {other : String} (different : other ≠ imported.modulePath) :
    usesIn other file = usesIn other { file with accesses := before ++ after } := by
  have elsewhere : ((file.binding? access.base).filter (·.modulePath == other)).map (·, access) =
      none := by
    rw [bound, Option.filter_some, if_neg, Option.map_none]
    simpa using different.symm
  have resolved : resolvedIn other file =
      resolvedIn other { file with accesses := before ++ after } := by
    rw [resolvedIn, accesses, List.filterMap_append, List.filterMap_cons, elsewhere]
    exact List.filterMap_append.symm
  rw [usesIn, usesIn, resolved]

theorem isAttributedTo_of_binding? :
    IsAttributedTo settings earlier later file (before ++ after) access imported where
  taken := by
    intro external
    have used : access ∈ file.accesses := by simp [accesses]
    have listed : file ∈ earlier ++ file :: later := by simp
    have membership := mem_resolved listed used bound
    refine ⟨_, get?_collect_of_mem_resolved settings membership external, ?_, ?_, ?_⟩
    · intro identity called
      obtain ⟨symbol, asked, rfl⟩ := List.mem_map.mp (mem_map_nestedSymbols.mpr called)
      exact knows_of_mem_resolved settings membership symbol (List.mem_cons_of_mem _ asked)
    · intro identity called
      rw [methods_ofUses, mem_map_appendAllNew, List.map_flatMap]
      exact .inr (List.mem_flatMap.mpr ⟨_, membership, mem_map_observedMethod?.mpr called⟩)
    · intro owner static
      exact (hasTopLevel_ofUses _ _ _).mpr (.inr ⟨_, membership, static⟩)
  onlyThere := by
    intro other different
    apply get?_collect_congr
    rw [uses, uses, List.flatMap_append, List.flatMap_append, List.flatMap_cons, List.flatMap_cons,
      usesIn_of_binding? accesses bound different]

end Attribution

/-- In a file whose imports have distinct local names, an access whose base is the local name of
an import is attributed to that import, unless an import before it is that of the symbol with
this very name, under an alias: then it is attributed to the first such import. -/
theorem accesses_are_attributed_to_the_import_of_their_base (settings : InferenceSettings)
    (earlier later : List SourceSummary) (file : SourceSummary)
    (distinct : (file.imports.filterMap Import.localName?).Nodup)
    {front back : List Import} {imported : Import}
    (imports : file.imports = front ++ imported :: back)
    {before after : List Access} {access : Access}
    (accesses : file.accesses = before ++ access :: after)
    (isLocal : imported.localName? = some access.base) :
    ((∀ other ∈ front, ¬ other.IsOf access.base) →
      IsAttributedTo settings earlier later file (before ++ after) access imported) ∧
    ∀ first taker second, front = first ++ taker :: second → taker.IsOf access.base →
      (∀ other ∈ first, ¬ other.IsOf access.base) →
      IsAttributedTo settings earlier later file (before ++ after) access taker := by
  have passed {other : Import} (inFront : other ∈ front) (foreign : ¬ other.IsOf access.base) :
      other.binds access.base = false :=
    Import.binds_eq_false distinct imports isLocal inFront foreign
  refine ⟨?_, ?_⟩
  · intro foreign
    apply isAttributedTo_of_binding? accesses
    refine List.find?_eq_some_iff_append.mpr
      ⟨Import.binds_iff.mpr (.inl isLocal), front, back, imports, ?_⟩
    intro other inFront
    simp [passed inFront (foreign other inFront)]
  · intro first taker second split ofName foreign
    apply isAttributedTo_of_binding? accesses
    refine List.find?_eq_some_iff_append.mpr ⟨Import.binds_iff.mpr (.inr ofName), first,
      second ++ imported :: back, by simp [imports, split], ?_⟩
    intro other inFirst
    have inFront : other ∈ front := split ▸ List.mem_append_left _ inFirst
    simp [passed inFront (foreign other inFirst)]

def aliasedSummary : SourceSummary where
  path := "a.ets"
  imports := [.named "m" "Client" (some "Api") false, .named "n" "Client" none false]
  accesses := [⟨"Api", "Api.open", "open", .methodCall, none⟩,
    ⟨"Client", "Client.close", "close", .methodCall, none⟩]

theorem api_open_is_attributed_to_client :
    ∃ package, (collect {} [aliasedSummary]).get? "m" = some package ∧
      package.Knows ⟨"open", .function, some "Client"⟩ ∧
      (collect {} [aliasedSummary]).get? "n" =
        (collect {}
          [{ aliasedSummary with accesses := aliasedSummary.accesses.drop 1 }]).get? "n" := by
  have attributed := (accesses_are_attributed_to_the_import_of_their_base {} [] [] aliasedSummary
    (by decide) (show aliasedSummary.imports = [] ++ _ :: _ from rfl)
    (show aliasedSummary.accesses = [] ++ _ :: _ from rfl) rfl).1 (by simp)
  obtain ⟨package, found, symbols, -⟩ := attributed.taken (by decide)
  refine ⟨package, found, symbols _ ?_, attributed.onlyThere "n" (by decide)⟩
  exact .last rfl (by decide) rfl

/-- Whether some access whose base is the local name of an import from a package has no part in
that package, although the imports of its file have distinct local names. -/
def MissesLocalName (settings : Settings) (sources : List (String × String)) : Prop :=
  ∃ file ∈ summariesOf settings sources, (file.imports.filterMap Import.localName?).Nodup ∧
    ∃ imported ∈ file.imports, ∃ access ∈ file.accesses,
      imported.localName? = some access.base ∧ imported.isExternal = true ∧
      ∃ package identity,
        (collect settings.inference (summariesOf settings sources)).get? imported.modulePath =
          some package ∧
        CallsForSymbol access (usePath imported access) identity ∧ ¬ package.Knows identity

def sameNameText : String :=
  "import \x7b A as B \x7d from 'm';\nimport \x7b A \x7d from 'n';\nA.open();"

/-- The call on the second symbol is taken for one on the first, which is not called by its own
name in the file. -/
theorem accesses_are_not_always_attributed_to_their_local_name :
    MissesLocalName {} [("a.ets", sameNameText)] := by
  have imports : (SourceSummary.ofText ["enc", "mode", "pad"] "a.ets" sameNameText).imports =
      [.named "m" "A" (some "B") false, .named "n" "A" none false] := by
    decide +kernel
  have accesses : (SourceSummary.ofText ["enc", "mode", "pad"] "a.ets" sameNameText).accesses =
      [⟨"A", "A.open", "open", .methodCall, none⟩] := by
    decide +kernel
  have inOrder : uses "n" (summariesOf {} [("a.ets", sameNameText)]) =
      [.ofImport (.named "n" "A" none false)] := by
    decide +kernel
  refine ⟨_, List.mem_singleton.mpr rfl, ?_, .named "n" "A" none false, ?_,
    ⟨"A", "A.open", "open", .methodCall, none⟩, ?_, rfl, by decide, _,
    ⟨"open", .function, some "A"⟩, get?_collect_of_uses {} inOrder (by decide), ?_, ?_⟩
  · rw [imports]
    decide
  · rw [imports]
    decide
  · rw [accesses]
    decide
  · exact .last rfl (by decide) rfl
  · rw [Knows]
    decide +kernel

end Package

end AmbientStubs
