import AmbientStubs.Declaration.Layout

/-!
The entries of a scope.  They have distinct names, every symbol of the scope is filed in the
entry of its name, and every owner has an entry.
-/

namespace AmbientStubs.Package.Entry

section Including

variable {Element : Type} [BEq Element] [LawfulBEq Element]

@[simp]
theorem mem_including {elements : List Element} {element other : Element} :
    other ∈ including elements element ↔ other ∈ elements ∨ other = element := by
  unfold including
  split
  · next present =>
      have listed : element ∈ elements := by simpa using present
      constructor
      · exact .inl
      · rintro (before | rfl)
        · exact before
        · exact listed
  · simp

theorem nodup_including {elements : List Element} (distinct : elements.Nodup)
    (element : Element) : (including elements element).Nodup := by
  unfold including
  split
  · exact distinct
  · next absent =>
      have fresh : element ∉ elements := by simpa using absent
      rw [List.nodup_append]
      refine ⟨distinct, by simp, ?_⟩
      intro first before second last
      rw [List.mem_singleton.mp last]
      rintro rfl
      exact fresh before

theorem mem_foldl_including {elements more : List Element} {element : Element} :
    element ∈ more.foldl including elements ↔ element ∈ elements ∨ element ∈ more := by
  induction more generalizing elements with
  | nil => simp
  | cons next rest inductionHypothesis =>
      rw [List.foldl_cons, inductionHypothesis, mem_including, List.mem_cons, or_assoc]

theorem nodup_foldl_including {elements : List Element} (distinct : elements.Nodup)
    (more : List Element) : (more.foldl including elements).Nodup := by
  induction more generalizing elements with
  | nil => exact distinct
  | cons next rest inductionHypothesis =>
      exact inductionHypothesis (nodup_including distinct next)

end Including

@[simp]
theorem name_add (entry : Entry) (symbol : Symbol) : (entry.add symbol).name = entry.name := rfl

@[simp]
theorem kinds_add (entry : Entry) (symbol : Symbol) :
    (entry.add symbol).kinds = including entry.kinds symbol.kind := rfl

@[simp]
theorem paths_add (entry : Entry) (symbol : Symbol) :
    (entry.add symbol).paths = including entry.paths symbol.qualifiedPath := rfl

theorem names_file (symbol : Symbol) (entries : List Entry) :
    (file symbol entries).map (·.name) = including (entries.map (·.name)) symbol.name := by
  induction entries with
  | nil => simp [file, including]
  | cons entry rest inductionHypothesis =>
      rw [file]
      split
      · next same => simp [including, same]
      · next different =>
          rw [List.map_cons, inductionHypothesis]
          by_cases listed : symbol.name ∈ rest.map (·.name)
          · simp [including, listed]
          · simp [including, listed, Ne.symm different]

theorem names_ofSymbols (symbols : List Symbol) :
    (ofSymbols symbols).map (·.name) = (symbols.map (·.name)).foldl including [] := by
  have general : ∀ entries : List Entry,
      (symbols.foldl (fun entries symbol => file symbol entries) entries).map (·.name) =
        (symbols.map (·.name)).foldl including (entries.map (·.name)) := by
    induction symbols with
    | nil => simp
    | cons symbol rest inductionHypothesis =>
        intro entries
        rw [List.foldl_cons, inductionHypothesis, names_file, List.map_cons, List.foldl_cons]
  exact general []

theorem names_withOwners (entries : List Entry) (owners : List String) :
    (withOwners entries owners).map (·.name) = owners.foldl including (entries.map (·.name)) := by
  unfold withOwners
  induction owners generalizing entries with
  | nil => simp
  | cons owner rest inductionHypothesis =>
      rw [List.foldl_cons, List.foldl_cons, inductionHypothesis]
      congr 1
      have same : entries.any (·.name == owner) = (entries.map (·.name)).contains owner := by
        rw [Bool.eq_iff_iff]
        simp
      unfold including
      rw [same]
      split <;> simp

theorem nodup_names (symbols : List Symbol) (owners : List String) :
    ((withOwners (ofSymbols symbols) owners).map (·.name)).Nodup := by
  rw [names_withOwners, names_ofSymbols]
  exact nodup_foldl_including (nodup_foldl_including List.nodup_nil _) owners

theorem mem_names_withOwners {entries : List Entry} {owners : List String} {owner : String}
    (membership : owner ∈ owners) : ∃ entry ∈ withOwners entries owners, entry.name = owner := by
  rw [← List.mem_map, names_withOwners, mem_foldl_including]
  exact .inr membership

/-- A symbol is filed if the entry of its name has its kind and its path. -/
def Filed (symbol : Symbol) (entries : List Entry) : Prop :=
  ∃ entry ∈ entries, entry.name = symbol.name ∧ symbol.kind ∈ entry.kinds ∧
    symbol.qualifiedPath ∈ entry.paths

theorem filed_file_self (symbol : Symbol) (entries : List Entry) :
    Filed symbol (file symbol entries) := by
  induction entries with
  | nil => simp [Filed, file]
  | cons entry rest inductionHypothesis =>
      rw [file]
      split
      · next same => exact ⟨entry.add symbol, List.mem_cons_self, same, by simp, by simp⟩
      · obtain ⟨found, membership, facts⟩ := inductionHypothesis
        exact ⟨found, List.mem_cons_of_mem entry membership, facts⟩

theorem Filed.file {symbol : Symbol} {entries : List Entry} (filed : Filed symbol entries)
    (other : Symbol) : Filed symbol (file other entries) := by
  obtain ⟨found, membership, named, kind, path⟩ := filed
  induction entries with
  | nil => simp at membership
  | cons entry rest inductionHypothesis =>
      rw [Entry.file]
      rcases List.mem_cons.mp membership with rfl | later
      · split
        · exact ⟨found.add other, List.mem_cons_self, named, by simp [kind], by simp [path]⟩
        · exact ⟨found, List.mem_cons_self, named, kind, path⟩
      · split
        · exact ⟨found, List.mem_cons_of_mem _ later, named, kind, path⟩
        · obtain ⟨kept, listed, facts⟩ := inductionHypothesis later
          exact ⟨kept, List.mem_cons_of_mem entry listed, facts⟩

theorem Filed.foldl_file {symbol : Symbol} {entries : List Entry} (filed : Filed symbol entries)
    (symbols : List Symbol) :
    Filed symbol (symbols.foldl (fun entries symbol => Entry.file symbol entries) entries) := by
  induction symbols generalizing entries with
  | nil => exact filed
  | cons other rest inductionHypothesis => exact inductionHypothesis (filed.file other)

theorem filed_ofSymbols {symbol : Symbol} {symbols : List Symbol} (membership : symbol ∈ symbols) :
    Filed symbol (ofSymbols symbols) := by
  obtain ⟨before, after, rfl⟩ := List.append_of_mem membership
  rw [ofSymbols, List.foldl_append, List.foldl_cons]
  exact (filed_file_self symbol _).foldl_file after

theorem mem_withOwners_of_mem {entries : List Entry} {entry : Entry} (owners : List String)
    (membership : entry ∈ entries) : entry ∈ withOwners entries owners := by
  unfold withOwners
  induction owners generalizing entries with
  | nil => exact membership
  | cons owner rest inductionHypothesis =>
      rw [List.foldl_cons]
      apply inductionHypothesis
      split
      · exact membership
      · exact List.mem_append_left _ membership

/-- Every symbol of a scope is filed in the entries of the scope. -/
theorem filed_withOwners {symbol : Symbol} {symbols : List Symbol} (membership : symbol ∈ symbols)
    (owners : List String) : Filed symbol (withOwners (ofSymbols symbols) owners) := by
  obtain ⟨entry, listed, facts⟩ := filed_ofSymbols membership
  exact ⟨entry, mem_withOwners_of_mem owners listed, facts⟩

section Invariant

variable {Holds : Entry → Prop}

theorem forall_mem_file {symbol : Symbol} {entries : List Entry}
    (fresh : Holds (({ name := symbol.name } : Entry).add symbol))
    (add : ∀ entry, entry.name = symbol.name → Holds entry → Holds (entry.add symbol))
    (before : ∀ entry ∈ entries, Holds entry) : ∀ entry ∈ file symbol entries, Holds entry := by
  induction entries with
  | nil => simpa [Entry.file] using fresh
  | cons first rest inductionHypothesis =>
      rw [List.forall_mem_cons] at before
      rw [Entry.file]
      split
      · next same => exact List.forall_mem_cons.mpr ⟨add first same before.1, before.2⟩
      · exact List.forall_mem_cons.mpr ⟨before.1, inductionHypothesis before.2⟩

theorem forall_mem_withOwners {symbols : List Symbol} {owners : List String}
    (ofSymbol : ∀ symbol ∈ symbols, Holds { name := symbol.name })
    (ofOwner : ∀ owner ∈ owners, Holds { name := owner })
    (add : ∀ symbol ∈ symbols, ∀ entry, entry.name = symbol.name → Holds entry →
      Holds (entry.add symbol)) :
    ∀ entry ∈ withOwners (ofSymbols symbols) owners, Holds entry := by
  have ofSymbols : ∀ entries : List Entry, (∀ entry ∈ entries, Holds entry) →
      ∀ entry ∈ symbols.foldl (fun entries symbol => Entry.file symbol entries) entries,
        Holds entry := by
    induction symbols with
    | nil => exact fun entries before => before
    | cons symbol rest inductionHypothesis =>
        rw [List.forall_mem_cons] at ofSymbol add
        intro entries before
        apply inductionHypothesis ofSymbol.2 add.2
        exact forall_mem_file (add.1 _ rfl ofSymbol.1) add.1 before
  have withOwners : ∀ entries : List Entry, (∀ entry ∈ entries, Holds entry) →
      ∀ entry ∈ withOwners entries owners, Holds entry := by
    unfold withOwners
    induction owners with
    | nil => exact fun entries before => before
    | cons owner rest inductionHypothesis =>
        rw [List.forall_mem_cons] at ofOwner
        intro entries before
        rw [List.foldl_cons]
        apply inductionHypothesis ofOwner.2
        split
        · exact before
        · rw [List.forall_mem_append, List.forall_mem_singleton]
          exact ⟨before, ofOwner.1⟩
  exact withOwners _ (ofSymbols [] (by simp))

end Invariant

section Sources

variable {symbols : List Symbol} {owners : List String} {entry : Entry}

/-- The paths and kinds of an entry are those of the symbols of its name. -/
theorem exists_symbol_of_mem (listed : entry ∈ withOwners (ofSymbols symbols) owners) :
    (∀ path ∈ entry.paths, ∃ symbol ∈ symbols,
      symbol.name = entry.name ∧ symbol.qualifiedPath = path) ∧
    ∀ kind ∈ entry.kinds, ∃ symbol ∈ symbols, symbol.name = entry.name ∧ symbol.kind = kind := by
  revert entry
  apply forall_mem_withOwners
  · intro symbol _
    simp
  · intro owner _
    simp
  · intro symbol membership entry same holds
    refine ⟨?_, ?_⟩
    · intro path known
      rcases mem_including.mp known with before | rfl
      · exact holds.1 path before
      · exact ⟨symbol, membership, same.symm, rfl⟩
    · intro kind known
      rcases mem_including.mp known with before | rfl
      · exact holds.2 kind before
      · exact ⟨symbol, membership, same.symm, rfl⟩

theorem name_of_mem_withOwners (listed : entry ∈ withOwners (ofSymbols symbols) owners) :
    (∃ symbol ∈ symbols, symbol.name = entry.name) ∨ entry.name ∈ owners := by
  have named := List.mem_map_of_mem (f := fun entry : Entry => entry.name) listed
  rw [names_withOwners, mem_foldl_including, names_ofSymbols, mem_foldl_including] at named
  rcases named with (nothing | ofSymbol) | ofOwner
  · contradiction
  · exact .inl (List.mem_map.mp ofSymbol)
  · exact .inr ofOwner

end Sources

end AmbientStubs.Package.Entry
