import AmbientStubs.Catalog

/-!
Catalogs as maps.  The keys of a catalog that grows by `alter` ascend, and looking up a
key sees the last change made under it and no other.
-/

namespace AmbientStubs.Catalog

variable {Value : Type}

def Ascending (catalog : Catalog Value) : Prop :=
  catalog.entries.Pairwise fun earlier later => earlier.1 < later.1

theorem ascending_empty : ({} : Catalog Value).Ascending :=
  List.Pairwise.nil

theorem mem_alterEntries {key : String} {change : Option Value → Value}
    {entries : List (String × Value)} {entry : String × Value}
    (membership : entry ∈ alterEntries key change entries) :
    entry.1 = key ∨ entry ∈ entries := by
  induction entries with
  | nil => simp_all [alterEntries]
  | cons first rest inductionHypothesis =>
      obtain ⟨present, value⟩ := first
      simp only [alterEntries] at membership
      split at membership
      · rcases List.mem_cons.mp membership with rfl | old
        · exact .inl rfl
        · exact .inr old
      · split at membership
        · next same =>
            rcases List.mem_cons.mp membership with rfl | old
            · exact .inl same.symm
            · exact .inr (List.mem_cons_of_mem _ old)
        · rcases List.mem_cons.mp membership with rfl | later
          · exact .inr List.mem_cons_self
          · exact (inductionHypothesis later).imp id (List.mem_cons_of_mem _)

/-- What holds of all values, and of a changed value whenever it held of the one before the
change, holds of all values after the change. -/
theorem forall_mem_alterEntries {holds : Value → Prop} {key : String}
    {change : Option Value → Value}
    (kept : ∀ old, (∀ value ∈ old, holds value) → holds (change old))
    {entries : List (String × Value)} (each : ∀ entry ∈ entries, holds entry.2) :
    ∀ entry ∈ alterEntries key change entries, holds entry.2 := by
  have fresh : holds (change none) := kept none (by simp)
  induction entries with
  | nil => simpa [alterEntries] using fresh
  | cons first rest inductionHypothesis =>
      obtain ⟨present, value⟩ := first
      obtain ⟨holdsFirst, holdsRest⟩ := List.forall_mem_cons.mp each
      simp only [alterEntries]
      split
      · exact List.forall_mem_cons.mpr ⟨fresh, each⟩
      · split
        · exact List.forall_mem_cons.mpr ⟨kept (some value) (by simpa using holdsFirst), holdsRest⟩
        · exact List.forall_mem_cons.mpr ⟨holdsFirst, inductionHypothesis holdsRest⟩

theorem Ascending.alter {catalog : Catalog Value} (ascending : catalog.Ascending)
    (key : String) (change : Option Value → Value) : (catalog.alter key change).Ascending := by
  obtain ⟨entries⟩ := catalog
  simp only [Ascending, Catalog.alter] at ascending ⊢
  induction entries with
  | nil => simp [alterEntries]
  | cons first rest inductionHypothesis =>
      obtain ⟨present, value⟩ := first
      obtain ⟨above, restAscending⟩ := List.pairwise_cons.mp ascending
      simp only [alterEntries]
      split
      · next below =>
          refine List.pairwise_cons.mpr ⟨?_, ascending⟩
          intro entry membership
          rcases List.mem_cons.mp membership with rfl | later
          · exact below
          · exact String.lt_trans below (above entry later)
      · next notBelow =>
          split
          · exact List.pairwise_cons.mpr ⟨above, restAscending⟩
          · next different =>
              refine List.pairwise_cons.mpr ⟨?_, inductionHypothesis restAscending⟩
              intro entry membership
              rcases mem_alterEntries membership with same | old
              · have reversed : present < key :=
                  Std.lt_of_le_of_ne notBelow (Ne.symm different)
                simpa [same] using reversed
              · exact above entry old

theorem find?_eq_none_of_lt {key : String} {entries : List (String × Value)}
    (above : ∀ entry ∈ entries, key < entry.1) :
    (entries.find? fun entry => entry.1 == key) = none := by
  simp only [List.find?_eq_none, beq_iff_eq]
  intro entry membership same
  exact String.lt_irrefl key (same ▸ above entry membership)

theorem get?_alter {catalog : Catalog Value} (ascending : catalog.Ascending)
    (key : String) (change : Option Value → Value) (sought : String) :
    (catalog.alter key change).get? sought =
      if sought = key then some (change (catalog.get? key)) else catalog.get? sought := by
  obtain ⟨entries⟩ := catalog
  simp only [Ascending, Catalog.alter, get?] at ascending ⊢
  induction entries with
  | nil => by_cases same : sought = key <;> simp [alterEntries, same, Ne.symm]
  | cons first rest inductionHypothesis =>
      obtain ⟨present, value⟩ := first
      obtain ⟨above, restAscending⟩ := List.pairwise_cons.mp ascending
      simp only [alterEntries]
      split
      · next below =>
          by_cases same : sought = key
          · -- The key is new: everything filed lies above it.
            have absent : ((present, value) :: rest).find? (fun entry => entry.1 == key) = none :=
              find?_eq_none_of_lt (List.forall_mem_cons.mpr
                ⟨below, fun entry later => String.lt_trans below (above entry later)⟩)
            simp [same, absent]
          · simp [List.find?_cons, same, beq_eq_false_iff_ne.mpr (Ne.symm same)]
      · split
        · next present_eq =>
            subst present_eq
            by_cases same : sought = key
            · simp [same]
            · simp [same, beq_eq_false_iff_ne.mpr (Ne.symm same)]
        · next different =>
            have skipped : (present == key) = false :=
              beq_eq_false_iff_ne.mpr (Ne.symm different)
            have later := inductionHypothesis restAscending
            by_cases found : present = sought
            · subst found
              simp [Ne.symm different]
            · simpa [List.find?_cons, skipped, beq_eq_false_iff_ne.mpr found] using later

theorem get?_insert {catalog : Catalog Value} (ascending : catalog.Ascending)
    (key : String) (value : Value) (sought : String) :
    (catalog.insert key value).get? sought =
      if sought = key then some value else catalog.get? sought :=
  get?_alter ascending key (fun _ => value) sought

@[simp]
theorem get?_empty (key : String) : ({} : Catalog Value).get? key = none := rfl

theorem mem_keys_iff (catalog : Catalog Value) (key : String) :
    key ∈ catalog.keys ↔ (catalog.get? key).isSome := by
  simp [keys, get?, List.find?_isSome]

namespace Ascending

variable {catalog : Catalog Value}

theorem keys (ascending : catalog.Ascending) : catalog.keys.Pairwise (· < ·) :=
  List.pairwise_map.mpr ascending

theorem filterKeys (ascending : catalog.Ascending) (keep : String → Bool) :
    (catalog.filterKeys keep).Ascending :=
  List.Pairwise.filter _ ascending

theorem mapWithKey {Result : Type} (ascending : catalog.Ascending)
    (change : String → Value → Result) : (catalog.mapWithKey change).Ascending :=
  List.pairwise_map.mpr ascending

theorem get?_of_mem (ascending : catalog.Ascending) {key : String} {value : Value}
    (listed : (key, value) ∈ catalog.entries) : catalog.get? key = some value := by
  obtain ⟨entries⟩ := catalog
  simp only [Ascending, get?] at ascending listed ⊢
  induction entries with
  | nil => simp at listed
  | cons first rest inductionHypothesis =>
      obtain ⟨above, restAscending⟩ := List.pairwise_cons.mp ascending
      rcases List.mem_cons.mp listed with rfl | later
      · simp
      · have skipped : (first.1 == key) = false := by
          simpa using String.ne_of_lt (above (key, value) later)
        simpa [skipped] using inductionHypothesis restAscending later

end Ascending

end AmbientStubs.Catalog
