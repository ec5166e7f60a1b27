/-!
Catalogs: values filed under text keys, in ascending order of the keys.  The order is
that of code points, and it is the order in which packages, declarations and counts are
listed.
-/

namespace AmbientStubs

/-- Values under distinct keys, listed by ascending key. -/
structure Catalog (Value : Type) where
  entries : List (String × Value) := []

namespace Catalog

variable {Value : Type}

/-- Change the value under a key in a listing; an absent key is filed in its place. -/
def alterEntries (key : String) (change : Option Value → Value) :
    List (String × Value) → List (String × Value)
  | [] => [(key, change none)]
  | (present, value) :: rest =>
      if key < present then (key, change none) :: (present, value) :: rest
      else if key = present then (present, change (some value)) :: rest
      else (present, value) :: alterEntries key change rest

def alter (catalog : Catalog Value) (key : String) (change : Option Value → Value) :
    Catalog Value :=
  ⟨alterEntries key change catalog.entries⟩

def insert (catalog : Catalog Value) (key : String) (value : Value) : Catalog Value :=
  catalog.alter key fun _ => value

def get? (catalog : Catalog Value) (key : String) : Option Value :=
  (catalog.entries.find? fun entry => entry.1 == key).map (·.2)

def keys (catalog : Catalog Value) : List String :=
  catalog.entries.map (·.1)

def values (catalog : Catalog Value) : List Value :=
  catalog.entries.map (·.2)

def size (catalog : Catalog Value) : Nat :=
  catalog.entries.length

def isEmpty (catalog : Catalog Value) : Bool :=
  catalog.entries.isEmpty

def filterKeys (catalog : Catalog Value) (keep : String → Bool) : Catalog Value :=
  ⟨catalog.entries.filter fun entry => keep entry.1⟩

def mapWithKey {Result : Type} (catalog : Catalog Value) (change : String → Value → Result) :
    Catalog Result :=
  ⟨catalog.entries.map fun entry => (entry.1, change entry.1 entry.2)⟩

/-- File the pairs of a list one after the other; later pairs win. -/
def ofList (pairs : List (String × Value)) : Catalog Value :=
  pairs.foldl (fun catalog pair => catalog.insert pair.1 pair.2) ⟨[]⟩

@[simp]
theorem find?_alterEntries_self (key : String) (change : Option Value → Value)
    (entries : List (String × Value)) :
    ∃ old, ((alterEntries key change entries).find? fun entry => entry.1 == key).map (·.2) =
      some (change old) := by
  induction entries with
  | nil => exact ⟨none, by simp [alterEntries]⟩
  | cons entry rest inductionHypothesis =>
      obtain ⟨present, value⟩ := entry
      simp only [alterEntries]
      split
      · exact ⟨none, by simp⟩
      · split
        · next same => exact ⟨some value, by simp [same]⟩
        · next different =>
            obtain ⟨old, found⟩ := inductionHypothesis
            refine ⟨old, ?_⟩
            have skipped : (present == key) = false := by
              simpa using fun equal => different equal.symm
            simpa [List.find?_cons, skipped] using found

end Catalog

end AmbientStubs
