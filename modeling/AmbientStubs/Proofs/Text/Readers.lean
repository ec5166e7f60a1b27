import AmbientStubs.Proofs.Text.Pieces

/-!
What the readers of a line accept.  Each reader takes exactly the texts of one small grammar:
white space, a word and white space behind it, a run of identifier characters.  White space and
identifier characters exclude each other, so that a run of either kind has one place to end.
-/

namespace AmbientStubs.Text

def IsBlanks (text : List Char) : Prop :=
  text ≠ [] ∧ ∀ character ∈ text, isBlank character = true

instance (text : List Char) : Decidable (IsBlanks text) :=
  decidable_of_iff (text ≠ [] ∧ text.all isBlank = true) (by rw [IsBlanks, List.all_eq_true])

def StartsSolid (text : List Char) : Prop :=
  ∀ character, text.head? = some character → isBlank character = false

theorem startsSolid_cons {character : Char} {rest : List Char} :
    StartsSolid (character :: rest) ↔ isBlank character = false := by
  simp [StartsSolid]

theorem eq_false_of_head?_dropWhile {belongs : Char → Bool} {text : List Char} {character : Char}
    (first : (text.dropWhile belongs).head? = some character) : belongs character = false := by
  have stopped := List.head?_dropWhile_not belongs text
  rw [first] at stopped
  simpa using stopped

section Runs

variable {belongs : Char → Bool} {found rest : List Char}
  (inside : ∀ character ∈ found, belongs character = true)
  (outside : ∀ character, rest.head? = some character → belongs character = false)

include inside outside

/-- A run of a class is taken to its end where a character of another class follows. -/
theorem takeWhile_append : (found ++ rest).takeWhile belongs = found := by
  rw [List.takeWhile_append_of_pos inside]
  cases rest with
  | nil => simp
  | cons next more => simp [outside next rfl]

theorem dropWhile_append : (found ++ rest).dropWhile belongs = rest := by
  rw [List.dropWhile_append_of_pos inside]
  cases rest with
  | nil => rfl
  | cons next more => simp [outside next rfl]

end Runs

theorem startsSolid_trimStart (text : List Char) : StartsSolid (trimStart text) :=
  fun _ => eq_false_of_head?_dropWhile

theorem trimStart_append {blanks rest : List Char}
    (blank : ∀ character ∈ blanks, isBlank character = true) (solid : StartsSolid rest) :
    trimStart (blanks ++ rest) = rest :=
  dropWhile_append blank solid

theorem blanks?_append {blanks rest : List Char} (blank : IsBlanks blanks)
    (solid : StartsSolid rest) : blanks? (blanks ++ rest) = some rest := by
  obtain ⟨nonempty, all⟩ := blank
  cases blanks with
  | nil => exact absurd rfl nonempty
  | cons first more =>
      obtain ⟨blankFirst, blankMore⟩ := List.forall_mem_cons.mp all
      simp [blanks?, blankFirst, trimStart_append blankMore solid]

theorem blanks?_eq_some_iff {text rest : List Char} :
    blanks? text = some rest ↔
      ∃ blanks, IsBlanks blanks ∧ StartsSolid rest ∧ text = blanks ++ rest := by
  constructor
  · intro read
    cases text with
    | nil => simp [blanks?] at read
    | cons first more =>
        rw [blanks?] at read
        split at read
        · next blankFirst =>
            obtain rfl := Option.some.inj read
            refine ⟨first :: more.takeWhile isBlank, ⟨by simp, ?_⟩, startsSolid_trimStart more, ?_⟩
            · exact List.forall_mem_cons.mpr
                ⟨blankFirst, fun _ => List.all_eq_true.mp List.all_takeWhile _⟩
            · simp [trimStart]
        · contradiction
  · rintro ⟨blanks, blank, solid, rfl⟩
    exact blanks?_append blank solid

theorem keyword?_append {word : String} {blanks rest : List Char} (blank : IsBlanks blanks)
    (solid : StartsSolid rest) : keyword? word (word.toList ++ (blanks ++ rest)) = some rest := by
  rw [keyword?, literal?_append, Option.bind_some, blanks?_append blank solid]

theorem keyword?_eq_some_iff {word : String} {text rest : List Char} :
    keyword? word text = some rest ↔
      ∃ blanks, IsBlanks blanks ∧ StartsSolid rest ∧ text = word.toList ++ (blanks ++ rest) := by
  constructor
  · intro read
    obtain ⟨middle, literal, behind⟩ := Option.bind_eq_some_iff.mp read
    obtain ⟨blanks, blank, solid, rfl⟩ := blanks?_eq_some_iff.mp behind
    exact ⟨blanks, blank, solid, literal?_eq_some_iff.mp literal⟩
  · rintro ⟨blanks, blank, solid, rfl⟩
    exact keyword?_append blank solid

theorem isIdentifier_eq_false_of_isBlank {character : Char} (blank : isBlank character = true) :
    isIdentifier character = false := by
  have apart : ∀ range ∈ blankTable, ∀ code ∈ List.range' range.1 (range.2 + 1 - range.1),
      isIdentifier (Char.ofNat code) = false := by
    decide +kernel
  obtain ⟨range, listed, low, high⟩ := (CodeTable.holds_iff _ _).mp blank
  have found := apart range listed character.toNat (by
    rw [List.mem_range'_1]
    omega)
  rwa [Char.ofNat_toNat] at found

theorem isBlank_eq_false_of_isIdentifier {character : Char}
    (belongs : isIdentifier character = true) : isBlank character = false := by
  cases blank : isBlank character with
  | false => rfl
  | true => simp [isIdentifier_eq_false_of_isBlank blank] at belongs

theorem isIdentifier_ofList {name : List Char} :
    IsIdentifier (String.ofList name) ↔
      name ≠ [] ∧ ∀ character ∈ name, isIdentifier character = true := by
  simp [IsIdentifier]

theorem startsSolid_append_of_isIdentifier {name : List Char}
    (identifier : IsIdentifier (String.ofList name)) (rest : List Char) :
    StartsSolid (name ++ rest) := by
  obtain ⟨nonempty, inside⟩ := isIdentifier_ofList.mp identifier
  cases name with
  | nil => exact absurd rfl nonempty
  | cons first more =>
      exact startsSolid_cons.mpr
        (isBlank_eq_false_of_isIdentifier (inside first List.mem_cons_self))

/-- A run is as long as possible. -/
theorem run?_eq_some_iff {belongs : Char → Bool} {text found rest : List Char} :
    run? belongs text = some (found, rest) ↔
      found ≠ [] ∧ (∀ character ∈ found, belongs character = true) ∧
        (∀ character, rest.head? = some character → belongs character = false) ∧
        text = found ++ rest := by
  constructor
  · intro read
    obtain ⟨split, nonempty, inside⟩ := run?_eq_some read
    refine ⟨nonempty, inside, ?_, split⟩
    intro character first
    unfold run? at read
    split at read
    · contradiction
    · obtain ⟨-, rfl⟩ := Prod.mk.inj (Option.some.inj read)
      exact eq_false_of_head?_dropWhile first
  · rintro ⟨nonempty, inside, outside, rfl⟩
    unfold run?
    rw [takeWhile_append inside outside, dropWhile_append inside outside]
    cases found with
    | nil => exact absurd rfl nonempty
    | cons first more => rfl

theorem run?_identifier_append {name blanks : List Char}
    (identifier : IsIdentifier (String.ofList name)) (blank : IsBlanks blanks)
    (rest : List Char) :
    run? isIdentifier (name ++ (blanks ++ rest)) = some (name, blanks ++ rest) := by
  obtain ⟨nonempty, inside⟩ := isIdentifier_ofList.mp identifier
  refine run?_eq_some_iff.mpr ⟨nonempty, inside, ?_, rfl⟩
  obtain ⟨nonemptyBlanks, allBlank⟩ := blank
  cases blanks with
  | nil => exact absurd rfl nonemptyBlanks
  | cons first more =>
      intro character same
      obtain rfl : first = character := Option.some.inj same
      exact isIdentifier_eq_false_of_isBlank (allBlank first List.mem_cons_self)

theorem run?_identifier_self {name : List Char} (identifier : IsIdentifier (String.ofList name)) :
    run? isIdentifier name = some (name, []) := by
  obtain ⟨nonempty, inside⟩ := isIdentifier_ofList.mp identifier
  exact run?_eq_some_iff.mpr ⟨nonempty, inside, by simp, by simp⟩

/-- The text between two delimiters ends at the first closing one. -/
theorem enclosed?_eq_some_iff {opening closing : Char} {text inner rest : List Char} :
    enclosed? opening closing text = some (inner, rest) ↔
      closing ∉ inner ∧ text = opening :: (inner ++ closing :: rest) := by
  constructor
  · intro read
    cases text with
    | nil => simp [enclosed?] at read
    | cons first text =>
        rw [enclosed?] at read
        split at read
        · next isOpening =>
            split at read
            · next last more dropped =>
                obtain ⟨rfl, rfl⟩ := Prod.mk.inj (Option.some.inj read)
                have stopped : (text.dropWhile (· != closing)).head? = some last := by
                  rw [dropped, List.head?_cons]
                obtain rfl : last = closing := by simpa using eq_false_of_head?_dropWhile stopped
                refine ⟨?_, ?_⟩
                · intro inside
                  simpa using List.all_eq_true.mp List.all_takeWhile last inside
                · rw [isOpening, ← dropped, List.takeWhile_append_dropWhile]
            · contradiction
        · contradiction
  · rintro ⟨absent, rfl⟩
    have inside : ∀ character ∈ inner, (character != closing) = true := by
      intro character membership
      rw [bne_iff_ne]
      rintro rfl
      exact absent membership
    simp [enclosed?, List.takeWhile_append_of_pos inside, List.dropWhile_append_of_pos inside]

end AmbientStubs.Text
