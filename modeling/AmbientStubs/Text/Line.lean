import AmbientStubs.Text.Character

/-!
Reading text character by character.  The readers of this library take the characters
still to be read and return what they found together with the rest, so that a statement
about a reader is a statement about lists.
-/

namespace AmbientStubs.Text

def trimStart (text : List Char) : List Char :=
  text.dropWhile isBlank

def trimEnd (text : List Char) : List Char :=
  (text.reverse.dropWhile isBlank).reverse

def trim (text : List Char) : List Char :=
  trimEnd (trimStart text)

/-- The pieces between the separators; one more piece than there are separators. -/
def pieces (separator : Char) : List Char → List (List Char)
  | [] => [[]]
  | character :: rest =>
      if character = separator then [] :: pieces separator rest
      else
        match pieces separator rest with
        | [] => [[character]]
        | piece :: more => (character :: piece) :: more

/-- Replace every run of blanks by one space: a blank that another blank follows is
dropped. -/
def collapseBlanks : List Char → List Char
  | [] => []
  | character :: rest =>
      if isBlank character then
        match rest with
        | next :: _ => if isBlank next then collapseBlanks rest else ' ' :: collapseBlanks rest
        | [] => [' ']
      else character :: collapseBlanks rest

/-- Trimmed text with every inner run of blanks written as one space. -/
def tidy (text : List Char) : List Char :=
  collapseBlanks (trim text)

def after? : List Char → List Char → Option (List Char)
  | [], text => some text
  | _ :: _, [] => none
  | expected :: more, character :: rest =>
      if expected = character then after? more rest else none

def literal? (word : String) (text : List Char) : Option (List Char) :=
  after? word.toList text

def blanks? : List Char → Option (List Char)
  | [] => none
  | character :: rest => if isBlank character then some (trimStart rest) else none

def keyword? (word : String) (text : List Char) : Option (List Char) :=
  (literal? word text).bind blanks?

def skipKeyword (word : String) (text : List Char) : List Char :=
  (keyword? word text).getD text

def run? (belongs : Char → Bool) (text : List Char) : Option (List Char × List Char) :=
  match text.takeWhile belongs with
  | [] => none
  | found => some (found, text.dropWhile belongs)

/-- Text between two delimiters: the opening one must come first, and the text ends at
the first closing one. -/
def enclosed? (opening closing : Char) : List Char → Option (List Char × List Char)
  | [] => none
  | first :: text =>
      if first = opening then
        match text.dropWhile (· != closing) with
        | _ :: rest => some (text.takeWhile (· != closing), rest)
        | [] => none
      else none

theorem after?_eq_some_iff {expected text rest : List Char} :
    after? expected text = some rest ↔ text = expected ++ rest := by
  induction expected generalizing text with
  | nil => simp [after?]
  | cons first more inductionHypothesis =>
      cases text with
      | nil => simp [after?]
      | cons character remaining =>
          by_cases same : first = character
          · simp [after?, same, inductionHypothesis]
          · simpa [after?, same] using fun equal => absurd equal.symm same

theorem literal?_eq_some_iff {word : String} {text rest : List Char} :
    literal? word text = some rest ↔ text = word.toList ++ rest :=
  after?_eq_some_iff

theorem pieces_ne_nil (separator : Char) (text : List Char) : pieces separator text ≠ [] := by
  cases text with
  | nil => simp [pieces]
  | cons character rest =>
      simp only [pieces]
      split
      · simp
      · split <;> simp

theorem intercalate_pieces (separator : Char) (text : List Char) :
    [separator].intercalate (pieces separator text) = text := by
  induction text with
  | nil => simp [pieces, List.intercalate]
  | cons character rest inductionHypothesis =>
      simp only [pieces]
      split
      · next same =>
          subst same
          cases split : pieces character rest with
          | nil => exact absurd split (pieces_ne_nil character rest)
          | cons piece more =>
              rw [split] at inductionHypothesis
              simpa [List.intercalate, List.intersperse] using inductionHypothesis
      · split
        · next empty => exact absurd empty (pieces_ne_nil separator rest)
        · next piece more split =>
            rw [split] at inductionHypothesis
            cases more <;>
              simpa [List.intercalate, List.intersperse] using inductionHypothesis

theorem run?_eq_some {belongs : Char → Bool} {text found rest : List Char}
    (read : run? belongs text = some (found, rest)) :
    text = found ++ rest ∧ found ≠ [] ∧ (∀ character ∈ found, belongs character = true) := by
  unfold run? at read
  split at read
  · simp at read
  · next nonempty =>
      simp only [Option.some.injEq, Prod.mk.injEq] at read
      obtain ⟨rfl, rfl⟩ := read
      exact ⟨by simp, nonempty, fun _ => List.all_eq_true.1 List.all_takeWhile _⟩

theorem length_trimStart_le (text : List Char) : (trimStart text).length ≤ text.length :=
  (List.dropWhile_sublist isBlank).length_le

theorem length_literal?_le {word : String} {text rest : List Char}
    (read : literal? word text = some rest) : rest.length ≤ text.length := by
  simp [literal?_eq_some_iff.1 read]

theorem length_run?_le {belongs : Char → Bool} {text found rest : List Char}
    (read : run? belongs text = some (found, rest)) : rest.length ≤ text.length := by
  simp [(run?_eq_some read).1]

theorem length_blanks?_lt {text rest : List Char} (read : blanks? text = some rest) :
    rest.length < text.length := by
  cases text with
  | nil => simp [blanks?] at read
  | cons character text =>
      simp only [blanks?] at read
      split at read
      · cases read
        have := length_trimStart_le text
        simp only [List.length_cons]
        omega
      · simp at read

theorem length_enclosed?_le {opening closing : Char} {text inner rest : List Char}
    (read : enclosed? opening closing text = some (inner, rest)) :
    rest.length ≤ text.length := by
  cases text with
  | nil => simp [enclosed?] at read
  | cons first text =>
      simp only [enclosed?] at read
      split at read
      · split at read
        · next found =>
            cases read
            have shorter := (List.dropWhile_sublist (· != closing) (l := text)).length_le
            rw [found] at shorter
            simp only [List.length_cons] at shorter ⊢
            omega
        · simp at read
      · simp at read

def splitText (separator : Char) (text : String) : List String :=
  (pieces separator text.toList).map String.ofList

/-- The segments of a dotted path; a path without dots is its only segment. -/
def segments (path : String) : List String :=
  splitText '.' path

def dotted (parts : List String) : String :=
  ".".intercalate parts

def startsWith (text start : String) : Bool :=
  start.toList.isPrefixOf text.toList

def endsWith (text ending : String) : Bool :=
  ending.toList.isSuffixOf text.toList

end AmbientStubs.Text
