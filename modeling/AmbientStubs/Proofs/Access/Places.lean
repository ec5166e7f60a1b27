import AmbientStubs.Proofs.Access.WellFormed
import AmbientStubs.Proofs.Text.Readers

/-!
Where the chains of a line stand.  The pattern of a chain is stated on a place of the line, that is
on what stands before, in and behind it.  The scanner goes through the line once; the places that
it takes are the leftmost ones that do not overlap, each as long as possible, and this determines
them.
-/

namespace AmbientStubs

open Text

namespace Chain

structure Place where
  before : List Char
  base : List Char
  members : List (List Char)
  behind : List Char

namespace Place

def text (place : Place) : List Char :=
  ['.'].intercalate (place.base :: place.members)

def line (place : Place) : List Char :=
  place.before ++ (place.text ++ place.behind)

def start (place : Place) : Nat :=
  place.before.length

def stop (place : Place) : Nat :=
  place.start + place.text.length

/-- The pattern of a chain: at the start of a word an ASCII capital, ASCII letters and digits, and
then one or more times a dot and a name of ASCII letters, digits and underscores. -/
structure Fits (place : Place) : Prop where
  wordStart : ∀ previous, place.before.getLast? = some previous → isWord previous = false
  base : IsClassName (String.ofList place.base)
  members : place.members ≠ []
  names : ∀ member ∈ place.members,
    member ≠ [] ∧ ∀ character ∈ member, isMemberCharacter character = true

/-- The leftmost places of a line from a position on that the pattern fits and that do not
overlap, each as long as possible. -/
structure LeftmostFrom (line : List Char) (position : Nat) (places : List Place) : Prop where
  fits : ∀ place ∈ places, place.line = line ∧ place.Fits ∧ position ≤ place.start
  longest : ∀ place ∈ places, ∀ other : Place, other.line = line → other.Fits →
    other.start = place.start → other.stop ≤ place.stop
  apart : places.Pairwise fun earlier later => earlier.stop ≤ later.start
  leftmost : ∀ other : Place, other.line = line → other.Fits → position ≤ other.start →
    ∃ place ∈ places, place.start ≤ other.start ∧ other.start < place.stop

def chain (place : Place) : Chain where
  base := place.base
  members := place.members
  isCall := (trimStart place.behind).head? = some '('
  followsNew := endsInNew place.before.reverse

theorem Fits.text_eq {place : Place} (fits : place.Fits) :
    place.text = place.base ++ '.' :: ['.'].intercalate place.members := by
  cases members : place.members with
  | nil => exact absurd members fits.members
  | cons member more => rw [text, members, intercalate_cons_cons]

theorem Fits.start_lt_stop {place : Place} (fits : place.Fits) : place.start < place.stop := by
  rw [stop, fits.text_eq, List.length_append, List.length_cons]
  omega

end Place

theorem not_mem_of_isMemberCharacter {member : List Char}
    (inside : ∀ character ∈ member, isMemberCharacter character = true) : '.' ∉ member :=
  fun dotted => absurd (inside '.' dotted) (by decide)

theorem membersAt_of_head_ne {text : List Char} (head : text.head? ≠ some '.') :
    membersAt text = [] := by
  unfold membersAt
  split
  · simp at head
  · rfl

/-- The members are read one after the other: each is a dot and the longest non-empty run of
member characters. -/
theorem membersAt_of_run? {text member rest : List Char}
    (run : run? isMemberCharacter text = some (member, rest)) :
    membersAt ('.' :: text) = member :: membersAt rest := by
  obtain ⟨nonempty, inside, outside, rfl⟩ := run?_eq_some_iff.mp run
  have plain := not_mem_of_isMemberCharacter inside
  have taken : ∀ character ∈ member, (isMemberCharacter character || character == '.') = true :=
    fun character membership => by simp [inside character membership]
  by_cases goesOn : rest.head? = some '.'
  · obtain ⟨more, rfl⟩ : ∃ more, rest = '.' :: more := List.head?_eq_some_iff.mp goesOn
    simp [membersAt, List.takeWhile_append_of_pos taken, pieces_append_cons plain, nonempty]
  · -- The run ends here, so that there is one piece.
    have stopped :
        rest.takeWhile (fun character => isMemberCharacter character || character == '.') = [] := by
      cases rest with
      | nil => rfl
      | cons next more =>
          have foreign := outside next rfl
          have noDot : next ≠ '.' := by simpa using goesOn
          simp [foreign, noDot]
    rw [membersAt_of_head_ne goesOn]
    simp [membersAt, List.takeWhile_append_of_pos taken, stopped, pieces_of_not_mem plain, nonempty]

theorem membersAt_of_run?_eq_none {text : List Char}
    (run : run? isMemberCharacter text = none) : membersAt ('.' :: text) = [] := by
  cases text with
  | nil => rfl
  | cons first rest =>
      have foreign : isMemberCharacter first = false := by
        cases belongs : isMemberCharacter first with
        | false => rfl
        | true => simp [run?, belongs] at run
      by_cases isDot : first = '.'
      · simp [membersAt, isDot, pieces]
      · simp [membersAt, foreign, isDot, pieces]

theorem exists_run?_of_membersAt {text member : List Char} {members : List (List Char)}
    (read : membersAt text = member :: members) :
    ∃ tail rest, text = '.' :: tail ∧ run? isMemberCharacter tail = some (member, rest) ∧
      membersAt rest = members := by
  by_cases dotted : text.head? = some '.'
  · obtain ⟨tail, rfl⟩ : ∃ tail, text = '.' :: tail := List.head?_eq_some_iff.mp dotted
    cases run : run? isMemberCharacter tail with
    | none => simp [membersAt_of_run?_eq_none run] at read
    | some found =>
        obtain ⟨first, rest⟩ := found
        rw [membersAt_of_run? run] at read
        obtain ⟨rfl, rfl⟩ := List.cons.inj read
        exact ⟨tail, rest, rfl, run, rfl⟩
  · simp [membersAt_of_head_ne dotted] at read

theorem names_of_membersAt {text : List Char} {members : List (List Char)}
    (read : membersAt text = members) :
    ∀ member ∈ members, member ≠ [] ∧
      ∀ character ∈ member, isMemberCharacter character = true := by
  induction members generalizing text with
  | nil => simp
  | cons member more inductionHypothesis =>
      obtain ⟨tail, rest, rfl, run, readRest⟩ := exists_run?_of_membersAt read
      obtain ⟨nonempty, inside, -, -⟩ := run?_eq_some_iff.mp run
      exact List.forall_mem_cons.mpr ⟨⟨nonempty, inside⟩, inductionHypothesis readRest⟩

theorem exists_rest_of_membersAt {text : List Char} {members : List (List Char)}
    (read : membersAt text = members) (nonempty : members ≠ []) :
    ∃ rest, text = '.' :: (['.'].intercalate members ++ rest) := by
  induction members generalizing text with
  | nil => exact absurd rfl nonempty
  | cons member more inductionHypothesis =>
      obtain ⟨tail, rest, rfl, run, readRest⟩ := exists_run?_of_membersAt read
      obtain ⟨-, -, -, rfl⟩ := run?_eq_some_iff.mp run
      cases more with
      | nil => exact ⟨rest, by simp [List.intercalate]⟩
      | cons next others =>
          obtain ⟨last, rfl⟩ := inductionHypothesis readRest (by simp)
          exact ⟨last, by simp⟩

/-- Members that are written at the start of a text are read, and perhaps more than these. -/
theorem exists_membersAt {members : List (List Char)} (nonempty : members ≠ [])
    (names : ∀ member ∈ members, member ≠ [] ∧
      ∀ character ∈ member, isMemberCharacter character = true) (behind : List Char) :
    ∃ read, membersAt ('.' :: (['.'].intercalate members ++ behind)) = read ∧ read ≠ [] ∧
      (['.'].intercalate members).length ≤ (['.'].intercalate read).length := by
  induction members with
  | nil => exact absurd rfl nonempty
  | cons member more inductionHypothesis =>
      obtain ⟨⟨nonemptyMember, inside⟩, restNames⟩ := List.forall_mem_cons.mp names
      cases more with
      | nil =>
          have run : run? isMemberCharacter (member ++ behind) =
              some (member ++ behind.takeWhile isMemberCharacter,
                behind.dropWhile isMemberCharacter) := by
            refine run?_eq_some_iff.mpr ⟨by simp [nonemptyMember], ?_, ?_, by simp⟩
            · intro character membership
              rcases List.mem_append.mp membership with inMember | taken
              · exact inside character inMember
              · exact List.all_eq_true.mp List.all_takeWhile character taken
            · exact fun character => eq_false_of_head?_dropWhile
          refine ⟨_, by simpa [List.intercalate] using membersAt_of_run? run, by simp, ?_⟩
          refine Nat.le_trans ?_ (length_le_intercalate _ _ _)
          simp [List.intercalate]
      | cons next others =>
          obtain ⟨read, isRead, nonemptyRead, longer⟩ := inductionHypothesis (by simp) restNames
          have run : run? isMemberCharacter
              (member ++ '.' :: (['.'].intercalate (next :: others) ++ behind)) =
                some (member, '.' :: (['.'].intercalate (next :: others) ++ behind)) :=
            run?_append nonemptyMember inside (by decide)
          refine ⟨member :: read, ?_, by simp, ?_⟩
          · rw [intercalate_cons_cons, List.append_assoc, List.cons_append, membersAt_of_run? run,
              isRead]
          · cases read with
            | nil => exact absurd rfl nonemptyRead
            | cons first later =>
                rw [intercalate_cons_cons, intercalate_cons_cons, List.length_append,
                  List.length_append, List.length_cons, List.length_cons]
                omega

theorem atWordStart_iff {before : List Char} :
    atWordStart before = true ↔
      ∀ previous, before.head? = some previous → isWord previous = false := by
  cases before <;> simp [atWordStart]

/-- The place of the chain whose members are read behind the longest possible base. -/
def placeAt (before : List Char) (first : Char) (rest : List Char) (members : List (List Char)) :
    Place where
  before := before.reverse
  base := first :: rest.takeWhile isAsciiAlphanumeric
  members := members
  behind := (first :: rest).drop
    (['.'].intercalate ((first :: rest.takeWhile isAsciiAlphanumeric) :: members)).length

theorem at?_cons_eq_some_iff {before rest : List Char} {first : Char} {chain : Chain} :
    at? before (first :: rest) = some chain ↔
      atWordStart before = true ∧ isAsciiUpper first = true ∧
        membersAt (rest.dropWhile isAsciiAlphanumeric) ≠ [] ∧
        (placeAt before first rest (membersAt (rest.dropWhile isAsciiAlphanumeric))).chain =
          chain := by
  simp only [at?, Bool.and_eq_true]
  split
  · next starts =>
      split
      · next noMembers => simp [noMembers]
      · next members nonempty =>
          have there : membersAt (rest.dropWhile isAsciiAlphanumeric) ≠ [] := nonempty
          simp [starts, there, placeAt, Place.chain]
  · next notStarts => simp [← and_assoc, notStarts]

theorem exists_place_of_at? {before text : List Char} {chain : Chain}
    (found : at? before text = some chain) :
    ∃ place : Place, place.before = before.reverse ∧ place.line = before.reverse ++ text ∧
      place.Fits ∧ place.chain = chain := by
  cases text with
  | nil => simp [at?] at found
  | cons first rest =>
      obtain ⟨starts, isUpper, nonempty, sameChain⟩ := at?_cons_eq_some_iff.mp found
      generalize members : membersAt (rest.dropWhile isAsciiAlphanumeric) = read
        at nonempty sameChain
      have fits : (placeAt before first rest read).Fits := by
        refine ⟨?_, ?_, nonempty, names_of_membersAt members⟩
        · simpa [placeAt] using atWordStart_iff.mp starts
        · refine ⟨first, rest.takeWhile isAsciiAlphanumeric, by simp [placeAt], isUpper, ?_⟩
          exact fun character => List.all_eq_true.mp List.all_takeWhile character
      refine ⟨placeAt before first rest read, rfl, ?_, fits, sameChain⟩
      -- The base and the members are the start of the text.
      obtain ⟨behind, split⟩ := exists_rest_of_membersAt members nonempty
      have written : first :: rest = (placeAt before first rest read).text ++ behind := by
        rw [fits.text_eq]
        calc first :: rest
            = first :: (rest.takeWhile isAsciiAlphanumeric ++
                rest.dropWhile isAsciiAlphanumeric) := by
              rw [List.takeWhile_append_dropWhile]
          _ = _ := by
              rw [split]
              simp [placeAt]
      have left : (placeAt before first rest read).behind = behind := by
        change (first :: rest).drop (placeAt before first rest read).text.length = behind
        rw [written, List.drop_left]
      rw [Place.line, left, ← written]
      rfl

/-- Where the pattern fits, a chain is found that is at least as long. -/
theorem Place.Fits.exists_at? {place : Place} (fits : place.Fits) :
    ∃ chain, at? place.before.reverse (place.text ++ place.behind) = some chain ∧
      place.text.length ≤ chain.path.length := by
  obtain ⟨first, rest, base, isUpper, inside⟩ := fits.base
  rw [String.toList_ofList] at base
  obtain ⟨read, isRead, nonempty, longer⟩ := exists_membersAt fits.members fits.names place.behind
  generalize goesOn : '.' :: (['.'].intercalate place.members ++ place.behind) = behindBase
    at isRead
  have stops : ∀ character, behindBase.head? = some character →
      isAsciiAlphanumeric character = false := by
    rw [← goesOn]
    rintro character ⟨⟩
    decide
  have starts : atWordStart place.before.reverse = true :=
    atWordStart_iff.mpr (by simpa using fits.wordStart)
  have written : place.text ++ place.behind = first :: (rest ++ behindBase) := by
    rw [fits.text_eq, base, ← goesOn]
    simp
  have members : membersAt ((rest ++ behindBase).dropWhile isAsciiAlphanumeric) = read := by
    rw [dropWhile_append inside stops, isRead]
  rw [written]
  refine ⟨_, at?_cons_eq_some_iff.mpr ⟨starts, isUpper, members ▸ nonempty, rfl⟩, ?_⟩
  rw [members, fits.text_eq, base, Chain.path, Chain.segments]
  cases read with
  | nil => exact absurd rfl nonempty
  | cons member more =>
      simp only [Place.chain, placeAt, intercalate_cons_cons, takeWhile_append inside stops,
        List.length_append, List.length_cons] at longer ⊢
      omega

namespace Place

theorem split_of_start_eq {place : Place} {before text : List Char}
    (sameLine : place.line = before ++ text) (sameStart : place.start = before.length) :
    place.before = before ∧ place.text ++ place.behind = text :=
  List.append_inj sameLine sameStart

theorem stop_le_length (place : Place) : place.stop ≤ place.line.length := by
  simp only [stop, start, line, List.length_append]
  omega

/-- Whether the chain at a place is a member of something else. -/
def followsDot (place : Place) : Bool :=
  place.before.getLast? == some '.'

theorem leftmostFrom_nil {line : List Char} {position : Nat} (passed : line.length ≤ position) :
    LeftmostFrom line position [] := by
  refine ⟨by simp, by simp, .nil, ?_⟩
  rintro other rfl fits later
  have within := other.stop_le_length
  have nonempty := fits.start_lt_stop
  omega

/-- Where no chain is found, the leftmost places are those behind. -/
theorem LeftmostFrom.skip {before rest : List Char} {character : Char} {places : List Place}
    (behind : LeftmostFrom (before.reverse ++ character :: rest) (before.length + 1) places)
    (nothing : at? before (character :: rest) = none) :
    LeftmostFrom (before.reverse ++ character :: rest) before.length places := by
  refine ⟨?_, behind.longest, behind.apart, ?_⟩
  · intro place listed
    obtain ⟨sameLine, fits, later⟩ := behind.fits place listed
    exact ⟨sameLine, fits, by omega⟩
  · intro other sameLine fits later
    rcases Nat.lt_or_eq_of_le later with behindHere | here
    · exact behind.leftmost other sameLine fits behindHere
    · obtain ⟨sameBefore, sameText⟩ := split_of_start_eq sameLine (by simp [← here])
      obtain ⟨chain, found, -⟩ := fits.exists_at?
      rw [sameBefore, List.reverse_reverse, sameText, nothing] at found
      contradiction

/-- Where a chain is found, its place is the first one, and the others are those behind it. -/
theorem LeftmostFrom.take {before text : List Char} {place : Place} {places : List Place}
    (behind : LeftmostFrom (before.reverse ++ text) place.stop places)
    (found : at? before text = some place.chain) (sameBefore : place.before = before.reverse)
    (sameLine : place.line = before.reverse ++ text) (fits : place.Fits) :
    LeftmostFrom (before.reverse ++ text) before.length (place :: places) := by
  have start : place.start = before.length := by simp [Place.start, sameBefore]
  have nonempty := fits.start_lt_stop
  refine ⟨?_, ?_, ?_, ?_⟩
  · refine List.forall_mem_cons.mpr ⟨⟨sameLine, fits, by omega⟩, fun other listed => ?_⟩
    obtain ⟨otherLine, otherFits, later⟩ := behind.fits other listed
    exact ⟨otherLine, otherFits, by omega⟩
  · refine List.forall_mem_cons.mpr ⟨fun other otherLine otherFits sameStart => ?_, behind.longest⟩
    obtain ⟨otherBefore, sameText⟩ := split_of_start_eq otherLine (by simp [sameStart, start])
    obtain ⟨chain, otherFound, longer⟩ := otherFits.exists_at?
    rw [otherBefore, List.reverse_reverse, sameText, found, Option.some.injEq] at otherFound
    have length : place.text.length = chain.path.length := by rw [← otherFound]; rfl
    simp only [stop, sameStart]
    omega
  · exact List.pairwise_cons.mpr ⟨fun other listed => (behind.fits other listed).2.2, behind.apart⟩
  · intro other otherLine otherFits later
    by_cases inside : other.start < place.stop
    · exact ⟨place, List.mem_cons_self, by omega, inside⟩
    · obtain ⟨taken, listed, covers⟩ :=
        behind.leftmost other otherLine otherFits (Nat.le_of_not_lt inside)
      exact ⟨taken, List.mem_cons_of_mem _ listed, covers⟩

theorem Fits.not_mem {place : Place} (fits : place.Fits) :
    ∀ segment ∈ place.base :: place.members, '.' ∉ segment := by
  obtain ⟨first, rest, base, isUpper, inside⟩ := fits.base
  rw [String.toList_ofList] at base
  refine List.forall_mem_cons.mpr ⟨?_, fun member listed =>
    not_mem_of_isMemberCharacter (fits.names member listed).2⟩
  apply not_mem_of_isMemberCharacter
  rw [base]
  refine List.forall_mem_cons.mpr ⟨?_, fun character listed => ?_⟩
  · simp [isMemberCharacter, isAsciiAlphanumeric, isAsciiLetter, isUpper]
  · simp [isMemberCharacter, inside character listed]

theorem segments_eq_of_text_eq {place other : Place} (fits : place.Fits) (otherFits : other.Fits)
    (sameText : place.text = other.text) :
    place.base = other.base ∧ place.members = other.members := by
  have split := pieces_intercalate (by simp) fits.not_mem
  have otherSplit := pieces_intercalate (by simp) otherFits.not_mem
  rw [← text, sameText, text, otherSplit] at split
  exact ⟨(List.cons.inj split).1.symm, (List.cons.inj split).2.symm⟩

theorem eq_of_start_eq_of_stop_eq {place other : Place} (fits : place.Fits)
    (otherFits : other.Fits) (sameLine : place.line = other.line)
    (sameStart : place.start = other.start) (sameStop : place.stop = other.stop) :
    place = other := by
  obtain ⟨sameBefore, sameRest⟩ := List.append_inj sameLine sameStart
  have sameLength : place.text.length = other.text.length := by
    simp only [stop, sameStart] at sameStop
    omega
  obtain ⟨sameText, sameBehind⟩ := List.append_inj sameRest sameLength
  obtain ⟨sameBase, sameMembers⟩ := segments_eq_of_text_eq fits otherFits sameText
  cases place
  cases other
  simp_all

theorem LeftmostFrom.start_le {line : List Char} {position : Nat} {place other : Place}
    {places : List Place} (leftmost : LeftmostFrom line position (place :: places))
    (onLine : other.line = line) (fits : other.Fits) (later : position ≤ other.start) :
    place.start ≤ other.start := by
  obtain ⟨taken, listed, before, -⟩ := leftmost.leftmost other onLine fits later
  rcases List.mem_cons.mp listed with rfl | behind
  · exact before
  · have apart := (List.pairwise_cons.mp leftmost.apart).1 taken behind
    have nonempty := (leftmost.fits place List.mem_cons_self).2.1.start_lt_stop
    omega

theorem LeftmostFrom.tail {line : List Char} {position : Nat} {place : Place}
    {places : List Place} (leftmost : LeftmostFrom line position (place :: places)) :
    LeftmostFrom line place.stop places := by
  obtain ⟨apart, rest⟩ := List.pairwise_cons.mp leftmost.apart
  obtain ⟨-, fits, later⟩ := leftmost.fits place List.mem_cons_self
  refine ⟨?_, ?_, rest, ?_⟩
  · intro other listed
    obtain ⟨onLine, otherFits, -⟩ := leftmost.fits other (List.mem_cons_of_mem _ listed)
    exact ⟨onLine, otherFits, apart other listed⟩
  · exact fun other listed => leftmost.longest other (List.mem_cons_of_mem _ listed)
  · intro other onLine otherFits behind
    have nonempty := fits.start_lt_stop
    obtain ⟨taken, listed, before, inside⟩ := leftmost.leftmost other onLine otherFits (by omega)
    rcases List.mem_cons.mp listed with rfl | tail
    · omega
    · exact ⟨taken, tail, before, inside⟩

/-- A line has one list of leftmost places. -/
theorem LeftmostFrom.unique {line : List Char} {position : Nat} {places others : List Place}
    (leftmost : LeftmostFrom line position places)
    (otherLeftmost : LeftmostFrom line position others) : places = others := by
  induction places generalizing position others with
  | nil =>
      cases others with
      | nil => rfl
      | cons other more =>
          obtain ⟨onLine, fits, later⟩ := otherLeftmost.fits other List.mem_cons_self
          obtain ⟨_, listed, -⟩ := leftmost.leftmost other onLine fits later
          simp at listed
  | cons place rest inductionHypothesis =>
      obtain ⟨onLine, fits, later⟩ := leftmost.fits place List.mem_cons_self
      cases others with
      | nil =>
          obtain ⟨_, listed, -⟩ := otherLeftmost.leftmost place onLine fits later
          simp at listed
      | cons other more =>
          obtain ⟨otherLine, otherFits, otherLater⟩ := otherLeftmost.fits other List.mem_cons_self
          have sameStart : place.start = other.start :=
            Nat.le_antisymm (leftmost.start_le otherLine otherFits otherLater)
              (otherLeftmost.start_le onLine fits later)
          have sameStop : place.stop = other.stop :=
            Nat.le_antisymm
              (otherLeftmost.longest other List.mem_cons_self place onLine fits sameStart)
              (leftmost.longest place List.mem_cons_self other otherLine otherFits sameStart.symm)
          obtain rfl := eq_of_start_eq_of_stop_eq fits otherFits (onLine.trans otherLine.symm)
            sameStart sameStop
          rw [inductionHypothesis leftmost.tail otherLeftmost.tail]

end Place

theorem exists_split_of_at? {before text : List Char} {chain : Chain}
    (found : at? before text = some chain) :
    ∃ first tail more, text = first :: (tail ++ '.' :: more) ∧ chain.base = first :: tail ∧
      isAsciiUpper first = true ∧
      (∀ character ∈ tail, isAsciiAlphanumeric character = true) ∧
      ∀ previous, before.head? = some previous → isWord previous = false := by
  obtain ⟨place, sameBefore, sameLine, fits, rfl⟩ := exists_place_of_at? found
  obtain ⟨first, tail, base, isUpper, inside⟩ := fits.base
  rw [String.toList_ofList] at base
  have start : place.start = before.reverse.length := by rw [Place.start, sameBefore]
  obtain ⟨-, split⟩ := Place.split_of_start_eq sameLine start
  refine ⟨first, tail, ['.'].intercalate place.members ++ place.behind, ?_, base, isUpper, inside,
    ?_⟩
  · rw [← split, fits.text_eq, base]
    simp
  · intro previous last
    exact fits.wordStart previous (by simpa [sameBefore] using last)

/-- The scanner takes the leftmost places from where it stands, once it has skipped what is left
of a chain already taken. -/
theorem exists_leftmostFrom_scan (before : List Char) (skip : Nat) (text : List Char) :
    ∃ places, Place.LeftmostFrom (before.reverse ++ text) (before.length + skip) places ∧
      scan before skip text = (places.filter fun place => !place.followsDot).map Place.chain := by
  induction text generalizing before skip with
  | nil => exact ⟨[], Place.leftmostFrom_nil (by simp), by simp [scan]⟩
  | cons character rest inductionHypothesis =>
      have sameLine :
          (character :: before).reverse ++ rest = before.reverse ++ character :: rest := by
        simp
      cases skip with
      | succ skip =>
          obtain ⟨places, leftmost, scanned⟩ := inductionHypothesis (character :: before) skip
          refine ⟨places, ?_, by rw [scan, scanned]⟩
          rw [sameLine, List.length_cons] at leftmost
          rwa [show before.length + (skip + 1) = before.length + 1 + skip by omega]
      | zero =>
          cases found : at? before (character :: rest) with
          | none =>
              obtain ⟨places, leftmost, scanned⟩ := inductionHypothesis (character :: before) 0
              rw [sameLine, List.length_cons] at leftmost
              refine ⟨places, leftmost.skip found, ?_⟩
              simp only [scan, found]
              exact scanned
          | some chain =>
              obtain ⟨place, sameBefore, onLine, fits, rfl⟩ := exists_place_of_at? found
              obtain ⟨places, leftmost, scanned⟩ :=
                inductionHypothesis (character :: before) (place.chain.path.length - 1)
              have stop : before.length + 1 + (place.chain.path.length - 1) = place.stop := by
                have nonempty := fits.start_lt_stop
                have length : place.chain.path.length = place.text.length := rfl
                simp only [Place.stop, Place.start, sameBefore, List.length_reverse] at nonempty ⊢
                omega
              rw [sameLine, List.length_cons, stop] at leftmost
              refine ⟨place :: places, leftmost.take found sameBefore onLine fits, ?_⟩
              have dot : place.followsDot = decide (before.head? = some '.') := by
                rw [Bool.eq_iff_iff]
                simp [Place.followsDot, sameBefore]
              simp only [scan, found, scanned, List.filter_cons, dot]
              split <;> simp_all

/-- The chains of a line are those at its leftmost places, except behind a dot. -/
theorem exists_places (line : List Char) :
    ∃ places, (∀ found, Place.LeftmostFrom line 0 found ↔ found = places) ∧
      ofLine line = (places.filter fun place => !place.followsDot).map Place.chain := by
  obtain ⟨places, leftmost, scanned⟩ := exists_leftmostFrom_scan [] 0 line
  refine ⟨places, fun found => ⟨fun other => other.unique leftmost, ?_⟩, scanned⟩
  rintro rfl
  exact leftmost

theorem exists_fits_of_mem_ofLine {line : List Char} {chain : Chain}
    (listed : chain ∈ ofLine line) : ∃ place : Place, place.Fits ∧ place.chain = chain := by
  obtain ⟨places, leftmost, scanned⟩ := exists_places line
  rw [scanned] at listed
  obtain ⟨place, kept, rfl⟩ := List.mem_map.mp listed
  exact ⟨place, (((leftmost places).mpr rfl).fits place (List.mem_filter.mp kept).1).2.1, rfl⟩

end Chain

end AmbientStubs
