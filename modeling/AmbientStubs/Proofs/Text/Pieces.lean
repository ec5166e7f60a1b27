import AmbientStubs.Text.Line

/-!
Splitting gives back what was joined: the segments of a dotted path are the names it was
made of, and the lines of a text are the lines it was made of.
-/

namespace AmbientStubs.Text

def IsIdentifier (text : String) : Prop :=
  text.toList ≠ [] ∧ ∀ character ∈ text.toList, isIdentifier character = true

instance (text : String) : Decidable (IsIdentifier text) :=
  decidable_of_iff (text.toList ≠ [] ∧ text.toList.all isIdentifier = true)
    (by rw [IsIdentifier, List.all_eq_true])

def SingleLine (text : String) : Prop :=
  '\n' ∉ text.toList

instance (text : String) : Decidable (SingleLine text) :=
  inferInstanceAs (Decidable ('\n' ∉ text.toList))

theorem IsIdentifier.not_mem {text : String} (identifier : IsIdentifier text)
    {character : Char} (foreign : isIdentifier character = false) :
    character ∉ text.toList := by
  intro membership
  have belongs := identifier.2 character membership
  simp [foreign] at belongs

theorem IsIdentifier.singleLine {text : String} (identifier : IsIdentifier text) :
    SingleLine text :=
  identifier.not_mem (by decide)

theorem singleLine_append {first second : String} :
    SingleLine (first ++ second) ↔ SingleLine first ∧ SingleLine second := by
  simp [SingleLine]

theorem singleLine_intercalate {separator : String} (separating : SingleLine separator)
    {parts : List String} :
    SingleLine (separator.intercalate parts) ↔ ∀ part ∈ parts, SingleLine part := by
  induction parts with
  | nil => simp [SingleLine]
  | cons part rest inductionHypothesis =>
      rw [List.forall_mem_cons]
      cases rest with
      | nil => simp
      | cons next more =>
          simp only [String.intercalate_cons_cons, singleLine_append, inductionHypothesis,
            separating, and_true]

theorem literal?_append (word : String) (rest : List Char) :
    literal? word (word.toList ++ rest) = some rest :=
  literal?_eq_some_iff.mpr rfl

theorem run?_append {belongs : Char → Bool} {found rest : List Char} {next : Char}
    (nonempty : found ≠ []) (inside : ∀ character ∈ found, belongs character = true)
    (outside : belongs next = false) :
    run? belongs (found ++ next :: rest) = some (found, next :: rest) := by
  have taken : (found ++ next :: rest).takeWhile belongs = found := by
    rw [List.takeWhile_append_of_pos inside]
    simp [outside]
  have dropped : (found ++ next :: rest).dropWhile belongs = next :: rest := by
    rw [List.dropWhile_append_of_pos inside]
    simp [outside]
  unfold run?
  rw [taken, dropped]
  cases found with
  | nil => exact absurd rfl nonempty
  | cons first more => rfl

/-- A text has one longest run of identifier characters at its start. -/
theorem eq_of_append_eq_append {first second : String} {next following : Char}
    {rest more : List Char} (firstWord : IsIdentifier first) (secondWord : IsIdentifier second)
    (firstEnds : isIdentifier next = false) (secondEnds : isIdentifier following = false)
    (same : first.toList ++ next :: rest = second.toList ++ following :: more) :
    first = second ∧ next = following := by
  have firstRun : run? isIdentifier (first.toList ++ next :: rest) =
      some (first.toList, next :: rest) :=
    run?_append firstWord.1 firstWord.2 firstEnds
  have secondRun : run? isIdentifier (second.toList ++ following :: more) =
      some (second.toList, following :: more) :=
    run?_append secondWord.1 secondWord.2 secondEnds
  rw [same, secondRun, Option.some.injEq, Prod.mk.injEq, List.cons.injEq] at firstRun
  exact ⟨String.toList_inj.mp firstRun.1.symm, firstRun.2.1.symm⟩

theorem pieces_of_not_mem {separator : Char} {text : List Char} (absent : separator ∉ text) :
    pieces separator text = [text] := by
  induction text with
  | nil => rfl
  | cons character rest inductionHypothesis =>
      simp only [List.mem_cons, not_or] at absent
      simp [pieces, Ne.symm absent.1, inductionHypothesis absent.2]

theorem pieces_append_cons {separator : Char} {text : List Char} (absent : separator ∉ text)
    (rest : List Char) :
    pieces separator (text ++ separator :: rest) = text :: pieces separator rest := by
  induction text with
  | nil => simp [pieces]
  | cons character text inductionHypothesis =>
      simp only [List.mem_cons, not_or] at absent
      simp [pieces, Ne.symm absent.1, inductionHypothesis absent.2]

theorem pieces_append (separator : Char) (text rest : List Char) :
    pieces separator (text ++ separator :: rest) =
      pieces separator text ++ pieces separator rest := by
  induction text with
  | nil => simp [pieces]
  | cons character text inductionHypothesis =>
      rw [List.cons_append, pieces, pieces, inductionHypothesis]
      split
      · rfl
      · cases split : pieces separator text with
        | nil => exact absurd split (pieces_ne_nil separator text)
        | cons piece more => rfl

theorem not_mem_of_mem_pieces {separator : Char} {text piece : List Char}
    (membership : piece ∈ pieces separator text) : separator ∉ piece := by
  induction text generalizing piece with
  | nil => simp_all [pieces]
  | cons character rest inductionHypothesis =>
      simp only [pieces] at membership
      split at membership
      · rcases List.mem_cons.mp membership with rfl | later
        · simp
        · exact inductionHypothesis later
      · next different =>
          split at membership
          · next empty => exact absurd empty (pieces_ne_nil separator rest)
          · next first more split =>
              rw [split] at inductionHypothesis
              rcases List.mem_cons.mp membership with rfl | later
              · have absent := inductionHypothesis (List.mem_cons_self (l := more))
                simp [Ne.symm different, absent]
              · exact inductionHypothesis (List.mem_cons_of_mem first later)

theorem intercalate_cons_cons (separator : Char) (first second : List Char)
    (rest : List (List Char)) :
    [separator].intercalate (first :: second :: rest) =
      first ++ separator :: [separator].intercalate (second :: rest) := by
  simp [List.intercalate]

theorem intercalate_append (separator : Char) {first second : List (List Char)}
    (nonempty : first ≠ []) (otherNonempty : second ≠ []) :
    [separator].intercalate (first ++ second) =
      [separator].intercalate first ++ separator :: [separator].intercalate second := by
  induction first with
  | nil => exact absurd rfl nonempty
  | cons part rest inductionHypothesis =>
      cases rest with
      | nil =>
          cases second with
          | nil => exact absurd rfl otherNonempty
          | cons next more => simp [List.intercalate]
      | cons next more =>
          have step := inductionHypothesis (by simp)
          simp only [List.cons_append] at step ⊢
          rw [intercalate_cons_cons, step, intercalate_cons_cons]
          simp

theorem length_le_intercalate (separator : Char) (part : List Char) (parts : List (List Char)) :
    part.length ≤ ([separator].intercalate (part :: parts)).length := by
  cases parts with
  | nil => simp [List.intercalate]
  | cons next more => simp

theorem infix_intercalate {separator : Char} {part : List Char} {parts : List (List Char)}
    (membership : part ∈ parts) : part <:+: [separator].intercalate parts := by
  induction parts with
  | nil => simp at membership
  | cons first rest inductionHypothesis =>
      cases rest with
      | nil => simp_all [List.intercalate]
      | cons next more =>
          rw [intercalate_cons_cons]
          rcases List.mem_cons.mp membership with rfl | later
          · exact (List.prefix_append _ _).isInfix
          · exact (inductionHypothesis later).trans
              ((List.suffix_cons _ _).trans (List.suffix_append _ _)).isInfix

theorem infix_of_mem_pieces {separator : Char} {text piece : List Char}
    (membership : piece ∈ pieces separator text) : piece <:+: text := by
  have joined : piece <:+: [separator].intercalate (pieces separator text) :=
    infix_intercalate membership
  rwa [intercalate_pieces] at joined

theorem pieces_intercalate {separator : Char} {parts : List (List Char)} (nonempty : parts ≠ [])
    (plain : ∀ part ∈ parts, separator ∉ part) :
    pieces separator ([separator].intercalate parts) = parts := by
  induction parts with
  | nil => exact absurd rfl nonempty
  | cons part rest inductionHypothesis =>
      obtain ⟨plainPart, plainRest⟩ := List.forall_mem_cons.mp plain
      cases rest with
      | nil => simpa [List.intercalate] using pieces_of_not_mem plainPart
      | cons next more =>
          rw [intercalate_cons_cons, pieces_append_cons plainPart,
            inductionHypothesis (by simp) plainRest]

/-- A text written line by line has these lines, and an empty one after the last break. -/
theorem splitText_lines {lines : List String} (single : ∀ line ∈ lines, SingleLine line) :
    splitText '\n' (String.join (lines.map (· ++ "\n"))) = lines ++ [""] := by
  induction lines with
  | nil => rfl
  | cons line rest inductionHypothesis =>
      have first : '\n' ∉ line.toList := single line List.mem_cons_self
      have others : ∀ line ∈ rest, SingleLine line := fun line membership =>
        single line (List.mem_cons_of_mem _ membership)
      have split := inductionHypothesis others
      simp only [splitText, String.toList_join] at split ⊢
      simp [pieces_append_cons first, split]

@[simp]
theorem dotted_singleton (name : String) : dotted [name] = name := by
  simp [dotted]

@[simp]
theorem toList_dotted (parts : List String) :
    (dotted parts).toList = ['.'].intercalate (parts.map String.toList) := by
  simp [dotted, String.toList_intercalate]

theorem dotted_cons_cons (first second : String) (rest : List String) :
    dotted (first :: second :: rest) = dotted ((first ++ "." ++ second) :: rest) := by
  apply String.toList_inj.mp
  cases rest <;> simp [List.intercalate, List.intersperse]

theorem singleLine_dotted {parts : List String} :
    SingleLine (dotted parts) ↔ ∀ part ∈ parts, SingleLine part :=
  singleLine_intercalate (by decide)

theorem dotted_segments (path : String) : dotted (segments path) = path := by
  apply String.toList_inj.mp
  simp [segments, splitText, List.map_map, Function.comp_def, intercalate_pieces]

theorem segments_of_not_mem {name : String} (plain : '.' ∉ name.toList) :
    segments name = [name] := by
  simp [segments, splitText, pieces_of_not_mem plain]

theorem segments_append {parent name : String} (plain : '.' ∉ name.toList) :
    segments (parent ++ "." ++ name) = segments parent ++ [name] := by
  have joined : (parent ++ "." ++ name).toList = parent.toList ++ '.' :: name.toList := by simp
  rw [segments, splitText, joined, pieces_append, List.map_append, pieces_of_not_mem plain]
  simp [segments, splitText]

theorem segments_ne_nil (path : String) : segments path ≠ [] := by
  simp [segments, splitText, pieces_ne_nil]

theorem not_mem_of_mem_segments {path segment : String} (membership : segment ∈ segments path) :
    '.' ∉ segment.toList := by
  obtain ⟨piece, listed, rfl⟩ := List.mem_map.mp membership
  rw [String.toList_ofList]
  exact not_mem_of_mem_pieces listed

/-- The segments of a path made of names without dots are these names. -/
theorem segments_dotted {parts : List String} (nonempty : parts ≠ [])
    (plain : ∀ part ∈ parts, '.' ∉ part.toList) : segments (dotted parts) = parts := by
  have split : pieces '.' (['.'].intercalate (parts.map String.toList)) =
      parts.map String.toList :=
    pieces_intercalate (by simpa using nonempty) (by simpa using plain)
  simp [segments, splitText, split, List.map_map, Function.comp_def]

theorem segments_dotted_cons {root : String} {members : List String}
    (plainRoot : '.' ∉ root.toList) (plain : ∀ member ∈ members, '.' ∉ member.toList) :
    segments (dotted (root :: members)) = root :: members := by
  apply segments_dotted (by simp)
  rw [List.forall_mem_cons]
  exact ⟨plainRoot, plain⟩

/-- A path goes on behind another one with a dot where its segments go on. -/
theorem startsWith_dot_iff {path start : String} :
    startsWith path (start ++ ".") = true ↔
      ∃ further, further ≠ [] ∧ segments path = segments start ++ further := by
  rw [startsWith, List.isPrefixOf_iff_prefix]
  constructor
  · rintro ⟨rest, split⟩
    have joined : path.toList = start.toList ++ '.' :: rest := by simpa using split.symm
    refine ⟨(pieces '.' rest).map String.ofList, by simp [pieces_ne_nil], ?_⟩
    simp [segments, splitText, joined, pieces_append]
  · rintro ⟨further, nonempty, split⟩
    refine ⟨(dotted further).toList, ?_⟩
    have joined := congrArg String.toList (dotted_segments path)
    rw [split, toList_dotted, List.map_append, intercalate_append '.' (by simp [segments_ne_nil])
      (by simpa using nonempty), ← toList_dotted, ← toList_dotted, dotted_segments] at joined
    simpa using joined

end AmbientStubs.Text
