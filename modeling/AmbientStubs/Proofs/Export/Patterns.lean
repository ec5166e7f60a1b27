import Mathlib.Computability.Language
import AmbientStubs.Proofs.Export.Forms

/-!
The forms of exported declarations as patterns.  A pattern is a regular language, and it matches a
line that starts with one of its texts, however the parts of the text are chosen.  The readers
never go back in the line, but they accept the same lines.  So the patterns exclude each other, and
the order in which they are tried makes no difference.
-/

namespace AmbientStubs.Export

open Text
open scoped Computability

section Languages

def fixed (text : String) : Language Char :=
  {text.toList}

def oneOf (belongs : Char → Bool) : Language Char :=
  {text | ∃ character, belongs character = true ∧ text = [character]}

def manyOf (belongs : Char → Bool) : Language Char :=
  (oneOf belongs)∗

def someOf (belongs : Char → Bool) : Language Char :=
  oneOf belongs * manyOf belongs

/-- A text between two characters that ends at the first closing one. -/
def enclosed (opening closing : Char) : Language Char :=
  oneOf (· == opening) * (manyOf (· != closing) * oneOf (· == closing))

def optional (language : Language Char) : Language Char :=
  1 + language

def StartsIn (language : Language Char) (line : List Char) : Prop :=
  ∃ front ∈ language, front <+: line

variable {belongs : Char → Bool} {text line : List Char} {first second : Language Char}

@[simp]
theorem mem_fixed {word : String} : text ∈ fixed word ↔ text = word.toList :=
  Iff.rfl

@[simp]
theorem mem_manyOf :
    text ∈ manyOf belongs ↔ ∀ character ∈ text, belongs character = true := by
  rw [manyOf, Language.mem_kstar]
  constructor
  · rintro ⟨parts, rfl, each⟩ character inside
    obtain ⟨part, listed, within⟩ := List.mem_flatten.mp inside
    obtain ⟨found, member, rfl⟩ := each part listed
    rwa [List.mem_singleton.mp within]
  · intro all
    refine ⟨text.map fun character => [character], (List.flatMap_singleton' text).symm,
      fun part listed => ?_⟩
    obtain ⟨character, inside, rfl⟩ := List.mem_map.mp listed
    exact ⟨character, all character inside, rfl⟩

@[simp]
theorem mem_someOf :
    text ∈ someOf belongs ↔ text ≠ [] ∧ ∀ character ∈ text, belongs character = true := by
  rw [someOf, Language.mem_mul]
  constructor
  · rintro ⟨_, ⟨character, member, rfl⟩, more, all, rfl⟩
    exact ⟨by simp, List.forall_mem_cons.mpr ⟨member, mem_manyOf.mp all⟩⟩
  · rintro ⟨nonempty, all⟩
    obtain ⟨character, more, rfl⟩ := List.exists_cons_of_ne_nil nonempty
    obtain ⟨member, rest⟩ := List.forall_mem_cons.mp all
    exact ⟨[character], ⟨character, member, rfl⟩, more, mem_manyOf.mpr rest, rfl⟩

@[simp]
theorem mem_enclosed {opening closing : Char} :
    text ∈ enclosed opening closing ↔
      ∃ inner, closing ∉ inner ∧ text = opening :: (inner ++ [closing]) := by
  rw [enclosed, Language.mem_mul]
  constructor
  · rintro ⟨_, ⟨_, sameOpening, rfl⟩, _, ⟨inner, free, _, ⟨_, sameClosing, rfl⟩, rfl⟩, rfl⟩
    obtain rfl := beq_iff_eq.mp sameOpening
    obtain rfl := beq_iff_eq.mp sameClosing
    exact ⟨inner, fun inside => by simpa using mem_manyOf.mp free _ inside, rfl⟩
  · rintro ⟨inner, free, rfl⟩
    refine ⟨_, ⟨opening, beq_self_eq_true _, rfl⟩, _, ⟨inner, mem_manyOf.mpr ?_, _,
      ⟨closing, beq_self_eq_true _, rfl⟩, rfl⟩, rfl⟩
    intro character inside
    rw [bne_iff_ne]
    rintro rfl
    exact free inside

@[simp]
theorem mem_optional : text ∈ optional first ↔ text = [] ∨ text ∈ first :=
  Iff.rfl

theorem startsIn_mul :
    StartsIn (first * second) line ↔
      ∃ front ∈ first, ∃ rest, line = front ++ rest ∧ StartsIn second rest := by
  constructor
  · rintro ⟨_, ⟨front, isFirst, behind, isSecond, rfl⟩, rest, rfl⟩
    exact ⟨front, isFirst, behind ++ rest, List.append_assoc .., behind, isSecond,
      List.prefix_append _ _⟩
  · rintro ⟨front, isFirst, _, rfl, behind, isSecond, rest, rfl⟩
    exact ⟨front ++ behind, Language.append_mem_mul isFirst isSecond, rest,
      List.append_assoc ..⟩

theorem startsIn_oneOf :
    StartsIn (oneOf belongs) line ↔
      ∃ character, belongs character = true ∧ line.head? = some character := by
  constructor
  · rintro ⟨_, ⟨character, member, rfl⟩, rest, rfl⟩
    exact ⟨character, member, rfl⟩
  · rintro ⟨character, member, head⟩
    obtain ⟨rest, rfl⟩ := List.head?_eq_some_iff.mp head
    exact ⟨[character], ⟨character, member, rfl⟩, rest, rfl⟩

end Languages

section Patterns

def blanks : Language Char := someOf isBlank

def spaces : Language Char := manyOf isBlank

def word : Language Char := someOf isWord

def modifiers (words : List String) : Language Char :=
  (words.map fun word => optional (fixed word * blanks)).prod

def typeParameterPattern : Language Char :=
  spaces * optional (enclosed '<' '>')

def decorator : Language Char :=
  fixed "@" * (word * (optional (enclosed '(' ')') * blanks))

def declaration (words : List String) (keyword : String) (behind : Language Char) :
    Language Char :=
  fixed "export" * (blanks * (modifiers words * (fixed keyword * behind)))

/-- How a line that declares something of a kind starts. -/
def pattern : SymbolKind → Language Char
  | .classType =>
      declaration ["default", "declare", "abstract"] "class" (blanks * (word * typeParameterPattern))
  | .interfaceType =>
      declaration ["default", "declare"] "interface" (blanks * (word * typeParameterPattern))
  | .aliasType =>
      declaration ["default", "declare"] "type"
        (blanks * (word * (typeParameterPattern * (spaces * oneOf (· == '=')))))
  | .function =>
      declaration ["default", "declare", "async"] "function"
        (spaces * optional (fixed "*") * spaces *
          (word * (typeParameterPattern * (spaces * oneOf (· == '(')))))
  | .constant =>
      declaration ["default", "declare"] "const"
        (blanks * (word * (spaces * oneOf fun sign => sign == '=' || sign == ':')))
  | .enumType => declaration ["default", "declare", "const"] "enum" (blanks * word)
  | .structType => decorator∗ * declaration ["default"] "struct" (blanks * word)
  | .namespaceScope => 0

/-- A pattern matches a line at its start. -/
def Matches (kind : SymbolKind) (line : List Char) : Prop :=
  StartsIn (pattern kind) line

end Patterns

variable {kind : SymbolKind} {line text rest : List Char}

@[simp]
theorem mem_blanks : text ∈ blanks ↔ IsBlanks text :=
  mem_someOf

@[simp]
theorem mem_spaces : text ∈ spaces ↔ AllBlank text :=
  mem_manyOf

@[simp]
theorem mem_word : text ∈ word ↔ IsWordRun text :=
  mem_someOf

theorem mem_modifiers {words : List String} : text ∈ modifiers words ↔ Modifiers words text := by
  induction words generalizing text with
  | nil =>
      constructor
      · rintro rfl
        exact .nil
      · intro written
        cases written
        rfl
  | cons word words inductionHypothesis =>
      rw [modifiers, List.map_cons, List.prod_cons, Language.mem_mul]
      constructor
      · rintro ⟨front, absent | present, behind, written, rfl⟩
        · obtain rfl := absent
          exact .absent (inductionHypothesis.mp written)
        · obtain ⟨_, rfl, blank, isBlank, rfl⟩ := present
          rw [List.append_assoc]
          exact .present (mem_blanks.mp isBlank) (inductionHypothesis.mp written)
      · intro written
        cases written with
        | absent written =>
            exact ⟨[], .inl rfl, text, inductionHypothesis.mpr written, rfl⟩
        | @present _ _ blank behind isBlank written =>
            refine ⟨word.toList ++ blank, .inr ?_, behind, inductionHypothesis.mpr written,
              List.append_assoc ..⟩
            exact Language.append_mem_mul rfl (mem_blanks.mpr isBlank)

theorem startsIn_declaration {words : List String} {keyword : String} {behind : Language Char}
    (apart : (words ++ [keyword]).Pairwise Incomparable)
    (solid : ∀ word ∈ words ++ [keyword], word.toList ≠ [] ∧ Solid word.toList) :
    StartsIn (declaration words keyword behind) line ↔
      ∃ rest, openedBy? words keyword line = some rest ∧ StartsIn behind rest := by
  simp only [declaration, startsIn_mul, mem_fixed, mem_blanks, mem_modifiers,
    openedBy?_eq_some_iff apart solid]
  constructor
  · rintro ⟨_, rfl, _, rfl, blanks, blank, _, rfl, modifiers, written, _, rfl, _, rfl, rest, rfl,
      starts⟩
    exact ⟨rest, ⟨blanks, modifiers, blank, written, rfl⟩, starts⟩
  · rintro ⟨rest, ⟨blanks, modifiers, blank, written, rfl⟩, starts⟩
    exact ⟨_, rfl, _, rfl, blanks, blank, _, rfl, modifiers, written, _, rfl, _, rfl, rest, rfl,
      starts⟩

section Ending

def gapPattern : SymbolKind → Language Char
  | .function => spaces * optional (fixed "*") * spaces
  | _ => blanks

def endingPattern : SymbolKind → Language Char
  | .aliasType => typeParameterPattern * (spaces * oneOf (· == '='))
  | .function => typeParameterPattern * (spaces * oneOf (· == '('))
  | .constant => spaces * oneOf fun sign => sign == '=' || sign == ':'
  | _ => typeParameterPattern

theorem pattern_of_mem_signedKinds (signed : kind ∈ signedKinds) :
    pattern kind = declaration (modifiersOf kind) kind.keyword
      (gapPattern kind * (word * endingPattern kind)) := by
  simp only [signedKinds, List.mem_cons, List.not_mem_nil, or_false] at signed
  rcases signed with rfl | rfl | rfl | rfl | rfl <;> rfl

theorem mem_gapPattern_function : text ∈ gapPattern .function ↔ Gap .function text := by
  simp only [gapPattern, Language.mem_mul, mem_optional, mem_fixed, mem_spaces]
  constructor
  · rintro ⟨_, ⟨before, blankBefore, star, rfl | rfl, rfl⟩, behind, blankBehind, rfl⟩
    · rw [List.append_nil]
      exact .plain (List.forall_mem_append.mpr ⟨blankBefore, blankBehind⟩)
    · rw [List.append_assoc]
      exact .generator blankBefore blankBehind
  · intro written
    cases written with
    | blanks noFunction => exact absurd rfl noFunction
    | plain blank =>
        exact ⟨_, ⟨[], nofun, [], .inl rfl, rfl⟩, text, blank, rfl⟩
    | @generator before behind blankBefore blankBehind =>
        exact ⟨_, ⟨before, blankBefore, _, .inr rfl, rfl⟩, behind, blankBehind,
          List.append_assoc ..⟩

theorem mem_gapPattern : text ∈ gapPattern kind ↔ Gap kind text := by
  by_cases function : kind = .function
  · rw [function]
    exact mem_gapPattern_function
  · have plain : gapPattern kind = blanks := by
      cases kind with
      | function => exact absurd rfl function
      | _ => rfl
    rw [plain, mem_blanks]
    constructor
    · exact .blanks function
    · intro written
      cases written with
      | blanks _ blank => exact blank
      | plain | generator => exact absurd rfl function

theorem mem_typeParameterPattern_mul :
    text ∈ typeParameterPattern * spaces ↔ Parameters text := by
  simp only [typeParameterPattern, Language.mem_mul, mem_optional, mem_enclosed, mem_spaces]
  constructor
  · rintro ⟨_, ⟨before, blankBefore, _, rfl | ⟨inner, free, rfl⟩, rfl⟩, behind, blankBehind, rfl⟩
    · rw [List.append_nil]
      exact .none (List.forall_mem_append.mpr ⟨blankBefore, blankBehind⟩)
    · have written := Parameters.some blankBefore free blankBehind
      simpa using written
  · intro written
    cases written with
    | none blank => exact ⟨_, ⟨[], nofun, [], .inl rfl, rfl⟩, text, blank, rfl⟩
    | @some before inner behind blankBefore free blankBehind =>
        exact ⟨_, ⟨before, blankBefore, _, .inr ⟨inner, free, rfl⟩, rfl⟩, behind, blankBehind,
          by simp⟩

theorem startsIn_endingPattern (signed : kind ∈ signedKinds) {tail : List Char}
    (tailed : Tail kind tail) (follows : Follows kind rest) :
    StartsIn (endingPattern kind) (tail ++ rest) := by
  have bare : [] ∈ typeParameterPattern := ⟨[], mem_spaces.mpr nofun, [], .inl rfl, rfl⟩
  have signedBy {sign : Char} (parameters : Parameters tail) (head : rest.head? = some sign) :
      StartsIn (typeParameterPattern * (spaces * oneOf (· == sign))) (tail ++ rest) := by
    rw [← mul_assoc, startsIn_mul]
    exact ⟨tail, mem_typeParameterPattern_mul.mpr parameters, rest, rfl,
      startsIn_oneOf.mpr ⟨sign, beq_self_eq_true _, head⟩⟩
  cases kind with
  | classType | interfaceType => exact ⟨[], bare, List.nil_prefix⟩
  | aliasType | function => exact signedBy tailed follows
  | constant =>
      refine startsIn_mul.mpr ⟨tail, mem_spaces.mpr tailed, rest, rfl, startsIn_oneOf.mpr ?_⟩
      rcases follows with equals | colon
      · exact ⟨'=', rfl, equals⟩
      · exact ⟨':', rfl, colon⟩
  | enumType | structType | namespaceScope => simp [signedKinds] at signed

/-- A pattern may stop within a name; behind the whole name stands what has to follow. -/
theorem exists_tail_of_startsIn (signed : kind ∈ signedKinds)
    (starts : StartsIn (endingPattern kind) text) :
    ∃ more tail rest, (∀ character ∈ more, isWord character = true) ∧ Tail kind tail ∧
      Follows kind rest ∧ text = more ++ (tail ++ rest) := by
  have signedBy {sign : Char}
      (starts : StartsIn (typeParameterPattern * (spaces * oneOf (· == sign))) text) :
      ∃ tail rest, Parameters tail ∧ rest.head? = some sign ∧ text = tail ++ rest := by
    rw [← mul_assoc, startsIn_mul] at starts
    obtain ⟨tail, parameters, rest, split, starts⟩ := starts
    obtain ⟨found, same, head⟩ := startsIn_oneOf.mp starts
    obtain rfl := beq_iff_eq.mp same
    exact ⟨tail, rest, mem_typeParameterPattern_mul.mp parameters, head, split⟩
  cases kind with
  | classType | interfaceType =>
      exact ⟨text.takeWhile isWord, [], text.dropWhile isWord,
        fun _ => List.all_eq_true.mp List.all_takeWhile _, rfl,
        fun _ => eq_false_of_head?_dropWhile, List.takeWhile_append_dropWhile.symm⟩
  | aliasType | function =>
      obtain ⟨tail, rest, parameters, head, split⟩ := signedBy starts
      exact ⟨[], tail, rest, nofun, parameters, head, split⟩
  | constant =>
      obtain ⟨tail, blank, rest, split, starts⟩ := startsIn_mul.mp starts
      obtain ⟨sign, listed, head⟩ := startsIn_oneOf.mp starts
      refine ⟨[], tail, rest, nofun, mem_spaces.mp blank, ?_, split⟩
      rw [Bool.or_eq_true, beq_iff_eq, beq_iff_eq] at listed
      rcases listed with rfl | rfl
      · exact .inl head
      · exact .inr head
  | enumType | structType | namespaceScope => simp [signedKinds] at signed

theorem IsWordRun.append {name more : List Char} (run : IsWordRun name)
    (words : ∀ character ∈ more, isWord character = true) : IsWordRun (name ++ more) :=
  ⟨List.append_ne_nil_of_left_ne_nil run.1 _, List.forall_mem_append.mpr ⟨run.2, words⟩⟩

theorem isSome_namedAs?_iff (signed : kind ∈ signedKinds) :
    (namedAs? kind text).isSome ↔
      StartsIn (gapPattern kind * (word * endingPattern kind)) text := by
  rw [Option.isSome_iff_exists, startsIn_mul]
  constructor
  · rintro ⟨header, read⟩
    obtain ⟨gap, tail, rest, behind, rfl⟩ := exists_behind signed read
    refine ⟨gap, mem_gapPattern.mpr behind.gap, _, rfl, startsIn_mul.mpr ?_⟩
    exact ⟨header.name, mem_word.mpr behind.run, _, rfl,
      startsIn_endingPattern signed behind.tail behind.follows⟩
  · rintro ⟨gap, written, _, rfl, named⟩
    obtain ⟨name, run, _, rfl, ended⟩ := startsIn_mul.mp named
    obtain ⟨more, tail, rest, words, tailed, follows, rfl⟩ := exists_tail_of_startsIn signed ended
    obtain ⟨header, read, -⟩ := Behind.exists_header signed
      ⟨mem_gapPattern.mp written, (mem_word.mp run).append words, tailed, follows⟩
    exact ⟨header, by rwa [List.append_assoc] at read⟩

end Ending

theorem isSome_wordBehind?_iff : (wordBehind? text).isSome ↔ StartsIn (blanks * word) text := by
  rw [Option.isSome_iff_exists, startsIn_mul]
  constructor
  · rintro ⟨header, read⟩
    obtain ⟨_, skipped, read⟩ := Option.bind_eq_some_iff.mp read
    obtain ⟨⟨name, rest⟩, found, -⟩ := Option.map_eq_some_iff.mp read
    obtain ⟨gap, blank, -, rfl⟩ := blanks?_eq_some_iff.mp skipped
    obtain ⟨run, -, rfl⟩ := run?_isWord_iff.mp found
    exact ⟨gap, mem_blanks.mpr blank, _, rfl, name, mem_word.mpr run, List.prefix_append _ _⟩
  · rintro ⟨gap, blank, _, rfl, name, run, more, rfl⟩
    have run := mem_word.mp run
    have whole : IsWordRun (name ++ more.takeWhile isWord) :=
      run.append fun _ => List.all_eq_true.mp List.all_takeWhile _
    have found : run? isWord (name ++ more) =
        some (name ++ more.takeWhile isWord, more.dropWhile isWord) :=
      run?_isWord_iff.mpr ⟨whole, fun _ => eq_false_of_head?_dropWhile, by
        rw [List.append_assoc, List.takeWhile_append_dropWhile]⟩
    refine ⟨⟨name ++ more.takeWhile isWord, none⟩, ?_⟩
    rw [wordBehind?, blanks?_append (mem_blanks.mp blank) (run.startsSolid more), Option.bind_some,
      found, Option.map_some]

section Decorators

theorem mem_decorator {front : List Char} :
    front ∈ decorator ↔ ∃ name arguments gap, IsWordRun name ∧
      (arguments = [] ∨ arguments ∈ enclosed '(' ')') ∧ IsBlanks gap ∧
      front = '@' :: (name ++ (arguments ++ gap)) := by
  simp only [decorator, Language.mem_mul, mem_fixed, mem_word, mem_optional, mem_blanks]
  constructor
  · rintro ⟨_, rfl, _, ⟨name, run, _, ⟨arguments, shape, gap, blank, rfl⟩, rfl⟩, rfl⟩
    exact ⟨name, arguments, gap, run, shape, blank, rfl⟩
  · rintro ⟨name, arguments, gap, run, shape, blank, rfl⟩
    exact ⟨_, rfl, _, ⟨name, run, _, ⟨arguments, shape, gap, blank, rfl⟩, rfl⟩, rfl⟩

def behindArguments (text : List Char) : List Char :=
  match enclosed? '(' ')' text with
  | some (_, rest) => rest
  | none => text

theorem decorator?_eq (text : List Char) :
    decorator? text = (literal? "@" text).bind fun rest =>
      (run? isWord rest).bind fun found => blanks? (behindArguments found.2) :=
  rfl

theorem exists_arguments (text : List Char) :
    ∃ arguments, (arguments = [] ∨ arguments ∈ enclosed '(' ')') ∧
      text = arguments ++ behindArguments text := by
  rw [behindArguments]
  split
  · next inner rest read =>
      obtain ⟨free, rfl⟩ := enclosed?_eq_some_iff.mp read
      exact ⟨_, .inr (mem_enclosed.mpr ⟨inner, free, rfl⟩), by simp⟩
  · exact ⟨[], .inl rfl, rfl⟩

theorem behindArguments_append {arguments gap : List Char}
    (shape : arguments = [] ∨ arguments ∈ enclosed '(' ')') (blank : IsBlanks gap)
    (rest : List Char) :
    behindArguments (arguments ++ (gap ++ rest)) = gap ++ rest ∧
      ∀ character, (arguments ++ (gap ++ rest)).head? = some character →
        isWord character = false := by
  rw [behindArguments]
  rcases shape with rfl | bracketed
  · obtain ⟨space, more, rfl⟩ := List.exists_cons_of_ne_nil blank.1
    have isSpace := blank.2 space List.mem_cons_self
    have noBracket : space ≠ '(' := by
      rintro rfl
      exact absurd isSpace (by decide)
    simp [enclosed?, noBracket, isWord_eq_false_of_isBlank isSpace]
  · obtain ⟨inner, free, rfl⟩ := mem_enclosed.mp bracketed
    have read : enclosed? '(' ')' ('(' :: (inner ++ [')']) ++ (gap ++ rest)) =
        some (inner, gap ++ rest) :=
      enclosed?_eq_some_iff.mpr ⟨free, by simp⟩
    rw [read]
    refine ⟨rfl, fun character head => ?_⟩
    obtain rfl : '(' = character := Option.some.inj head
    decide

theorem decorator?_eq_some_iff :
    decorator? text = some rest ↔
      ∃ front ∈ decorator, StartsSolid rest ∧ text = front ++ rest := by
  rw [decorator?_eq]
  constructor
  · intro read
    obtain ⟨_, sign, read⟩ := Option.bind_eq_some_iff.mp read
    obtain ⟨⟨name, behind⟩, found, read⟩ := Option.bind_eq_some_iff.mp read
    obtain ⟨gap, blank, solid, split⟩ := blanks?_eq_some_iff.mp read
    obtain ⟨arguments, shape, whole⟩ := exists_arguments behind
    obtain ⟨run, -, rfl⟩ := run?_isWord_iff.mp found
    refine ⟨_, mem_decorator.mpr ⟨name, arguments, gap, run, shape, blank, rfl⟩, solid, ?_⟩
    rw [literal?_eq_some_iff.mp sign, whole, split]
    simp
  · rintro ⟨_, written, solid, rfl⟩
    obtain ⟨name, arguments, gap, run, shape, blank, rfl⟩ := mem_decorator.mp written
    obtain ⟨skipped, ends⟩ := behindArguments_append shape blank rest
    have sign : literal? "@" ('@' :: (name ++ (arguments ++ gap)) ++ rest) =
        some (name ++ (arguments ++ (gap ++ rest))) :=
      literal?_eq_some_iff.mpr (by simp)
    rw [sign, Option.bind_some, run?_isWord_iff.mpr ⟨run, ends, rfl⟩, Option.bind_some, skipped]
    exact blanks?_append blank solid

theorem exists_decorators (line : List Char) :
    ∃ front ∈ decorator∗, line = front ++ afterDecorators line := by
  fun_induction afterDecorators line with
  | case1 line rest read _ inductionHypothesis =>
      obtain ⟨front, written, -, rfl⟩ := decorator?_eq_some_iff.mp read
      obtain ⟨more, starred, split⟩ := inductionHypothesis
      refine ⟨front ++ more, ?_, ?_⟩
      · obtain ⟨parts, rfl, each⟩ := Language.mem_kstar.mp starred
        exact ⟨front :: parts, rfl, List.forall_mem_cons.mpr ⟨written, each⟩⟩
      · rw [List.append_assoc, ← split]
  | case2 line read => exact ⟨[], Language.nil_mem_kstar _, rfl⟩

theorem afterDecorators_append (plain : decorator? rest = none) (solid : StartsSolid rest)
    {front : List Char} (starred : front ∈ decorator∗) : afterDecorators (front ++ rest) = rest := by
  obtain ⟨parts, rfl, each⟩ := Language.mem_kstar.mp starred
  clear starred
  induction parts with
  | nil => exact afterDecorators_of_none plain
  | cons part parts inductionHypothesis =>
      obtain ⟨written, others⟩ := List.forall_mem_cons.mp each
      have goesOn : StartsSolid (parts.flatten ++ rest) := by
        cases parts with
        | nil => exact solid
        | cons next more =>
            obtain ⟨_, _, _, -, -, -, rfl⟩ := mem_decorator.mp (others next List.mem_cons_self)
            exact startsSolid_cons.mpr (by decide)
      have read : decorator? (part ++ (parts.flatten ++ rest)) = some (parts.flatten ++ rest) :=
        decorator?_eq_some_iff.mpr ⟨part, written, goesOn, rfl⟩
      rw [List.flatten_cons, List.append_assoc, afterDecorators_of_some read]
      exact inductionHypothesis others

theorem startsIn_decorated {language : Language Char}
    (exported : ∀ {text}, StartsIn language text → "export".toList <+: text) :
    StartsIn (decorator∗ * language) line ↔ StartsIn language (afterDecorators line) := by
  rw [startsIn_mul]
  constructor
  · rintro ⟨front, starred, rest, rfl, starts⟩
    obtain ⟨more, rfl⟩ := exported starts
    have plain : decorator? ("export".toList ++ more) = none := by
      rw [decorator?_eq, @literal?_eq_none "@" "export" (by decide) more, Option.bind_none]
    rwa [afterDecorators_append plain (startsSolid_cons.mpr (by decide)) starred]
  · intro starts
    obtain ⟨front, starred, split⟩ := exists_decorators line
    exact ⟨front, starred, _, split, starts⟩

end Decorators

/-- A reader that goes on behind the opening of a declaration accepts what starts with the opening
and with what the reader accepts. -/
theorem isSome_bind_openedBy?_iff {words : List String} {keyword : String}
    {read : List Char → Option Header} {behind : Language Char}
    (apart : (words ++ [keyword]).Pairwise Incomparable)
    (solid : ∀ word ∈ words ++ [keyword], word.toList ≠ [] ∧ Solid word.toList)
    (accepts : ∀ rest, (read rest).isSome ↔ StartsIn behind rest) :
    ((openedBy? words keyword line).bind read).isSome ↔
      StartsIn (declaration words keyword behind) line := by
  simp only [startsIn_declaration apart solid, ← accepts, Option.isSome_iff_exists,
    Option.bind_eq_some_iff]
  constructor
  · rintro ⟨header, rest, opened, read⟩
    exact ⟨rest, opened, header, read⟩
  · rintro ⟨rest, opened, header, read⟩
    exact ⟨header, rest, opened, read⟩

theorem isSome_headerOfKind?_iff (kind : SymbolKind) (line : List Char) :
    (headerOfKind? line kind).isSome ↔ Matches kind line := by
  by_cases signed : kind ∈ signedKinds
  · obtain ⟨apart, solid⟩ := modifiers_apart signed
    rw [headerOfKind?_eq signed, Matches, pattern_of_mem_signedKinds signed]
    exact isSome_bind_openedBy?_iff apart solid fun _ => isSome_namedAs?_iff signed
  · cases kind with
    | enumType =>
        rw [headerOfKind?, enumHeader?_eq]
        exact isSome_bind_openedBy?_iff (by decide) (by decide) fun _ => isSome_wordBehind?_iff
    | structType =>
        rw [headerOfKind?, structHeader?_eq, Matches, pattern, startsIn_decorated]
        · exact isSome_bind_openedBy?_iff (by decide) (by decide) fun _ => isSome_wordBehind?_iff
        · rintro text starts
          obtain ⟨_, rfl, rest, rfl, -⟩ := startsIn_mul.mp starts
          exact List.prefix_append _ _
    | namespaceScope =>
        constructor
        · intro accepted
          simp [headerOfKind?] at accepted
        · rintro ⟨_, none, _⟩
          exact none.elim
    | classType | interfaceType | aliasType | function | constant =>
        exact absurd (by decide) signed

/-- The readers accept exactly the lines that start with a text of their pattern, a line is matched
by the pattern of at most one kind, and so every order of trying the seven patterns gives the symbol
of the line. -/
theorem export_patterns_exclude_each_other (line : List Char) :
    (∀ kind, (headerOfKind? line kind).isSome ↔ Matches kind line) ∧
    (∀ first second, Matches first line → Matches second line → first = second) ∧
    ∀ order : List SymbolKind, order.Perm formOrder →
      order.findSome? (symbolOfKind? line) = symbol? line := by
  refine ⟨fun kind => isSome_headerOfKind?_iff kind line, ?_, ?_⟩
  · intro first second firstMatches secondMatches
    obtain ⟨header, read⟩ := Option.isSome_iff_exists.mp
      ((isSome_headerOfKind?_iff first line).mpr firstMatches)
    obtain ⟨other, readAgain⟩ := Option.isSome_iff_exists.mp
      ((isSome_headerOfKind?_iff second line).mpr secondMatches)
    exact eq_of_headers read readAgain
  · intro order rearranged
    exact findSome?_symbolOfKind? rearranged.symm.subset line

/-- A constant may be named like the keyword of an enumeration. -/
theorem constant_named_enum_is_no_enumeration :
    Matches .constant "export const enum = 3;".toList ∧
      ¬ Matches .enumType "export const enum = 3;".toList := by
  obtain ⟨accepts, single, -⟩ := export_patterns_exclude_each_other "export const enum = 3;".toList
  have constant := (accepts .constant).mp (by decide)
  refine ⟨constant, fun enumeration => ?_⟩
  cases single .constant .enumType constant enumeration

end AmbientStubs.Export
