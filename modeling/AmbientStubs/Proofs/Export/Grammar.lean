import AmbientStubs.Export
import AmbientStubs.Proofs.Text.Tidy

/-!
The grammar of exported declarations whose text is kept as a signature: classes, interfaces, type
aliases, functions and constants.  A declaration has an opening, from `export` to the name and what
belongs to it, and the opening alone decides how a line is read, whatever stands behind it.
-/

namespace AmbientStubs.Export

open Text

def IsWordRun (text : List Char) : Prop :=
  text ≠ [] ∧ ∀ character ∈ text, isWord character = true

instance (text : List Char) : Decidable (IsWordRun text) :=
  decidable_of_iff (text ≠ [] ∧ text.all isWord = true) (by rw [IsWordRun, List.all_eq_true])

/-- Some of the given words in their order, each with white space behind it. -/
inductive Modifiers : List String → List Char → Prop
  | nil : Modifiers [] []
  | absent {word : String} {words : List String} {text : List Char} :
      Modifiers words text → Modifiers (word :: words) text
  | present {word : String} {words : List String} {blanks text : List Char} :
      IsBlanks blanks → Modifiers words text →
      Modifiers (word :: words) (word.toList ++ (blanks ++ text))

def modifiersOf : SymbolKind → List String
  | .classType => ["default", "declare", "abstract"]
  | .function => ["default", "declare", "async"]
  | _ => ["default", "declare"]

/-- What stands between the keyword and the name: white space.  The name of a function may also
follow directly, or behind a star. -/
inductive Gap : SymbolKind → List Char → Prop
  | blanks {kind : SymbolKind} {blanks : List Char} :
      kind ≠ .function → IsBlanks blanks → Gap kind blanks
  | plain {blanks : List Char} : AllBlank blanks → Gap .function blanks
  | generator {before behind : List Char} :
      AllBlank before → AllBlank behind → Gap .function (before ++ '*' :: behind)

inductive Parameters : List Char → Prop
  | none {blanks : List Char} : AllBlank blanks → Parameters blanks
  | some {before inner behind : List Char} :
      AllBlank before → '>' ∉ inner → AllBlank behind →
      Parameters (before ++ '<' :: (inner ++ '>' :: behind))

def Tail : SymbolKind → List Char → Prop
  | .aliasType, text | .function, text => Parameters text
  | .constant, text => AllBlank text
  | _, text => text = []

/-- What has to follow: the equals sign of an alias, the parameter list of a function, a value or
a type of a constant, and the end of the name in all other cases. -/
def Follows : SymbolKind → List Char → Prop
  | .aliasType, rest => rest.head? = some '='
  | .function, rest => rest.head? = some '('
  | .constant, rest => rest.head? = some '=' ∨ rest.head? = some ':'
  | _, rest => ∀ character, rest.head? = some character → isWord character = false

inductive Opening (kind : SymbolKind) (name : List Char) : List Char → Prop
  | intro {blanks modifiers gap tail : List Char} :
      IsBlanks blanks → Modifiers (modifiersOf kind) modifiers → Gap kind gap → IsWordRun name →
      Tail kind tail →
      Opening kind name ("export".toList ++ (blanks ++ (modifiers ++ (kind.keyword.toList ++
        (gap ++ (name ++ tail))))))

/-- The kinds whose declaration is kept as their signature. -/
def signedKinds : List SymbolKind :=
  [.classType, .interfaceType, .aliasType, .function, .constant]

section Words

/-- Neither of two words starts with the other. -/
def Incomparable (first second : String) : Prop :=
  ¬ first.toList <+: second.toList ∧ ¬ second.toList <+: first.toList

instance (first second : String) : Decidable (Incomparable first second) :=
  inferInstanceAs (Decidable (_ ∧ _))

theorem literal?_eq_none {word other : String} (apart : Incomparable word other)
    (rest : List Char) : literal? word (other.toList ++ rest) = none := by
  rw [Option.eq_none_iff_forall_ne_some]
  intro behind read
  have split := literal?_eq_some_iff.mp read
  rcases List.prefix_or_prefix_of_prefix (List.prefix_append word.toList behind)
    (split ▸ List.prefix_append other.toList rest) with shorter | longer
  · exact apart.1 shorter
  · exact apart.2 longer

theorem skipKeyword_of_incomparable {word other : String} (apart : Incomparable word other)
    (rest : List Char) : skipKeyword word (other.toList ++ rest) = other.toList ++ rest := by
  rw [skipKeyword, keyword?, literal?_eq_none apart]
  rfl

theorem skipKeyword_cases (word : String) (text : List Char) :
    skipKeyword word text = text ∨
      ∃ blanks, IsBlanks blanks ∧ text = word.toList ++ (blanks ++ skipKeyword word text) := by
  rw [skipKeyword]
  cases read : keyword? word text with
  | none => exact .inl rfl
  | some rest =>
      obtain ⟨blanks, blank, -, split⟩ := keyword?_eq_some_iff.mp read
      exact .inr ⟨blanks, blank, split⟩

theorem skipKeyword_append {word : String} {blanks rest : List Char} (blank : IsBlanks blanks)
    (solid : StartsSolid rest) : skipKeyword word (word.toList ++ (blanks ++ rest)) = rest := by
  rw [skipKeyword, keyword?_append blank solid]
  rfl

def skipKeywords (words : List String) (text : List Char) : List Char :=
  words.foldl (fun rest word => skipKeyword word rest) text

theorem exists_modifiers (words : List String) (text : List Char) :
    ∃ modifiers, Modifiers words modifiers ∧ text = modifiers ++ skipKeywords words text := by
  induction words generalizing text with
  | nil => exact ⟨[], .nil, rfl⟩
  | cons word words inductionHypothesis =>
      obtain ⟨modifiers, written, split⟩ := inductionHypothesis (skipKeyword word text)
      rcases skipKeyword_cases word text with same | ⟨blanks, blank, whole⟩
      · rw [same] at split
        refine ⟨modifiers, .absent written, ?_⟩
        rw [skipKeywords, List.foldl_cons, same]
        exact split
      · refine ⟨_, .present blank written, ?_⟩
        rw [List.append_assoc, List.append_assoc]
        exact whole.trans (congrArg (fun rest => word.toList ++ (blanks ++ rest)) split)

def GoesOnWith (words : List String) (text : List Char) : Prop :=
  ∃ word ∈ words, word.toList <+: text

theorem Modifiers.goesOnWith {words : List String} {modifiers core : List Char}
    (written : Modifiers words modifiers) {keyword : String} (starts : keyword.toList <+: core) :
    GoesOnWith (words ++ [keyword]) (modifiers ++ core) := by
  induction written with
  | nil => exact ⟨keyword, by simp, starts⟩
  | absent written inductionHypothesis =>
      obtain ⟨word, listed, first⟩ := inductionHypothesis
      exact ⟨word, List.mem_cons_of_mem _ listed, first⟩
  | @present word words blanks text blank written inductionHypothesis =>
      refine ⟨word, List.mem_cons_self, ?_⟩
      rw [List.append_assoc]
      exact List.prefix_append _ _

theorem Modifiers.mem {words : List String} {modifiers : List Char}
    (written : Modifiers words modifiers) {character : Char} (inside : character ∈ modifiers) :
    isBlank character = true ∨ ∃ word ∈ words, character ∈ word.toList := by
  induction written with
  | nil => cases inside
  | absent written inductionHypothesis =>
      refine (inductionHypothesis inside).imp_right ?_
      rintro ⟨word, listed, within⟩
      exact ⟨word, List.mem_cons_of_mem _ listed, within⟩
  | @present word words blanks text blank written inductionHypothesis =>
      rw [List.mem_append, List.mem_append] at inside
      rcases inside with within | between | later
      · exact .inr ⟨word, List.mem_cons_self, within⟩
      · exact .inl (blank.2 character between)
      · refine (inductionHypothesis later).imp_right ?_
        rintro ⟨word, listed, within⟩
        exact ⟨word, List.mem_cons_of_mem _ listed, within⟩

theorem GoesOnWith.startsSolid {words : List String} {text : List Char}
    (goesOn : GoesOnWith words text)
    (solid : ∀ word ∈ words, word.toList ≠ [] ∧ Solid word.toList) : StartsSolid text := by
  obtain ⟨word, listed, rest, rfl⟩ := goesOn
  exact (solid word listed).2.startsSolid_append (solid word listed).1

/-- Modifiers are skipped up to the keyword, as no two of these words start alike. -/
theorem Modifiers.skipKeywords {words : List String} {modifiers core : List Char}
    (written : Modifiers words modifiers) {keyword : String} (starts : keyword.toList <+: core)
    (apart : (words ++ [keyword]).Pairwise Incomparable)
    (solid : ∀ word ∈ words ++ [keyword], word.toList ≠ [] ∧ Solid word.toList) :
    skipKeywords words (modifiers ++ core) = core := by
  induction written with
  | nil => rfl
  | @absent word words text written inductionHypothesis =>
      rw [List.cons_append, List.pairwise_cons] at apart
      rw [List.cons_append, List.forall_mem_cons] at solid
      obtain ⟨other, listed, rest, split⟩ := written.goesOnWith starts
      rw [Export.skipKeywords, List.foldl_cons, ← split,
        skipKeyword_of_incomparable (apart.1 other listed), split]
      exact inductionHypothesis apart.2 solid.2
  | @present word words blanks text blank written inductionHypothesis =>
      rw [List.cons_append, List.pairwise_cons] at apart
      rw [List.cons_append, List.forall_mem_cons] at solid
      rw [Export.skipKeywords, List.foldl_cons, List.append_assoc, List.append_assoc,
        skipKeyword_append blank ((written.goesOnWith starts).startsSolid solid.2)]
      exact inductionHypothesis apart.2 solid.2

end Words

section Names

variable {name : List Char}

theorem isIdentifier_of_isWord {character : Char} (word : isWord character = true) :
    isIdentifier character = true := by
  rw [isIdentifier, word, Bool.true_or]

theorem isWord_eq_false_of_isBlank {character : Char} (blank : isBlank character = true) :
    isWord character = false := by
  cases word : isWord character with
  | false => rfl
  | true =>
      have solid := isBlank_eq_false_of_isIdentifier (isIdentifier_of_isWord word)
      rw [blank] at solid
      cases solid

theorem IsWordRun.solid (run : IsWordRun name) : Solid name := fun character inside =>
  isBlank_eq_false_of_isIdentifier (isIdentifier_of_isWord (run.2 character inside))

theorem IsWordRun.startsSolid (run : IsWordRun name) (rest : List Char) :
    StartsSolid (name ++ rest) :=
  run.solid.startsSolid_append run.1

theorem run?_isWord_iff {text rest : List Char} :
    run? isWord text = some (name, rest) ↔
      IsWordRun name ∧ (∀ character, rest.head? = some character → isWord character = false) ∧
        text = name ++ rest := by
  rw [run?_eq_some_iff, IsWordRun, and_assoc]

theorem trimStart_eq (text : List Char) :
    ∃ blanks, AllBlank blanks ∧ text = blanks ++ trimStart text :=
  ⟨text.takeWhile isBlank, fun _ => List.all_eq_true.mp List.all_takeWhile _,
    List.takeWhile_append_dropWhile.symm⟩

theorem notWord_append {blanks : List Char} (blank : AllBlank blanks) {next : Char}
    (outside : isWord next = false) (more : List Char) :
    ∀ character, (blanks ++ next :: more).head? = some character → isWord character = false := by
  cases blanks with
  | nil => simpa using outside
  | cons first more =>
      intro character same
      obtain rfl : first = character := Option.some.inj same
      exact isWord_eq_false_of_isBlank (blank first List.mem_cons_self)

end Names

section Openings

variable {kind : SymbolKind} {line name rest : List Char}

def opened? (kind : SymbolKind) (line : List Char) : Option (List Char) :=
  (keyword? "export" line).bind fun rest =>
    literal? kind.keyword (skipKeywords (modifiersOf kind) rest)

def namedAs? : SymbolKind → List Char → Option Header
  | .function, text => do
      let rest := trimStart text
      let (header, rest) ← named? (trimStart ((literal? "*" rest).getD rest))
      if rest.head? = some '(' then some header else none
  | .aliasType, text => do
      let (header, rest) ← named? (← blanks? text)
      if rest.head? = some '=' then some header else none
  | .constant, text => do
      let (name, rest) ← run? isWord (← blanks? text)
      match (trimStart rest).head? with
      | some '=' => some ⟨name, none⟩
      | some ':' => some ⟨name, none⟩
      | _ => none
  | _, text => do
      let (header, _) ← named? (← blanks? text)
      some header

/-- The forms of declarations go by one scheme. -/
theorem headerOfKind?_eq (signed : kind ∈ signedKinds) (line : List Char) :
    headerOfKind? line kind = (opened? kind line).bind fun rest => namedAs? kind rest := by
  simp only [signedKinds, List.mem_cons, List.not_mem_nil, or_false] at signed
  rcases signed with rfl | rfl | rfl | rfl | rfl
  all_goals
    simp only [headerOfKind?, classHeader?, interfaceHeader?, aliasHeader?, functionHeader?,
      constantHeader?, declared?, exported?, opened?, keyword?, skipKeywords, modifiersOf,
      SymbolKind.keyword, List.foldl_cons, List.foldl_nil, Option.map_map, Option.bind_map,
      Option.bind_assoc, Option.bind_eq_bind, Function.comp_def]
    rfl

theorem modifiers_apart (signed : kind ∈ signedKinds) :
    (modifiersOf kind ++ [kind.keyword]).Pairwise Incomparable ∧
      ∀ word ∈ modifiersOf kind ++ [kind.keyword], word.toList ≠ [] ∧ Solid word.toList := by
  simp only [signedKinds, List.mem_cons, List.not_mem_nil, or_false] at signed
  rcases signed with rfl | rfl | rfl | rfl | rfl <;> decide

def openedBy? (words : List String) (keyword : String) (line : List Char) : Option (List Char) :=
  (keyword? "export" line).bind fun rest => literal? keyword (skipKeywords words rest)

theorem openedBy?_eq_some_iff {words : List String} {keyword : String}
    (apart : (words ++ [keyword]).Pairwise Incomparable)
    (solid : ∀ word ∈ words ++ [keyword], word.toList ≠ [] ∧ Solid word.toList) :
    openedBy? words keyword line = some rest ↔
      ∃ blanks modifiers, IsBlanks blanks ∧ Modifiers words modifiers ∧
        line = "export".toList ++ (blanks ++ (modifiers ++ (keyword.toList ++ rest))) := by
  constructor
  · intro read
    obtain ⟨behind, exported, literal⟩ := Option.bind_eq_some_iff.mp read
    obtain ⟨blanks, blank, -, whole⟩ := keyword?_eq_some_iff.mp exported
    obtain ⟨modifiers, written, split⟩ := exists_modifiers words behind
    rw [literal?_eq_some_iff.mp literal] at split
    exact ⟨blanks, modifiers, blank, written, by rw [← split, whole]⟩
  · rintro ⟨blanks, modifiers, blank, written, rfl⟩
    have starts := List.prefix_append keyword.toList rest
    rw [openedBy?, keyword?_append blank ((written.goesOnWith starts).startsSolid solid),
      Option.bind_some, written.skipKeywords starts apart solid, literal?_append]

theorem opened?_eq_some_iff (signed : kind ∈ signedKinds) :
    opened? kind line = some rest ↔
      ∃ blanks modifiers, IsBlanks blanks ∧ Modifiers (modifiersOf kind) modifiers ∧
        line = "export".toList ++ (blanks ++ (modifiers ++ (kind.keyword.toList ++ rest))) :=
  openedBy?_eq_some_iff (modifiers_apart signed).1 (modifiers_apart signed).2

theorem exists_parameters {text : List Char} {header : Header}
    (read : named? text = some (header, rest)) :
    ∃ behind parameters, run? isWord text = some (header.name, behind) ∧ Parameters parameters ∧
      behind = parameters ++ rest := by
  obtain ⟨⟨found, behind⟩, run, read⟩ := Option.bind_eq_some_iff.mp read
  obtain ⟨before, blankBefore, split⟩ := trimStart_eq behind
  dsimp only [typeParameters] at read
  cases enclosed : enclosed? '<' '>' (trimStart behind) with
  | none =>
      rw [enclosed] at read
      obtain ⟨rfl, rfl⟩ := Prod.mk.inj (Option.some.inj read)
      obtain ⟨between, blankBetween, more⟩ := trimStart_eq (trimStart behind)
      refine ⟨behind, before ++ between, run, .none (List.forall_mem_append.mpr
        ⟨blankBefore, blankBetween⟩), ?_⟩
      rw [List.append_assoc, ← more]
      exact split
  | some pair =>
      obtain ⟨inner, after⟩ := pair
      rw [enclosed] at read
      obtain ⟨rfl, rfl⟩ := Prod.mk.inj (Option.some.inj read)
      obtain ⟨closed, shape⟩ := enclosed?_eq_some_iff.mp enclosed
      obtain ⟨between, blankBetween, more⟩ := trimStart_eq after
      refine ⟨behind, _, run, .some blankBefore closed blankBetween, ?_⟩
      rw [List.append_assoc, List.cons_append, List.append_assoc, List.cons_append, ← more,
        ← shape]
      exact split

theorem named?_append {parameters : List Char} (run : IsWordRun name)
    (written : Parameters parameters) (next : Char) (solid : isBlank next = false)
    (noWord : isWord next = false) (noBracket : next ≠ '<') (more : List Char) :
    ∃ header, named? (name ++ (parameters ++ next :: more)) = some (header, next :: more) ∧
      header.name = name := by
  have solidNext : StartsSolid (next :: more) := startsSolid_cons.mpr solid
  cases written with
  | none blank =>
      have ends := notWord_append blank noWord more
      have apart : enclosed? '<' '>' (next :: more) = none := by
        rw [enclosed?, if_neg noBracket]
      refine ⟨⟨name, none⟩, ?_, rfl⟩
      simp only [named?, run?_isWord_iff.mpr ⟨run, ends, rfl⟩, Option.bind_eq_bind,
        Option.bind_some, trimStart_append blank solidNext, typeParameters, apart,
        trimStart_of_startsSolid solidNext]
  | @some before inner behind blankBefore closed blankBehind =>
      have solidBracket : StartsSolid ('<' :: (inner ++ '>' :: (behind ++ next :: more))) :=
        startsSolid_cons.mpr (by decide)
      have ends := notWord_append blankBefore (show isWord '<' = false by decide)
        (inner ++ '>' :: (behind ++ next :: more))
      have enclosed : enclosed? '<' '>' ('<' :: (inner ++ '>' :: (behind ++ next :: more))) =
          some (inner, behind ++ next :: more) :=
        enclosed?_eq_some_iff.mpr ⟨closed, rfl⟩
      refine ⟨⟨name, some ('<' :: inner ++ ['>'])⟩, ?_, rfl⟩
      simp only [named?, List.append_assoc, List.cons_append, run?_isWord_iff.mpr ⟨run, ends, rfl⟩,
        Option.bind_eq_bind, Option.bind_some, trimStart_append blankBefore solidBracket,
        typeParameters, enclosed, trimStart_append blankBehind solidNext]

theorem Gap.blanks?_append {gap : List Char} (noFunction : kind ≠ .function)
    (written : Gap kind gap) (solid : StartsSolid rest) : blanks? (gap ++ rest) = some rest := by
  cases written with
  | blanks _ blank => exact Text.blanks?_append blank solid
  | plain => exact absurd rfl noFunction
  | generator => exact absurd rfl noFunction

theorem Gap.skip_append {gap : List Char} (written : Gap .function gap) (run : IsWordRun name)
    (rest : List Char) :
    trimStart ((literal? "*" (trimStart (gap ++ (name ++ rest)))).getD
      (trimStart (gap ++ (name ++ rest)))) = name ++ rest := by
  have solid := run.startsSolid rest
  have skipped {blanks : List Char} (blank : AllBlank blanks) :
      trimStart (blanks ++ (name ++ rest)) = name ++ rest :=
    trimStart_append blank solid
  cases written with
  | blanks noFunction => exact absurd rfl noFunction
  | plain blank =>
      have noStar : literal? "*" (name ++ rest) = none := by
        obtain ⟨first, more, rfl⟩ := List.exists_cons_of_ne_nil run.1
        have word := run.2 first List.mem_cons_self
        have apart : '*' ≠ first := by
          rintro rfl
          exact absurd word (by decide)
        simp [literal?, after?, apart]
      rw [skipped blank, noStar, Option.getD_none, trimStart_of_startsSolid solid]
  | @generator before behind blankBefore blankBehind =>
      have star : trimStart ((before ++ '*' :: behind) ++ (name ++ rest)) =
          "*".toList ++ (behind ++ (name ++ rest)) := by
        rw [List.append_assoc]
        exact trimStart_append blankBefore (startsSolid_cons.mpr (by decide))
      rw [star, literal?_append, Option.getD_some, skipped blankBehind]

theorem exists_gap_of_function (text : List Char) :
    ∃ gap, Gap .function gap ∧
      text = gap ++ trimStart ((literal? "*" (trimStart text)).getD (trimStart text)) := by
  obtain ⟨before, blankBefore, split⟩ := trimStart_eq text
  cases star : literal? "*" (trimStart text) with
  | none =>
      obtain ⟨behind, blankBehind, more⟩ := trimStart_eq (trimStart text)
      refine ⟨before ++ behind, .plain (List.forall_mem_append.mpr ⟨blankBefore, blankBehind⟩), ?_⟩
      rw [Option.getD_none, List.append_assoc, ← more]
      exact split
  | some rest =>
      obtain ⟨behind, blankBehind, more⟩ := trimStart_eq rest
      refine ⟨before ++ '*' :: behind, .generator blankBefore blankBehind, ?_⟩
      rw [Option.getD_some, List.append_assoc, List.cons_append, ← more]
      exact split.trans (congrArg (before ++ ·) (literal?_eq_some_iff.mp star))

structure Behind (kind : SymbolKind) (name gap tail rest : List Char) : Prop where
  gap : Gap kind gap
  run : IsWordRun name
  tail : Tail kind tail
  follows : Follows kind rest

/-- What was read behind a keyword has these parts. -/
theorem exists_behind (signed : kind ∈ signedKinds) {text : List Char} {header : Header}
    (read : namedAs? kind text = some header) :
    ∃ gap tail rest, Behind kind header.name gap tail rest ∧
      text = gap ++ (header.name ++ (tail ++ rest)) := by
  have separated {behind : List Char} (noFunction : kind ≠ .function)
      (skipped : blanks? text = some behind) : ∃ gap, Gap kind gap ∧ text = gap ++ behind := by
    obtain ⟨gap, blank, -, split⟩ := blanks?_eq_some_iff.mp skipped
    exact ⟨gap, .blanks noFunction blank, split⟩
  cases kind with
  | classType | interfaceType =>
      obtain ⟨behind, skipped, read⟩ := Option.bind_eq_some_iff.mp read
      obtain ⟨⟨found, more⟩, named, same⟩ := Option.bind_eq_some_iff.mp read
      obtain rfl := Option.some.inj same
      obtain ⟨gap, written, split⟩ := separated (by decide) skipped
      obtain ⟨rest, -, run, -⟩ := exists_parameters named
      obtain ⟨run, ends, whole⟩ := run?_isWord_iff.mp run
      exact ⟨gap, [], rest, ⟨written, run, rfl, ends⟩, by rw [split, whole, List.nil_append]⟩
  | aliasType =>
      obtain ⟨behind, skipped, read⟩ := Option.bind_eq_some_iff.mp read
      obtain ⟨⟨found, rest⟩, named, checked⟩ := Option.bind_eq_some_iff.mp read
      obtain ⟨follows, same⟩ := Option.ite_none_right_eq_some.mp checked
      obtain rfl := Option.some.inj same
      obtain ⟨gap, written, split⟩ := separated (by decide) skipped
      obtain ⟨_, tail, run, parameters, rfl⟩ := exists_parameters named
      obtain ⟨run, -, whole⟩ := run?_isWord_iff.mp run
      exact ⟨gap, tail, rest, ⟨written, run, parameters, follows⟩, by rw [split, whole]⟩
  | function =>
      obtain ⟨⟨found, rest⟩, named, checked⟩ := Option.bind_eq_some_iff.mp read
      obtain ⟨follows, same⟩ := Option.ite_none_right_eq_some.mp checked
      obtain rfl := Option.some.inj same
      obtain ⟨gap, written, split⟩ := exists_gap_of_function text
      obtain ⟨_, tail, run, parameters, rfl⟩ := exists_parameters named
      obtain ⟨run, -, whole⟩ := run?_isWord_iff.mp run
      exact ⟨gap, tail, rest, ⟨written, run, parameters, follows⟩, split.trans (by rw [whole])⟩
  | constant =>
      obtain ⟨behind, skipped, read⟩ := Option.bind_eq_some_iff.mp read
      obtain ⟨⟨name, more⟩, run, checked⟩ := Option.bind_eq_some_iff.mp read
      obtain ⟨gap, written, split⟩ := separated (by decide) skipped
      obtain ⟨run, -, whole⟩ := run?_isWord_iff.mp run
      obtain ⟨tail, blank, rest⟩ := trimStart_eq more
      have sign : Follows .constant (trimStart more) ∧ header = ⟨name, none⟩ := by
        dsimp only at checked
        split at checked
        · next equals => exact ⟨.inl equals, (Option.some.inj checked).symm⟩
        · next colon => exact ⟨.inr colon, (Option.some.inj checked).symm⟩
        · cases checked
      obtain ⟨follows, rfl⟩ := sign
      exact ⟨gap, tail, trimStart more, ⟨written, run, blank, follows⟩,
        by rw [split, whole, ← rest]⟩
  | enumType | namespaceScope | structType => simp [signedKinds] at signed

theorem Behind.exists_header (signed : kind ∈ signedKinds) {gap tail : List Char}
    (behind : Behind kind name gap tail rest) :
    ∃ header, namedAs? kind (gap ++ (name ++ (tail ++ rest))) = some header ∧
      header.name = name := by
  obtain ⟨written, run, tailed, follows⟩ := behind
  have skipped (noFunction : kind ≠ .function) :
      blanks? (gap ++ (name ++ (tail ++ rest))) = some (name ++ (tail ++ rest)) :=
    written.blanks?_append noFunction (run.startsSolid _)
  cases kind with
  | classType | interfaceType =>
      obtain rfl : tail = [] := tailed
      have found : run? isWord (name ++ ([] ++ rest)) = some (name, rest) :=
        run?_isWord_iff.mpr ⟨run, follows, rfl⟩
      refine ⟨⟨name, (typeParameters (trimStart rest)).1⟩, ?_, rfl⟩
      simp only [namedAs?, skipped (by decide), named?, found, Option.bind_eq_bind,
        Option.bind_some]
  | aliasType =>
      obtain ⟨more, rfl⟩ := List.head?_eq_some_iff.mp follows
      obtain ⟨header, named, same⟩ :=
        named?_append run tailed '=' (by decide) (by decide) (by decide) more
      refine ⟨header, ?_, same⟩
      simp only [namedAs?, skipped (by decide), named, Option.bind_eq_bind, Option.bind_some,
        List.head?_cons, if_true]
  | function =>
      obtain ⟨more, rfl⟩ := List.head?_eq_some_iff.mp follows
      obtain ⟨header, named, same⟩ :=
        named?_append run tailed '(' (by decide) (by decide) (by decide) more
      refine ⟨header, ?_, same⟩
      simp only [namedAs?, written.skip_append run, named, Option.bind_eq_bind, Option.bind_some,
        List.head?_cons, if_true]
  | constant =>
      obtain ⟨next, more, rfl, sign⟩ :
          ∃ next more, rest = next :: more ∧ (next = '=' ∨ next = ':') := by
        rcases follows with follows | follows <;>
          obtain ⟨more, rfl⟩ := List.head?_eq_some_iff.mp follows
        · exact ⟨'=', more, rfl, .inl rfl⟩
        · exact ⟨':', more, rfl, .inr rfl⟩
      have solid : isBlank next = false := by rcases sign with rfl | rfl <;> decide
      have noWord : isWord next = false := by rcases sign with rfl | rfl <;> decide
      have found := run?_isWord_iff.mpr ⟨run, notWord_append tailed noWord more, rfl⟩
      refine ⟨⟨name, none⟩, ?_, rfl⟩
      simp only [namedAs?, skipped (by decide), found, Option.bind_eq_bind, Option.bind_some,
        trimStart_append tailed (startsSolid_cons.mpr solid), List.head?_cons]
      rcases sign with rfl | rfl <;> rfl
  | enumType | namespaceScope | structType => simp [signedKinds] at signed

theorem exists_opening (signed : kind ∈ signedKinds) {header : Header}
    (read : headerOfKind? line kind = some header) :
    ∃ front rest, Opening kind header.name front ∧ Follows kind rest ∧ line = front ++ rest := by
  rw [headerOfKind?_eq signed] at read
  obtain ⟨text, opened, named⟩ := Option.bind_eq_some_iff.mp read
  obtain ⟨blanks, modifiers, blank, written, rfl⟩ := (opened?_eq_some_iff signed).mp opened
  obtain ⟨gap, tail, rest, behind, rfl⟩ := exists_behind signed named
  exact ⟨_, rest, .intro blank written behind.gap behind.run behind.tail, behind.follows, by simp⟩

/-- A line that starts with an opening of a declaration is read as this declaration. -/
theorem Opening.exists_header (signed : kind ∈ signedKinds) {front : List Char}
    (opening : Opening kind name front) (follows : Follows kind rest) :
    ∃ header, headerOfKind? (front ++ rest) kind = some header ∧ header.name = name := by
  obtain @⟨blanks, modifiers, gap, tail, blank, written, gapped, run, tailed⟩ := opening
  obtain ⟨header, named, same⟩ := Behind.exists_header signed ⟨gapped, run, tailed, follows⟩
  refine ⟨header, ?_, same⟩
  have opened : opened? kind ("export".toList ++ (blanks ++ (modifiers ++ (kind.keyword.toList ++
      (gap ++ (name ++ tail))))) ++ rest) = some (gap ++ (name ++ (tail ++ rest))) :=
    (opened?_eq_some_iff signed).mpr ⟨blanks, modifiers, blank, written, by simp⟩
  rw [headerOfKind?_eq signed, opened]
  exact named

end Openings

end AmbientStubs.Export
