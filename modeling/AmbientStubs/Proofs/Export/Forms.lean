import AmbientStubs.Proofs.Export.Grammar

/-!
The forms of exported declarations exclude each other.  Behind `export`, `default` and `declare`
every form goes on with words of its own, none of which starts with a word of another form.  The
one exception is `const`, which starts a constant as well as a constant enumeration; there the name
and what follows it tell the two apart.
-/

namespace AmbientStubs.Export

open Text

variable {line rest : List Char}

def leadingWords : SymbolKind → List String
  | .classType => ["abstract", "class"]
  | .function => ["async", "function"]
  | .enumType => ["const", "enum"]
  | kind => [kind.keyword]

def wordBehind? (text : List Char) : Option Header :=
  (blanks? text).bind fun rest => (run? isWord rest).map fun found => ⟨found.1, none⟩

theorem enumHeader?_eq (line : List Char) :
    enumHeader? line =
      (openedBy? ["default", "declare", "const"] "enum" line).bind fun rest => wordBehind? rest := by
  simp only [enumHeader?, declared?, exported?, openedBy?, wordBehind?, keyword?, skipKeywords,
    List.foldl_cons, List.foldl_nil, Option.map_eq_bind, Option.bind_assoc, Option.bind_some,
    Option.bind_eq_bind, Function.comp_def]

theorem structHeader?_eq (line : List Char) :
    structHeader? line =
      (openedBy? ["default"] "struct" (afterDecorators line)).bind fun rest =>
        wordBehind? rest := by
  simp only [structHeader?, exported?, openedBy?, wordBehind?, keyword?, skipKeywords,
    List.foldl_cons, List.foldl_nil, Option.map_eq_bind, Option.bind_assoc, Option.bind_some,
    Option.bind_eq_bind, Function.comp_def]

theorem skipKeywords_append (words others : List String) (text : List Char) :
    skipKeywords (words ++ others) text = skipKeywords others (skipKeywords words text) :=
  List.foldl_append

theorem exists_declared_of_openedBy {words : List String} {keyword : String}
    (opened : openedBy? (["default", "declare"] ++ words) keyword line = some rest) :
    ∃ behind, declared? line = some behind ∧ GoesOnWith (words ++ [keyword]) behind := by
  obtain ⟨text, exported, literal⟩ := Option.bind_eq_some_iff.mp opened
  rw [skipKeywords_append, literal?_eq_some_iff] at literal
  obtain ⟨modifiers, written, whole⟩ :=
    exists_modifiers words (skipKeywords ["default", "declare"] text)
  refine ⟨skipKeywords ["default", "declare"] text, ?_, ?_⟩
  · rw [declared?, exported?, exported]
    rfl
  · rw [whole, literal]
    exact written.goesOnWith (List.prefix_append _ _)

theorem head?_of_decorator? (read : decorator? line = some rest) : line.head? = some '@' := by
  obtain ⟨behind, sign, -⟩ := Option.bind_eq_some_iff.mp read
  rw [literal?_eq_some_iff.mp sign]
  rfl

theorem declared?_of_head? (sign : line.head? = some '@') : declared? line = none := by
  obtain ⟨more, rfl⟩ := List.head?_eq_some_iff.mp sign
  have apart : literal? "export" ('@' :: more) = none :=
    @literal?_eq_none "export" "@" (by decide) more
  rw [declared?, exported?, keyword?, apart]
  rfl

theorem afterDecorators_of_none (plain : decorator? line = none) : afterDecorators line = line := by
  rw [afterDecorators]
  split
  · next read =>
      rw [plain] at read
      contradiction
  · rfl

theorem afterDecorators_of_some (read : decorator? line = some rest) :
    afterDecorators line = afterDecorators rest := by
  rw [afterDecorators]
  split
  · next again =>
      rw [read] at again
      rw [Option.some.inj again]
  · next plain =>
      rw [read] at plain
      contradiction

theorem declared?_of_struct (opened : openedBy? ["default"] "struct" (afterDecorators line) =
      some rest) :
    declared? line = none ∨ ∃ behind, declared? line = some behind ∧ GoesOnWith ["struct"] behind := by
  cases decorated : decorator? line with
  | some _ => exact .inl (declared?_of_head? (head?_of_decorator? decorated))
  | none =>
      rw [afterDecorators_of_none decorated] at opened
      obtain ⟨text, exported, literal⟩ := Option.bind_eq_some_iff.mp opened
      have split : skipKeyword "default" text = "struct".toList ++ rest :=
        literal?_eq_some_iff.mp literal
      refine .inr ⟨"struct".toList ++ rest, ?_, "struct", by simp, List.prefix_append _ _⟩
      rw [declared?, exported?, exported, Option.map_some, Option.map_some, split,
        skipKeyword_of_incomparable (by decide)]

/-- Behind `export`, `default` and `declare` a form goes on with its own words; only a component
may start otherwise. -/
theorem declared?_of_header {kind : SymbolKind} {header : Header}
    (read : headerOfKind? line kind = some header) :
    (∃ behind, declared? line = some behind ∧ GoesOnWith (leadingWords kind) behind) ∨
      kind = .structType ∧ declared? line = none := by
  by_cases signed : kind ∈ signedKinds
  · rw [headerOfKind?_eq signed] at read
    obtain ⟨behind, opened, -⟩ := Option.bind_eq_some_iff.mp read
    revert opened
    simp only [signedKinds, List.mem_cons, List.not_mem_nil, or_false] at signed
    rcases signed with rfl | rfl | rfl | rfl | rfl
    · exact fun opened => .inl (@exists_declared_of_openedBy _ _ ["abstract"] "class" opened)
    · exact fun opened => .inl (@exists_declared_of_openedBy _ _ [] "interface" opened)
    · exact fun opened => .inl (@exists_declared_of_openedBy _ _ [] "type" opened)
    · exact fun opened => .inl (@exists_declared_of_openedBy _ _ ["async"] "function" opened)
    · exact fun opened => .inl (@exists_declared_of_openedBy _ _ [] "const" opened)
  · cases kind with
    | enumType =>
        rw [headerOfKind?, enumHeader?_eq] at read
        obtain ⟨behind, opened, -⟩ := Option.bind_eq_some_iff.mp read
        exact .inl (@exists_declared_of_openedBy _ _ ["const"] "enum" opened)
    | structType =>
        rw [headerOfKind?, structHeader?_eq] at read
        obtain ⟨behind, opened, -⟩ := Option.bind_eq_some_iff.mp read
        exact (declared?_of_struct opened).symm.imp_right fun plain => ⟨rfl, plain⟩
    | namespaceScope => cases read
    | classType | interfaceType | aliasType | function | constant =>
        exact absurd (by decide) signed

/-- Where a constant has its name, a constant enumeration has its keyword; but a name follows the
keyword, and what follows the name of a constant is no name. -/
theorem constant_ne_enum {header other : Header} (constant : constantHeader? line = some header)
    (enumeration : enumHeader? line = some other) : False := by
  obtain ⟨behind, declared, constant⟩ := Option.bind_eq_some_iff.mp constant
  obtain ⟨named, keyword, constant⟩ := Option.bind_eq_some_iff.mp constant
  obtain ⟨⟨name, tail⟩, run, follows⟩ := Option.bind_eq_some_iff.mp constant
  obtain ⟨again, declaredAgain, enumeration⟩ := Option.bind_eq_some_iff.mp enumeration
  obtain rfl : behind = again := Option.some.inj (declared.symm.trans declaredAgain)
  rw [skipKeyword, keyword, Option.getD_some] at enumeration
  obtain ⟨last, read, enumeration⟩ := Option.bind_eq_some_iff.mp enumeration
  obtain ⟨⟨first, more⟩, word, -⟩ := Option.bind_eq_some_iff.mp enumeration
  obtain ⟨blanks, blank, solid, rfl⟩ := keyword?_eq_some_iff.mp read
  obtain ⟨firstRun, -, rfl⟩ := run?_isWord_iff.mp word
  have asName : run? isWord ("enum".toList ++ (blanks ++ (first ++ more))) =
      some ("enum".toList, blanks ++ (first ++ more)) := by
    refine run?_isWord_iff.mpr ⟨by decide, fun character starts => ?_, rfl⟩
    obtain ⟨space, spaces, rfl⟩ := List.exists_cons_of_ne_nil blank.1
    obtain rfl : space = character := Option.some.inj starts
    exact isWord_eq_false_of_isBlank (blank.2 _ List.mem_cons_self)
  obtain ⟨-, rfl⟩ := Prod.mk.inj (Option.some.inj (run.symm.trans asName))
  obtain ⟨letter, letters, rfl⟩ := List.exists_cons_of_ne_nil firstRun.1
  have isLetter := firstRun.2 letter List.mem_cons_self
  have next : (trimStart (blanks ++ (letter :: letters ++ more))).head? = some letter := by
    rw [trimStart_append blank.2 solid]
    rfl
  dsimp only at follows
  rw [next] at follows
  split at follows
  · next equals => cases equals; exact absurd isLetter (by decide)
  · next colon => cases colon; exact absurd isLetter (by decide)
  · cases follows

theorem leadingWords_apart : ∀ first ∈ formOrder, ∀ second ∈ formOrder, first ≠ second →
    ¬ (first = .constant ∧ second = .enumType) → ¬ (first = .enumType ∧ second = .constant) →
    ∀ word ∈ leadingWords first, ∀ other ∈ leadingWords second, Incomparable word other := by
  decide

theorem mem_formOrder {kind : SymbolKind} {header : Header}
    (read : headerOfKind? line kind = some header) : kind ∈ formOrder := by
  cases kind with
  | namespaceScope => cases read
  | classType | interfaceType | aliasType | function | constant | enumType | structType => decide

/-- A line is a declaration of at most one kind. -/
theorem eq_of_headers {first second : SymbolKind} {header other : Header}
    (firstRead : headerOfKind? line first = some header)
    (secondRead : headerOfKind? line second = some other) : first = second := by
  rcases declared?_of_header firstRead with ⟨behind, declared, word, listed, starts⟩ |
    ⟨rfl, undeclared⟩
  · rcases declared?_of_header secondRead with
      ⟨again, declaredAgain, wordAgain, listedAgain, startsAgain⟩ | ⟨rfl, undeclared⟩
    · obtain rfl : behind = again := Option.some.inj (declared.symm.trans declaredAgain)
      apply Classical.byContradiction
      intro different
      by_cases oneWay : first = .constant ∧ second = .enumType
      · obtain ⟨rfl, rfl⟩ := oneWay
        exact constant_ne_enum firstRead secondRead
      by_cases otherWay : first = .enumType ∧ second = .constant
      · obtain ⟨rfl, rfl⟩ := otherWay
        exact constant_ne_enum secondRead firstRead
      have incomparable := leadingWords_apart first (mem_formOrder firstRead) second
        (mem_formOrder secondRead) different oneWay otherWay word listed wordAgain listedAgain
      rcases List.prefix_or_prefix_of_prefix starts startsAgain with shorter | longer
      · exact incomparable.1 shorter
      · exact incomparable.2 longer
    · rw [undeclared] at declared
      contradiction
  · rcases declared?_of_header secondRead with ⟨behind, declared, -⟩ | ⟨rfl, -⟩
    · rw [undeclared] at declared
      contradiction
    · rfl

def symbolOfKind? (line : List Char) (kind : SymbolKind) : Option Symbol :=
  (headerOfKind? line kind).map fun header => header.symbol kind (signature line header kind)

/-- The order in which the kinds are tried makes no difference. -/
theorem findSome?_symbolOfKind?_iff {order : List SymbolKind} (complete : formOrder ⊆ order)
    {symbol : Symbol} :
    order.findSome? (symbolOfKind? line) = some symbol ↔
      ∃ kind, symbolOfKind? line kind = some symbol := by
  constructor
  · intro found
    obtain ⟨kind, -, read⟩ := List.exists_of_findSome?_eq_some found
    exact ⟨kind, read⟩
  · rintro ⟨kind, read⟩
    obtain ⟨header, readHeader, -⟩ := Option.map_eq_some_iff.mp read
    have listed : (order.findSome? (symbolOfKind? line)).isSome := by
      rw [List.findSome?_isSome_iff]
      exact ⟨kind, complete (mem_formOrder readHeader), by rw [read]; rfl⟩
    obtain ⟨other, found⟩ := Option.isSome_iff_exists.mp listed
    obtain ⟨otherKind, -, otherRead⟩ := List.exists_of_findSome?_eq_some found
    obtain ⟨otherHeader, readOtherHeader, -⟩ := Option.map_eq_some_iff.mp otherRead
    obtain rfl := eq_of_headers readHeader readOtherHeader
    rw [found, ← otherRead, read]

theorem findSome?_symbolOfKind? {order : List SymbolKind} (complete : formOrder ⊆ order)
    (line : List Char) : order.findSome? (symbolOfKind? line) = symbol? line := by
  apply Option.ext
  intro symbol
  rw [findSome?_symbolOfKind?_iff complete]
  exact (findSome?_symbolOfKind?_iff (List.Subset.refl formOrder)).symm

end AmbientStubs.Export
