import AmbientStubs.Proofs.Export.Forms

/-!
Signatures are declarations.  A signature is the line cut, tidied and closed; this leaves the
opening of the declaration as it is except for its white space, so a signature is read as the same
declaration again, and it is its own signature.
-/

namespace AmbientStubs.Export

open Text

section Fixed

variable {line front rest : List Char}

theorem beforeBody_append (plain : '{' ∉ front) (rest : List Char) :
    beforeBody (front ++ rest) = front ++ beforeBody rest := by
  rw [beforeBody, List.takeWhile_append_of_pos]
  · rfl
  · intro character inside
    rw [bne_iff_ne]
    rintro rfl
    exact plain inside

theorem not_mem_beforeBody (line : List Char) : '{' ∉ beforeBody line := by
  intro inside
  have outside := List.all_eq_true.mp List.all_takeWhile '{' inside
  cases outside

theorem not_mem_tidy {character : Char} (noBlank : character ≠ ' ') (absent : character ∉ line) :
    character ∉ tidy line := by
  intro inside
  rcases mem_collapseBlanks inside with blank | within
  · exact noBlank blank
  · exact absent ((List.dropWhile_suffix isBlank).subset ((isPrefix_trimEnd _).subset within))

theorem toList_emptyBody : emptyBody.toList = ' ' :: '{' :: ['}'] := by
  decide

theorem notWord_emptyBody :
    ∀ character, emptyBody.toList.head? = some character → isWord character = false := by
  intro character first
  rw [toList_emptyBody, List.head?_cons, Option.some_inj] at first
  subst first
  decide

theorem toList_blockSignature (line : List Char) :
    (blockSignature line).toList = tidy (beforeBody line) ++ emptyBody.toList := by
  simp [blockSignature]

theorem blockSignature_again (line : List Char) :
    blockSignature (blockSignature line).toList = blockSignature line := by
  have plain : '{' ∉ tidy (beforeBody line) ++ [' '] := by
    rw [List.mem_append, not_or]
    exact ⟨not_mem_tidy (by decide) (not_mem_beforeBody line), by decide⟩
  have cut : beforeBody (blockSignature line).toList = tidy (beforeBody line) ++ [' '] := by
    rw [toList_blockSignature, toList_emptyBody, ← List.singleton_append, ← List.append_assoc,
      beforeBody_append plain]
    exact List.append_nil _
  have blank : AllBlank [' '] := by decide
  rw [blockSignature, cut, tidy_append_of_blank blank]
  rfl

theorem statementSignature_cases (line : List Char) :
    ∃ front, (statementSignature line).toList = front ++ [';'] ∧
      (tidy line = front ++ [';'] ∨ tidy line = front) := by
  rw [statementSignature]
  split
  · next ended =>
      obtain ⟨front, shape⟩ := List.getLast?_eq_some_iff.mp ended
      exact ⟨front, by simpa using shape, .inl shape⟩
  · exact ⟨tidy line, by simp, .inr rfl⟩

theorem exists_ending (line : List Char) :
    ∃ ending, (statementSignature line).toList = tidy line ++ ending := by
  obtain ⟨front, shape, ended | whole⟩ := statementSignature_cases line
  · exact ⟨[], by rw [shape, ended, List.append_nil]⟩
  · exact ⟨[';'], by rw [shape, whole]⟩

theorem statementSignature_again (line : List Char) :
    statementSignature (statementSignature line).toList = statementSignature line := by
  obtain ⟨front, shape, tidied⟩ := statementSignature_cases line
  have kept : tidy (front ++ [';']) = front ++ [';'] := by
    rcases tidied with ended | whole
    · exact tidy_concat ended (by decide)
    · exact tidy_concat (whole.trans (List.append_nil front).symm) (by decide)
  have again : statementSignature (front ++ [';']) = String.ofList (front ++ [';']) := by
    rw [statementSignature, kept]
    exact if_pos List.getLast?_concat
  rw [shape, again, ← shape, String.ofList_toList]

def dropSemicolons (text : List Char) : List Char :=
  (text.reverse.dropWhile (· == ';')).reverse

theorem isPrefix_dropSemicolons (text : List Char) : dropSemicolons text <+: text := by
  have suffix := List.dropWhile_suffix (· == ';') (l := text.reverse)
  rwa [← List.reverse_prefix, List.reverse_reverse] at suffix

theorem dropSemicolons_concat (text : List Char) :
    dropSemicolons (dropSemicolons text ++ [';']) = dropSemicolons text := by
  have stopped := @dropWhile_append (· == ';') [] (text.reverse.dropWhile (· == ';')) (by simp)
    fun _ => eq_false_of_head?_dropWhile
  rw [List.nil_append] at stopped
  simp [dropSemicolons, stopped]

theorem dropSemicolons_append_cons {character : Char} (other : character ≠ ';')
    (text rest : List Char) :
    dropSemicolons (text ++ character :: rest) = text ++ character :: dropSemicolons rest :=
  reverse_dropWhile_append_cons (by simpa using other) text rest

theorem toList_functionSignature (line : List Char) :
    (functionSignature line).toList = dropSemicolons (tidy (beforeBody line)) ++ [';'] := by
  simp [functionSignature, dropSemicolons]

theorem functionSignature_again (line : List Char) :
    functionSignature (functionSignature line).toList = functionSignature line := by
  obtain ⟨dropped, shape⟩ := isPrefix_dropSemicolons (tidy (beforeBody line))
  have kept : tidy (functionSignature line).toList = (functionSignature line).toList := by
    rw [toList_functionSignature]
    exact tidy_concat shape.symm (by decide)
  have plain : '{' ∉ (functionSignature line).toList := by
    rw [toList_functionSignature, List.mem_append, not_or]
    refine ⟨fun inside => ?_, by decide⟩
    exact not_mem_tidy (by decide) (not_mem_beforeBody line)
      ((isPrefix_dropSemicolons _).subset inside)
  have whole : beforeBody (functionSignature line).toList = (functionSignature line).toList := by
    simpa [beforeBody] using beforeBody_append plain []
  rw [← String.toList_inj, toList_functionSignature, whole, kept, toList_functionSignature line,
    dropSemicolons_concat]

/-- A signature is its own signature. -/
theorem signature_again {kind : SymbolKind} (signed : kind ∈ signedKinds) (line : List Char)
    (header other : Header) :
    signature (signature line header kind).toList other kind = signature line header kind := by
  cases kind with
  | classType | interfaceType => exact blockSignature_again line
  | aliasType | constant => exact statementSignature_again line
  | function => exact functionSignature_again line
  | enumType | namespaceScope | structType => simp [signedKinds] at signed

end Fixed

section Collapse

variable {kind : SymbolKind} {name front rest : List Char}

theorem Modifiers.startsSolid {words : List String} {modifiers : List Char}
    (written : Modifiers words modifiers)
    (solid : ∀ word ∈ words, word.toList ≠ [] ∧ Solid word.toList) : StartsSolid modifiers := by
  induction written with
  | nil => exact startsSolid_nil
  | absent written inductionHypothesis =>
      exact inductionHypothesis fun word listed => solid word (List.mem_cons_of_mem _ listed)
  | present blank written inductionHypothesis =>
      obtain ⟨nonempty, solidWord⟩ := solid _ List.mem_cons_self
      exact solidWord.startsSolid_append nonempty

theorem Modifiers.collapseBlanks {words : List String} {modifiers : List Char}
    (written : Modifiers words modifiers)
    (solid : ∀ word ∈ words, word.toList ≠ [] ∧ Solid word.toList) :
    Modifiers words (collapseBlanks modifiers) := by
  induction written with
  | nil => exact .nil
  | absent written inductionHypothesis =>
      exact .absent (inductionHypothesis fun word listed =>
        solid word (List.mem_cons_of_mem _ listed))
  | present blank written inductionHypothesis =>
      rw [List.forall_mem_cons] at solid
      rw [solid.1.2.collapseBlanks_append, collapseBlanks_append (written.startsSolid solid.2)]
      exact .present blank.collapseBlanks (inductionHypothesis solid.2)

theorem Gap.collapseBlanks {gap : List Char} (written : Gap kind gap) :
    Gap kind (collapseBlanks gap) := by
  cases written with
  | blanks noFunction blank => exact .blanks noFunction blank.collapseBlanks
  | plain blank => exact .plain blank.collapseBlanks
  | generator before behind =>
      rw [collapseBlanks_append_cons (by decide)]
      exact .generator before.collapseBlanks behind.collapseBlanks

theorem Parameters.collapseBlanks {parameters : List Char} (written : Parameters parameters) :
    Parameters (collapseBlanks parameters) := by
  cases written with
  | none blank => exact .none blank.collapseBlanks
  | some before closed behind =>
      rw [collapseBlanks_append_cons (by decide), collapseBlanks_append_cons (by decide)]
      refine .some before.collapseBlanks (fun inside => ?_) behind.collapseBlanks
      rcases mem_collapseBlanks inside with blank | within
      · exact absurd blank (by decide)
      · exact closed within

theorem Tail.collapseBlanks {tail : List Char} (written : Tail kind tail) :
    Tail kind (collapseBlanks tail) := by
  cases kind with
  | aliasType | function => exact Parameters.collapseBlanks written
  | constant => exact AllBlank.collapseBlanks written
  | classType | interfaceType | enumType | namespaceScope | structType =>
      obtain rfl : tail = [] := written
      rfl

theorem Opening.collapseBlanks (signed : kind ∈ signedKinds) (opening : Opening kind name front) :
    Opening kind name (collapseBlanks front) := by
  obtain @⟨blanks, modifiers, gap, tail, blank, written, gapped, run, tailed⟩ := opening
  obtain ⟨-, solid⟩ := modifiers_apart signed
  have solidExport : Solid "export".toList := by decide
  have starts : StartsSolid (modifiers ++ (kind.keyword.toList ++ (gap ++ (name ++ tail)))) :=
    (written.goesOnWith (List.prefix_append _ _)).startsSolid solid
  rw [List.forall_mem_append, List.forall_mem_singleton] at solid
  obtain ⟨solidModifiers, nonempty, solidKeyword⟩ := solid
  rw [solidExport.collapseBlanks_append, collapseBlanks_append starts,
    collapseBlanks_append (solidKeyword.startsSolid_append nonempty),
    solidKeyword.collapseBlanks_append, collapseBlanks_append (run.startsSolid tail),
    run.solid.collapseBlanks_append]
  exact .intro blank.collapseBlanks (written.collapseBlanks solidModifiers) gapped.collapseBlanks
    run tailed.collapseBlanks

theorem Opening.startsSolid (opening : Opening kind name front) (rest : List Char) :
    StartsSolid (front ++ rest) := by
  obtain ⟨-, -, -, -, -⟩ := opening
  exact startsSolid_cons.mpr (by decide)

end Collapse

section Signatures

variable {kind : SymbolKind} {name front rest : List Char}

theorem Opening.of_block (block : kind = .classType ∨ kind = .interfaceType)
    (opening : Opening kind name front) :
    '{' ∉ front ∧ ∃ before last, front = before ++ [last] ∧ isBlank last = false := by
  obtain @⟨blanks, modifiers, gap, tail, blank, written, gapped, run, tailed⟩ := opening
  have noTail : tail = [] := by rcases block with rfl | rfl <;> exact tailed
  have separated : IsBlanks gap := by
    cases gapped with
    | blanks _ blank => exact blank
    | plain => rcases block with same | same <;> cases same
    | generator => rcases block with same | same <;> cases same
  have noBlank {text : List Char} (blank : IsBlanks text) : '{' ∉ text := fun inside =>
    absurd (blank.2 _ inside) (by decide)
  have noWord : '{' ∉ name := fun inside => absurd (run.2 _ inside) (by decide)
  have noModifier : '{' ∉ modifiers := by
    intro inside
    rcases written.mem inside with isBlank | ⟨word, listed, within⟩
    · exact absurd isBlank (by decide)
    · revert word
      rcases block with rfl | rfl <;> decide
  have noKeyword : '{' ∉ kind.keyword.toList := by rcases block with rfl | rfl <;> decide
  subst noTail
  refine ⟨?_, ?_⟩
  · simp only [List.mem_append, not_or, List.append_nil]
    exact ⟨by decide, noBlank blank, noModifier, noKeyword, noBlank separated, noWord⟩
  · obtain ⟨start, last, rfl⟩ := (List.eq_nil_or_concat name).resolve_left run.1
    rw [List.concat_eq_append] at run ⊢
    refine ⟨"export".toList ++ (blanks ++ (modifiers ++ (kind.keyword.toList ++ (gap ++ start)))),
      last, by simp, run.solid last (by simp)⟩

theorem notWord_collapse {text closing : List Char}
    (outside : ∀ character, text.head? = some character → isWord character = false)
    (closed : ∀ character, closing.head? = some character → isWord character = false) :
    ∀ character, (collapseBlanks text ++ closing).head? = some character →
      isWord character = false := by
  intro character first
  rw [List.head?_append, head?_collapseBlanks] at first
  cases start : text.head? with
  | none =>
      rw [start] at first
      exact closed character first
  | some original =>
      rw [start, Option.map_some, Option.some_or, Option.some_inj] at first
      subst first
      split
      · decide
      · exact outside original start

theorem head?_of_isPrefix {text start : List Char} (starts : start <+: text) {character : Char}
    (first : start.head? = some character) : text.head? = some character := by
  obtain ⟨rest, rfl⟩ := starts
  rw [List.head?_append, first]
  rfl

/-- A signature starts with the opening of the line, with its white space collapsed. -/
theorem Opening.exists_rest (signed : kind ∈ signedKinds) (opening : Opening kind name front)
    (bodyBehind : kind = .function → '{' ∉ front) (follows : Follows kind rest) (header : Header) :
    ∃ more, Follows kind more ∧
      (signature (front ++ rest) header kind).toList = Text.collapseBlanks front ++ more := by
  have tidied (next : Char) (solid : isBlank next = false) (more : List Char) :
      tidy (front ++ next :: more) =
        Text.collapseBlanks front ++ next :: Text.collapseBlanks (trimEnd more) :=
    tidy_append_cons solid (opening.startsSolid [next]) more
  cases kind with
  | classType | interfaceType =>
      obtain ⟨plain, before, last, rfl, solid⟩ := opening.of_block (by decide)
      refine ⟨Text.collapseBlanks (trimEnd (beforeBody rest)) ++ emptyBody.toList, ?_, ?_⟩
      · refine notWord_collapse (fun character first => follows character ?_) notWord_emptyBody
        exact head?_of_isPrefix ((isPrefix_trimEnd _).trans (List.takeWhile_prefix _)) first
      · have starts : StartsSolid (before ++ [last]) := by
          simpa using opening.startsSolid []
        rw [signature, toList_blockSignature, beforeBody_append plain, List.append_assoc,
          List.singleton_append, tidy_append_cons solid starts, collapseBlanks_append_cons solid,
          collapseBlanks_nil]
        simp
  | aliasType =>
      obtain ⟨more, rfl⟩ := List.head?_eq_some_iff.mp follows
      obtain ⟨ending, shape⟩ := exists_ending (front ++ '=' :: more)
      exact ⟨'=' :: (Text.collapseBlanks (trimEnd more) ++ ending), rfl,
        by rw [signature, shape, tidied '=' (by decide)]; simp⟩
  | constant =>
      obtain ⟨next, more, rfl, solid, sign⟩ : ∃ next more, rest = next :: more ∧
          isBlank next = false ∧ (some next = some '=' ∨ some next = some ':') := by
        rcases follows with equals | colon
        · obtain ⟨more, rfl⟩ := List.head?_eq_some_iff.mp equals
          exact ⟨'=', more, rfl, by decide, .inl rfl⟩
        · obtain ⟨more, rfl⟩ := List.head?_eq_some_iff.mp colon
          exact ⟨':', more, rfl, by decide, .inr rfl⟩
      obtain ⟨ending, shape⟩ := exists_ending (front ++ next :: more)
      exact ⟨next :: (Text.collapseBlanks (trimEnd more) ++ ending), sign,
        by rw [signature, shape, tidied next solid]; simp⟩
  | function =>
      obtain ⟨more, rfl⟩ := List.head?_eq_some_iff.mp follows
      refine ⟨'(' :: (dropSemicolons (Text.collapseBlanks (trimEnd (beforeBody more))) ++ [';']),
        rfl, ?_⟩
      have cut : beforeBody (front ++ '(' :: more) = front ++ '(' :: beforeBody more :=
        beforeBody_append (bodyBehind rfl) ('(' :: more)
      rw [signature, toList_functionSignature, cut, tidied '(' (by decide),
        dropSemicolons_append_cons (by decide)]
      simp
  | enumType | namespaceScope | structType => simp [signedKinds] at signed

theorem symbol?_of_header {line : List Char} {header : Header} (signed : kind ∈ signedKinds)
    (read : headerOfKind? line kind = some header) :
    symbol? line = some (header.symbol kind (signature line header kind)) := by
  obtain ⟨before, after, split⟩ := List.append_of_mem signed
  have order : formOrder = before ++ kind :: (after ++ [.enumType, .structType]) := by
    rw [show formOrder = signedKinds ++ [.enumType, .structType] from rfl, split]
    simp
  have distinct : signedKinds.Nodup := by decide
  rw [symbol?, List.findSome?_eq_some_iff]
  refine ⟨before, kind, _, order, by rw [read]; rfl, fun other earlier => ?_⟩
  rw [split, List.nodup_append] at distinct
  cases otherRead : headerOfKind? line other with
  | none => rfl
  | some found =>
      have same := eq_of_headers otherRead read
      exact absurd same (distinct.2.2 other earlier kind List.mem_cons_self)

/-- The parameter list of an exported function opens before the first brace of its line. -/
def OpensBeforeBody (line : List Char) : Prop :=
  ∃ name front rest, Opening .function name front ∧ line = front ++ '(' :: rest ∧ '{' ∉ front

theorem exists_opening_before_body {line : List Char} {header : Header}
    (signed : kind ∈ signedKinds) (read : headerOfKind? line kind = some header)
    (bodyBehind : kind = .function → OpensBeforeBody line) :
    ∃ front rest, Opening kind header.name front ∧ Follows kind rest ∧ line = front ++ rest ∧
      (kind = .function → '{' ∉ front) := by
  by_cases function : kind = .function
  · subst function
    obtain ⟨name, front, rest, opening, rfl, plain⟩ := bodyBehind rfl
    have follows : Follows .function ('(' :: rest) := rfl
    obtain ⟨found, readAgain, rfl⟩ := opening.exists_header signed follows
    obtain rfl : header = found := Option.some.inj (read.symm.trans readAgain)
    exact ⟨front, _, opening, follows, rfl, fun _ => plain⟩
  · obtain ⟨front, rest, opening, follows, split⟩ := exists_opening signed read
    exact ⟨front, rest, opening, follows, split, fun same => absurd same function⟩

/-- A signature is a declaration of the same name and kind with the same signature. -/
theorem signature_declares_the_same {line : List Char} {symbol : Symbol}
    (read : symbol? line = some symbol)
    (kept : symbol.kind ∈ [.classType, .interfaceType, .aliasType, .constant] ∨
      symbol.kind = .function ∧ OpensBeforeBody line) :
    ∃ signature again, symbol.signature = some signature ∧
      symbol? signature.toList = some again ∧ again.name = symbol.name ∧
      again.kind = symbol.kind ∧ again.signature = some signature := by
  obtain ⟨kind, -, found⟩ := List.exists_of_findSome?_eq_some read
  obtain ⟨header, readHeader, rfl⟩ := Option.map_eq_some_iff.mp found
  change kind ∈ _ ∨ kind = _ ∧ _ at kept
  have signed : kind ∈ signedKinds := by
    rcases kept with listed | ⟨rfl, -⟩
    · have chosen : [.classType, .interfaceType, .aliasType, .constant] ⊆ signedKinds := by decide
      exact chosen listed
    · decide
  have bodyBehind : kind = .function → OpensBeforeBody line := by
    rintro rfl
    exact kept.elim (fun listed => absurd listed (by decide)) And.right
  obtain ⟨front, rest, opening, follows, rfl, plain⟩ :=
    exists_opening_before_body signed readHeader bodyBehind
  obtain ⟨more, followsMore, shape⟩ := opening.exists_rest signed plain follows header
  obtain ⟨other, readOther, same⟩ :=
    (opening.collapseBlanks signed).exists_header signed followsMore
  rw [← shape] at readOther
  refine ⟨_, _, rfl, symbol?_of_header signed readOther, congrArg String.ofList same, rfl, ?_⟩
  exact congrArg some (signature_again signed _ header other)

/-- A generator with type parameters, a body and more white space than it needs. -/
def packLine : List Char :=
  "export  async function *pack<K,  V>( box: Box<K> ) \x7b yield box; \x7d".toList

def packSymbol : Symbol where
  name := "pack"
  kind := .function
  signature := some "export async function *pack<K, V>( box: Box<K> );"
  typeParameters := some "<K,  V>"

theorem pack_signature_declares_pack :
    symbol? packLine = some packSymbol ∧ OpensBeforeBody packLine ∧
      ∃ again, symbol? "export async function *pack<K, V>( box: Box<K> );".toList = some again ∧
        again.name = "pack" ∧ again.kind = .function ∧
        again.signature = some "export async function *pack<K, V>( box: Box<K> );" := by
  have read : symbol? packLine = some packSymbol := by decide +kernel
  have modifiers : Modifiers ["default", "declare", "async"] "async ".toList :=
    .absent (.absent (@Modifiers.present "async" [] [' '] [] (by decide) .nil))
  have gap : Gap .function " *".toList := @Gap.generator [' '] [] (by decide) (by decide)
  have tail : Parameters "<K,  V>".toList :=
    @Parameters.some [] "K,  V".toList [] (by decide) (by decide) (by decide)
  have opening : Opening .function "pack".toList "export  async function *pack<K,  V>".toList :=
    @Opening.intro .function "pack".toList "  ".toList _ _ _ (by decide) modifiers gap
      (by decide) tail
  have opens : OpensBeforeBody packLine :=
    ⟨_, _, " box: Box<K> ) \x7b yield box; \x7d".toList, opening, by decide, by decide⟩
  obtain ⟨signature, again, same, declared⟩ :=
    signature_declares_the_same read (.inr ⟨rfl, opens⟩)
  obtain rfl := Option.some.inj same
  exact ⟨read, opens, again, declared⟩

end Signatures

end AmbientStubs.Export
