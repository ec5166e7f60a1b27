import AmbientStubs.Proofs.JsonValue.Double

/-!
The tokens of a printed value.  Indentation and line breaks separate tokens and are none
themselves, so a printed value is read as the same tokens at every depth.
-/

namespace AmbientStubs.JsonValue

open Text

/-- Values without doubles whose texts and keys may stand between quotes as they are. -/
inductive Plain : JsonValue → Prop where
  | null : Plain null
  | boolean (value : Bool) : Plain (boolean value)
  | integer (value : Int) : Plain (integer value)
  | text {value : String} (plain : PlainText value) : Plain (text value)
  | list {elements : List JsonValue} (each : ∀ element ∈ elements, Plain element) :
      Plain (list elements)
  | object {members : List (String × JsonValue)} (keys : ∀ member ∈ members, PlainText member.1)
      (each : ∀ member ∈ members, Plain member.2) : Plain (object members)

/-- Values whose texts and keys may stand between quotes as they are. -/
inductive Quotable : JsonValue → Prop where
  | null : Quotable null
  | boolean (value : Bool) : Quotable (boolean value)
  | integer (value : Int) : Quotable (integer value)
  | double (value : Binary64) : Quotable (double value)
  | text {value : String} (plain : PlainText value) : Quotable (text value)
  | list {elements : List JsonValue} (each : ∀ element ∈ elements, Quotable element) :
      Quotable (list elements)
  | object {members : List (String × JsonValue)} (keys : ∀ member ∈ members, PlainText member.1)
      (each : ∀ member ∈ members, Quotable member.2) : Quotable (object members)

theorem Plain.quotable {value : JsonValue} (plain : value.Plain) : value.Quotable := by
  induction plain with
  | null => exact .null
  | boolean value => exact .boolean value
  | integer value => exact .integer value
  | text plain => exact .text plain
  | list _ inductionHypothesis => exact .list inductionHypothesis
  | object keys _ inductionHypothesis => exact .object keys inductionHypothesis

/-- Values that a text can stand for: integers have 64 bits, doubles the form in which they are
read, and the keys of an object are distinct. -/
inductive Regular : JsonValue → Prop where
  | null : Regular null
  | boolean (value : Bool) : Regular (boolean value)
  | integer {value : Int} (inRange : InRange value) : Regular (integer value)
  | double {value : Binary64} (canonical : value.Canonical) : Regular (double value)
  | text (value : String) : Regular (text value)
  | list {elements : List JsonValue} (each : ∀ element ∈ elements, Regular element) :
      Regular (list elements)
  | object {members : List (String × JsonValue)} (distinct : (members.map (·.1)).Nodup)
      (each : ∀ member ∈ members, Regular member.2) : Regular (object members)

mutual

def tokensOf : JsonValue → List Token
  | null => [.name "null" true]
  | boolean true => [.name "true" true]
  | boolean false => [.name "false" true]
  | integer value => [.number (.integer value)]
  | double value => [.number (.double value)]
  | text value => [.text value]
  | list [] => [.openBracket, .closeBracket]
  | list (first :: others) =>
      .openBracket :: (tokensOf first ++ (elementTokens others ++ [.closeBracket]))
  | object [] => [.openBrace, .closeBrace]
  | object ((key, value) :: others) =>
      .openBrace :: .text key :: .colon ::
        (tokensOf value ++ (memberTokens others ++ [.closeBrace]))

def elementTokens : List JsonValue → List Token
  | [] => []
  | value :: others => .comma :: (tokensOf value ++ elementTokens others)

def memberTokens : List (String × JsonValue) → List Token
  | [] => []
  | (key, value) :: others =>
      .comma :: .text key :: .colon :: (tokensOf value ++ memberTokens others)

end

/-- A text is made of the given tokens, or is no sequence of tokens. -/
def Scans (characters : List Char) (tokens : Option (List Token)) : Prop :=
  ∀ steps, characters.length ≤ steps → Token.scan? steps characters = tokens

section Scanning

variable {rest : List Char} {tokens : Option (List Token)}

theorem scan?_cons {character : Char} (noComment : character ≠ '/') (steps : Nat)
    (rest : List Char) :
    Token.scan? (steps + 1) (character :: rest) =
      if Token.isSpace character then Token.scan? steps rest
      else (Token.token? character rest).bind fun found =>
        (Token.scan? steps found.2).map (found.1 :: ·) := by
  rw [Token.scan?.eq_def]
  split
  · contradiction
  · contradiction
  · next same => exact absurd (List.cons.inj same).1 noComment
  · next same => exact absurd (List.cons.inj same).1 noComment
  · next fewer first more _ _ count same =>
      obtain ⟨rfl, rfl⟩ := List.cons.inj same
      obtain rfl := Nat.succ.inj count
      split
      · rfl
      · cases Token.token? character rest with
        | none => rfl
        | some found =>
            obtain ⟨token, after⟩ := found
            cases read : Token.scan? steps after <;> simp [read]

theorem scans_nil : Scans [] (some []) := by
  intro steps _
  cases steps <;> rfl

theorem scans_space {character : Char} (space : Token.isSpace character = true)
    (noComment : character ≠ '/') (scans : Scans rest tokens) :
    Scans (character :: rest) tokens := by
  intro steps enough
  obtain ⟨steps, rfl⟩ := Nat.exists_eq_add_one_of_ne_zero
    (Nat.ne_zero_of_lt (Nat.lt_of_lt_of_le (Nat.zero_lt_succ rest.length) enough))
  rw [scan?_cons noComment, if_pos space]
  exact scans steps (by simpa using enough)

theorem scans_token {character : Char} {token : Token} {text : List Char}
    (visible : Token.isSpace character = false) (noComment : character ≠ '/')
    (read : Token.token? character text = some (token, rest))
    (shorter : rest.length ≤ text.length) (scans : Scans rest tokens) :
    Scans (character :: text) (tokens.map (token :: ·)) := by
  intro steps enough
  obtain ⟨steps, rfl⟩ := Nat.exists_eq_add_one_of_ne_zero
    (Nat.ne_zero_of_lt (Nat.lt_of_lt_of_le (Nat.zero_lt_succ text.length) enough))
  rw [List.length_cons, Nat.add_le_add_iff_right] at enough
  rw [scan?_cons noComment, visible, read, if_neg Bool.false_ne_true, Option.bind_some,
    scans steps (Nat.le_trans shorter enough)]

theorem scans_breakOnto (depth : Nat) (scans : Scans rest tokens) :
    Scans (breakOnto depth rest) tokens := by
  refine scans_space (by decide) (by decide) ?_
  generalize 2 * depth = width
  induction width with
  | zero => exact scans
  | succ width inductionHypothesis =>
      exact scans_space (by decide) (by decide) inductionHypothesis

theorem Token.visible_of_punctuation? {character : Char} {token : Token}
    (mark : punctuation? character = some token) : isSpace character = false ∧ character ≠ '/' := by
  have visible : ∀ first ∈ ['\x7b', '\x7d', '[', ']', ':', ','],
      isSpace first = false ∧ first ≠ '/' := by
    simp only [List.forall_mem_cons, List.not_mem_nil, false_implies, implies_true]
    decide +kernel
  refine visible character ?_
  rw [punctuation?.eq_def] at mark
  split at mark <;> simp at mark ⊢

theorem scans_punctuation {character : Char} {token : Token}
    (mark : Token.punctuation? character = some token) (scans : Scans rest tokens) :
    Scans (character :: rest) (tokens.map (token :: ·)) :=
  have visible := Token.visible_of_punctuation? mark
  scans_token visible.1 visible.2 (by rw [Token.token?, mark]) (Nat.le_refl _) scans

theorem quoted_append (value : String) (rest : List Char) :
    quoted value ++ rest = '"' :: (value.toList.flatMap escaped ++ '"' :: rest) := by
  simp [quoted]

theorem Token.isSpace_quote : isSpace '"' = false := by
  decide +kernel

theorem scans_quoted {value : String} (plain : PlainText value) (scans : Scans rest tokens) :
    Scans (quoted value ++ rest) (tokens.map (.text value :: ·)) := by
  rw [quoted_append]
  refine scans_token Token.isSpace_quote (by decide) (Token.quoted?_quoted plain rest) ?_ scans
  rw [List.length_append, List.length_cons]
  omega

theorem scans_keyOnto {key : String} (plain : PlainText key) (scans : Scans rest tokens) :
    Scans (keyOnto key rest) ((tokens.map (.colon :: ·)).map (.text key :: ·)) := by
  refine scans_quoted plain (scans_punctuation rfl ?_)
  exact scans_space (by decide) (by decide) scans

theorem head_integerText (value : Int) :
    ∃ first more, integerText value = first :: more ∧
      first ∈ ['-', '0', '1', '2', '3', '4', '5', '6', '7', '8', '9'] := by
  unfold integerText
  split
  · exact ⟨'-', _, rfl, List.mem_cons_self⟩
  · obtain ⟨first, more, shape⟩ := List.exists_cons_of_ne_nil
      (Nat.toDigits_ne_nil (n := value.natAbs) (b := 10))
    have digit := Token.isAsciiDigit_of_mem_toDigits
      (show first ∈ Nat.toDigits 10 value.natAbs by rw [shape]; exact List.mem_cons_self)
    exact ⟨first, more, by rw [shape, List.nil_append],
      List.mem_cons_of_mem _ (Token.mem_of_isAsciiDigit digit)⟩

theorem head_doubleText {number : Binary64} (canonical : number.Canonical) :
    ∃ first more, doubleText number = first :: more ∧
      first ∈ ['-', '0', '1', '2', '3', '4', '5', '6', '7', '8', '9'] := by
  obtain ⟨digits, power, same, spelled⟩ := Token.exists_spelled canonical
  obtain ⟨first, more, shape, digit, -⟩ := Token.starts_of_spelled spelled
  rw [doubleText, same]
  dsimp only
  split
  · exact ⟨'-', _, rfl, List.mem_cons_self⟩
  · exact ⟨first, more, shape, List.mem_cons_of_mem _ (Token.mem_of_isAsciiDigit digit)⟩

theorem scans_number {text : List Char} {token : Token}
    (starts : ∃ first more, text = first :: more ∧
      first ∈ ['-', '0', '1', '2', '3', '4', '5', '6', '7', '8', '9'])
    (read : Token.number? (text ++ rest) = some (token, rest)) (scans : Scans rest tokens) :
    Scans (text ++ rest) (tokens.map (token :: ·)) := by
  obtain ⟨first, more, rfl, sign⟩ := starts
  have visible : ∀ first ∈ ['-', '0', '1', '2', '3', '4', '5', '6', '7', '8', '9'],
      Token.isSpace first = false ∧ first ≠ '/' := by
    simp only [List.forall_mem_cons, List.not_mem_nil, false_implies, implies_true]
    decide +kernel
  have numbers : ∀ first ∈ ['-', '0', '1', '2', '3', '4', '5', '6', '7', '8', '9'],
      ∀ text, Token.token? first text = Token.number? (first :: text) := by
    simp only [List.forall_mem_cons]
    exact ⟨fun _ => rfl, fun _ => rfl, fun _ => rfl, fun _ => rfl, fun _ => rfl, fun _ => rfl,
      fun _ => rfl, fun _ => rfl, fun _ => rfl, fun _ => rfl, fun _ => rfl, by simp⟩
  refine scans_token (visible first sign).1 (visible first sign).2
    ((numbers first sign _).trans read) ?_ scans
  show rest.length ≤ (more ++ rest).length
  rw [List.length_append]
  omega

theorem scans_name (ends : Delimited rest) {first : Char} {more : List Char}
    (visible : Token.isSpace first = false ∧ first ≠ '/')
    (starts : ∀ text, Token.token? first text = Token.name? (first :: text))
    (letters : (first :: more).all Token.isNameStart = true) (scans : Scans rest tokens) :
    Scans (first :: more ++ rest)
      (tokens.map (.name (String.ofList (first :: more)) true :: ·)) := by
  have read := Token.name?_append ends (List.cons_ne_nil first more) (List.all_eq_true.mp letters)
  refine scans_token visible.1 visible.2 ((starts _).trans read) ?_ scans
  show rest.length ≤ (more ++ rest).length
  rw [List.length_append]
  omega

theorem delimited_breakOnto (depth : Nat) (rest : List Char) : Delimited (breakOnto depth rest) :=
  ⟨_, .inr rfl⟩

theorem delimited_elementsOnto (ends : Delimited rest) (depth : Nat)
    (elements : List JsonValue) : Delimited (elementsOnto depth elements rest) := by
  cases elements with
  | nil => exact ends
  | cons value others => exact ⟨_, .inl rfl⟩

theorem delimited_membersOnto (ends : Delimited rest) (depth : Nat)
    (members : List (String × JsonValue)) : Delimited (membersOnto depth members rest) := by
  cases members with
  | nil => exact ends
  | cons member others => exact ⟨_, .inl rfl⟩

end Scanning

/-- A value whose printed text is made of its tokens, at every depth and in front of every text
that ends it. -/
def PrintsTokens (value : JsonValue) : Prop :=
  ∀ depth rest tokens, Delimited rest → Scans rest tokens →
    Scans (printOnto depth value rest) (tokens.map (tokensOf value ++ ·))

section Printing

variable {rest : List Char} {tokens : Option (List Token)} (depth : Nat)

theorem scans_elementsOnto {elements : List JsonValue}
    (each : ∀ element ∈ elements, PrintsTokens element) (ends : Delimited rest)
    (scans : Scans rest tokens) :
    Scans (elementsOnto depth elements rest) (tokens.map (elementTokens elements ++ ·)) := by
  induction elements with
  | nil => simpa [elementsOnto, elementTokens] using scans
  | cons element others inductionHypothesis =>
      rw [List.forall_mem_cons] at each
      have after := each.1 depth _ _ (delimited_elementsOnto ends depth others)
        (inductionHypothesis each.2)
      have shown : Scans (',' :: _) _ :=
        scans_punctuation rfl (scans_breakOnto depth after)
      simpa [elementsOnto, elementTokens, Function.comp_def] using shown

theorem scans_membersOnto {members : List (String × JsonValue)}
    (keys : ∀ member ∈ members, PlainText member.1)
    (each : ∀ member ∈ members, PrintsTokens member.2) (ends : Delimited rest)
    (scans : Scans rest tokens) :
    Scans (membersOnto depth members rest) (tokens.map (memberTokens members ++ ·)) := by
  induction members with
  | nil => simpa [membersOnto, memberTokens] using scans
  | cons member others inductionHypothesis =>
      obtain ⟨key, value⟩ := member
      rw [List.forall_mem_cons] at keys each
      have after := each.1 depth _ _ (delimited_membersOnto ends depth others)
        (inductionHypothesis keys.2 each.2)
      have shown : Scans (',' :: _) _ :=
        scans_punctuation rfl (scans_breakOnto depth (scans_keyOnto keys.1 after))
      simpa [membersOnto, memberTokens, Function.comp_def] using shown

/-- A value that may be quoted is printed as its tokens. -/
theorem printsTokens_of_quotable {value : JsonValue} (quotable : value.Quotable)
    (regular : value.Regular) : PrintsTokens value := by
  induction quotable with
  | null =>
      intro depth rest tokens ends scans
      exact scans_name ends (by decide +kernel) (fun _ => rfl) (by decide +kernel) scans
  | boolean value =>
      intro depth rest tokens ends scans
      cases value with
      | true => exact scans_name ends (by decide +kernel) (fun _ => rfl) (by decide +kernel) scans
      | false => exact scans_name ends (by decide +kernel) (fun _ => rfl) (by decide +kernel) scans
  | integer value =>
      intro depth rest tokens ends scans
      cases regular with
      | integer inRange =>
          exact scans_number (head_integerText value) (Token.number?_integerText ends inRange) scans
  | double value =>
      intro depth rest tokens ends scans
      cases regular with
      | double canonical =>
          exact scans_number (head_doubleText canonical) (Token.number?_doubleText ends canonical)
            scans
  | text plain =>
      intro depth rest tokens ends scans
      exact scans_quoted plain scans
  | @list elements each inductionHypothesis =>
      intro depth rest tokens ends scans
      cases regular with
      | list regulars =>
          have printed : ∀ element ∈ elements, PrintsTokens element := fun element inside =>
            inductionHypothesis element inside (regulars element inside)
          have closed : Scans (']' :: rest) (tokens.map (.closeBracket :: ·)) :=
            scans_punctuation rfl scans
          cases elements with
          | nil =>
              have shown : Scans ('[' :: _) _ :=
                scans_punctuation rfl closed
              simpa [printOnto, tokensOf, Function.comp_def] using shown
          | cons first others =>
              rw [List.forall_mem_cons] at printed
              have broken := delimited_breakOnto depth (']' :: rest)
              have after := printed.1 (depth + 1) _ _
                (delimited_elementsOnto broken (depth + 1) others)
                (scans_elementsOnto (depth + 1) printed.2 broken (scans_breakOnto depth closed))
              have shown : Scans ('[' :: _) _ :=
                scans_punctuation rfl (scans_breakOnto (depth + 1) after)
              simpa [printOnto, tokensOf, Function.comp_def] using shown
  | @object members keys each inductionHypothesis =>
      intro depth rest tokens ends scans
      cases regular with
      | object distinct regulars =>
          have printed : ∀ member ∈ members, PrintsTokens member.2 := fun member inside =>
            inductionHypothesis member inside (regulars member inside)
          have closed : Scans ('\x7d' :: rest) (tokens.map (.closeBrace :: ·)) :=
            scans_punctuation rfl scans
          cases members with
          | nil =>
              have shown : Scans ('\x7b' :: _) _ :=
                scans_punctuation rfl closed
              simpa [printOnto, tokensOf, Function.comp_def] using shown
          | cons member others =>
              obtain ⟨key, value⟩ := member
              rw [List.forall_mem_cons] at keys printed
              have broken := delimited_breakOnto depth ('\x7d' :: rest)
              have after := printed.1 (depth + 1) _ _
                (delimited_membersOnto broken (depth + 1) others)
                (scans_membersOnto (depth + 1) keys.2 printed.2 broken
                  (scans_breakOnto depth closed))
              have shown : Scans ('\x7b' :: _) _ :=
                scans_punctuation rfl (scans_breakOnto (depth + 1) (scans_keyOnto keys.1 after))
              simpa [printOnto, tokensOf, Function.comp_def] using shown

end Printing

end AmbientStubs.JsonValue
