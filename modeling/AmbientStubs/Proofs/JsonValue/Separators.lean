import AmbientStubs.Proofs.JsonValue.RoundTrip

/-!
Separators of lines and paragraphs.  The printer writes them as they are, and the reader takes none
of them between quotes, so a printed value is read back exactly if none of its texts and keys holds
one.
-/

namespace AmbientStubs.JsonValue

open Text

theorem Token.quotedPieces?_separator {characters : List Char}
    (separated : '\u2028' ∈ characters ∨ '\u2029' ∈ characters) (steps : Nat) (rest : List Char) :
    quotedPieces? '"' steps (characters.flatMap escaped ++ rest) = none := by
  induction characters generalizing steps with
  | nil => simp at separated
  | cons character more inductionHypothesis =>
      rw [List.flatMap_cons, List.append_assoc]
      cases steps with
      | zero => rw [quotedPieces?]
      | succ steps =>
          by_cases separator : character = '\u2028' ∨ character = '\u2029'
          · rcases separator with rfl | rfl <;> rfl
          · rw [not_or] at separator
            obtain ⟨piece, -, readFirst⟩ := quotedPieces?_escaped separator.1 separator.2
            have later : '\u2028' ∈ more ∨ '\u2029' ∈ more := by
              simpa [Ne.symm separator.1, Ne.symm separator.2] using separated
            rw [readFirst, inductionHypothesis later, Option.map_none]

theorem Token.quoted?_separator {value : String} (separated : ¬ PlainText value)
    (rest : List Char) : quoted? '"' (value.toList.flatMap escaped ++ rest) = none := by
  rw [PlainText, Classical.not_and_iff_not_or_not, Classical.not_not, Classical.not_not]
    at separated
  rw [quoted?, quotedPieces?_separator separated]
  rfl

theorem scans_quoted_separator {value : String} (separated : ¬ PlainText value)
    (rest : List Char) : Scans (quoted value ++ rest) none := by
  intro steps enough
  rw [quoted_append] at enough ⊢
  obtain ⟨steps, rfl⟩ := Nat.exists_eq_add_one_of_ne_zero (Nat.ne_zero_of_lt enough)
  have refused : Token.token? '"' (value.toList.flatMap escaped ++ '"' :: rest) = none :=
    Token.quoted?_separator separated _
  rw [scan?_cons (by decide), Token.isSpace_quote, if_neg Bool.false_ne_true, refused,
    Option.bind_none]

/-- A value that cannot be quoted makes what is printed unreadable, and so does any value in front
of an unreadable text. -/
def Spoils (value : JsonValue) : Prop :=
  ∀ depth rest, Delimited rest → (value.Quotable → Scans rest none) →
    Scans (printOnto depth value rest) none

section Spoiling

variable {rest : List Char} (depth : Nat)

theorem spoils_of_quotable {value : JsonValue} (quotable : value.Quotable)
    (regular : value.Regular) : Spoils value := fun depth rest ends spoilt =>
  printsTokens_of_quotable quotable regular depth rest none ends (spoilt quotable)

theorem scans_punctuation_none {character : Char} {token : Token}
    (mark : Token.punctuation? character = some token) (spoilt : Scans rest none) :
    Scans (character :: rest) none :=
  scans_punctuation mark spoilt

theorem scans_elementsOnto_none {elements : List JsonValue}
    (each : ∀ element ∈ elements, Spoils element) (ends : Delimited rest)
    (spoilt : (∀ element ∈ elements, element.Quotable) → Scans rest none) :
    Scans (elementsOnto depth elements rest) none := by
  induction elements with
  | nil => exact spoilt (by simp)
  | cons element others inductionHypothesis =>
      rw [List.forall_mem_cons] at each
      refine scans_punctuation_none rfl (scans_breakOnto depth ?_)
      refine each.1 depth _ (delimited_elementsOnto ends depth others) fun quotable => ?_
      exact inductionHypothesis each.2 fun others =>
        spoilt (List.forall_mem_cons.2 ⟨quotable, others⟩)

theorem scans_keyOnto_none {key : String} (spoilt : PlainText key → Scans rest none) :
    Scans (keyOnto key rest) none := by
  by_cases plain : PlainText key
  · exact scans_keyOnto plain (spoilt plain)
  · exact scans_quoted_separator plain _

theorem scans_membersOnto_none {members : List (String × JsonValue)}
    (each : ∀ member ∈ members, Spoils member.2) (ends : Delimited rest)
    (spoilt : (∀ member ∈ members, PlainText member.1) → (∀ member ∈ members, member.2.Quotable) →
      Scans rest none) :
    Scans (membersOnto depth members rest) none := by
  induction members with
  | nil => exact spoilt (by simp) (by simp)
  | cons member others inductionHypothesis =>
      obtain ⟨key, value⟩ := member
      rw [List.forall_mem_cons] at each
      refine scans_punctuation_none rfl (scans_breakOnto depth (scans_keyOnto_none fun plain => ?_))
      refine each.1 depth _ (delimited_membersOnto ends depth others) fun quotable => ?_
      exact inductionHypothesis each.2 fun keys others =>
        spoilt (List.forall_mem_cons.2 ⟨plain, keys⟩) (List.forall_mem_cons.2 ⟨quotable, others⟩)

theorem spoils_of_regular {value : JsonValue} (regular : value.Regular) : Spoils value := by
  induction regular with
  | null => exact spoils_of_quotable .null .null
  | boolean value => exact spoils_of_quotable (.boolean value) (.boolean value)
  | integer inRange => exact spoils_of_quotable (.integer _) (.integer inRange)
  | double canonical => exact spoils_of_quotable (.double _) (.double canonical)
  | text value =>
      by_cases plain : PlainText value
      · exact spoils_of_quotable (.text plain) (.text value)
      · exact fun depth rest _ _ => scans_quoted_separator plain rest
  | @list elements each inductionHypothesis =>
      intro depth rest ends spoilt
      cases elements with
      | nil => exact spoils_of_quotable (.list (by simp)) (.list (by simp)) depth rest ends spoilt
      | cons first others =>
          rw [List.forall_mem_cons] at inductionHypothesis
          have broken := delimited_breakOnto depth (']' :: rest)
          refine scans_punctuation_none rfl (scans_breakOnto (depth + 1) ?_)
          refine inductionHypothesis.1 (depth + 1) _
            (delimited_elementsOnto broken (depth + 1) others) fun quotable => ?_
          refine scans_elementsOnto_none (depth + 1) inductionHypothesis.2 broken fun others => ?_
          refine scans_breakOnto depth (scans_punctuation_none rfl ?_)
          exact spoilt (.list (List.forall_mem_cons.2 ⟨quotable, others⟩))
  | @object members distinct each inductionHypothesis =>
      intro depth rest ends spoilt
      cases members with
      | nil =>
          exact spoils_of_quotable (.object (by simp) (by simp)) (.object distinct each) depth rest
            ends spoilt
      | cons member others =>
          obtain ⟨key, value⟩ := member
          rw [List.forall_mem_cons] at inductionHypothesis
          have broken := delimited_breakOnto depth ('\x7d' :: rest)
          refine scans_punctuation_none rfl
            (scans_breakOnto (depth + 1) (scans_keyOnto_none fun plain => ?_))
          refine inductionHypothesis.1 (depth + 1) _
            (delimited_membersOnto broken (depth + 1) others) fun quotable => ?_
          refine scans_membersOnto_none (depth + 1) inductionHypothesis.2 broken
            fun keys others => ?_
          refine scans_breakOnto depth (scans_punctuation_none rfl ?_)
          exact spoilt (.object (List.forall_mem_cons.2 ⟨plain, keys⟩)
            (List.forall_mem_cons.2 ⟨quotable, others⟩))

end Spoiling

/-- What is printed for a value that cannot be quoted is not read. -/
theorem ofText?_pretty_eq_none {value : JsonValue} (regular : value.Regular)
    (separated : ¬ value.Quotable) : ofText? (value.pretty ++ "\n") = none := by
  have scans := spoils_of_regular regular 0 ['\n'] ⟨[], .inr rfl⟩
    fun quotable => absurd quotable separated
  rw [ofText?, toList_line, Token.ofText?, scans _ (Nat.le_refl _)]
  rfl

end AmbientStubs.JsonValue
