import AmbientStubs.Proofs.Access.StrongestUses
import AmbientStubs.Proofs.Catalog
import AmbientStubs.Proofs.SourceSummary
import Mathlib.Data.List.Count
import Mathlib.Data.List.Perm.Subperm

/-!
Accesses against references.  Two scanners go through a line: one counts the imported identifiers
that the line mentions, the other one finds the chains.  A chain may start behind a dollar sign,
which is part of an identifier; everywhere else the base of a chain is an identifier of the line,
so that a file mentions a name at least as often as it is recorded to access its members.
-/

namespace AmbientStubs

open Text

namespace SourceSummary

/-- Somewhere in a text a dollar sign stands before the base of a chain. -/
def DollarPrecedes (base text : List Char) : Prop :=
  '$' :: (base ++ ['.']) <:+: text

instance (base text : List Char) : Decidable (DollarPrecedes base text) :=
  inferInstanceAs (Decidable ('$' :: (base ++ ['.']) <:+: text))

theorem isIdentifier_of_isIdentifierPart {character : Char}
    (part : isIdentifierPart character = true) : isIdentifier character = true := by
  by_cases alphanumeric : isAsciiAlphanumeric character = true
  · exact isIdentifier_of_isAsciiAlphanumeric alphanumeric
  · have other : character = '_' ∨ character = '$' := by
      simp only [isAsciiAlphanumeric, Bool.or_eq_true, not_or] at alphanumeric
      simpa [isIdentifierPart, isIdentifierStart, alphanumeric] using part
    rcases other with rfl | rfl <;> decide

theorem eq_dollar_of_isWord_eq_false {character : Char} (part : isIdentifierPart character = true)
    (noWord : isWord character = false) : character = '$' := by
  have identifier := isIdentifier_of_isIdentifierPart part
  simpa [isIdentifier, noWord] using identifier

theorem isIdentifierPart_of_isAsciiAlphanumeric {character : Char}
    (alphanumeric : isAsciiAlphanumeric character = true) :
    isIdentifierPart character = true := by
  rw [isAsciiAlphanumeric, Bool.or_eq_true] at alphanumeric
  rcases alphanumeric with letter | digit
  · simp [isIdentifierPart, isIdentifierStart, letter]
  · simp [isIdentifierPart, digit]

/-- What is still to be skipped belongs to an identifier that has begun. -/
structure Within (previous : Option Char) (skip : Nat) (text : List Char) : Prop where
  begun : skip ≠ 0 → ∃ character, previous = some character ∧ isIdentifierPart character = true
  inside : skip ≤ (text.takeWhile isIdentifierPart).length

theorem within_zero (previous : Option Char) (text : List Char) : Within previous 0 text :=
  ⟨fun positive => absurd rfl positive, Nat.zero_le _⟩

theorem within_start {first : Char} (start : isIdentifierStart first = true) (rest : List Char) :
    Within (some first) (rest.takeWhile isIdentifierPart).length rest :=
  ⟨fun _ => ⟨first, rfl, by simp [isIdentifierPart, start]⟩, Nat.le_refl _⟩

theorem Within.tail {previous : Option Char} {skip : Nat} {character : Char} {rest : List Char}
    (within : Within previous (skip + 1) (character :: rest)) :
    Within (some character) skip rest := by
  have inside := within.inside
  rw [List.takeWhile_cons] at inside
  split at inside
  · next part =>
      exact ⟨fun _ => ⟨character, rfl, part⟩, Nat.le_of_succ_le_succ inside⟩
  · simp at inside

/-- One character further, what is found is the end of what was found. -/
theorem exists_suffix_scanIdentifiers {previous : Option Char} {skip : Nat} {character : Char}
    {rest : List Char} (within : Within previous skip (character :: rest)) :
    ∃ left, Within (some character) left rest ∧
      scanIdentifiers (some character) left rest <:+
        scanIdentifiers previous skip (character :: rest) := by
  cases skip with
  | succ skip => exact ⟨skip, within.tail, List.suffix_refl _⟩
  | zero =>
      rw [scanIdentifiers]
      split
      · next start =>
          refine ⟨_, within_start start rest, ?_⟩
          dsimp only
          split
          · exact List.suffix_refl _
          · exact List.suffix_cons _ _
      · exact ⟨0, within_zero _ _, List.suffix_refl _⟩

theorem scanIdentifiers_append {previous : Option Char} {first : Char} {tail rest : List Char}
    (start : isIdentifierStart first = true)
    (inside : ∀ character ∈ tail, isIdentifierPart character = true)
    (outside : ∀ character, rest.head? = some character → isIdentifierPart character = false)
    (noDot : previous ≠ some '.') :
    scanIdentifiers previous 0 (first :: (tail ++ rest)) =
      (first :: tail) :: scanIdentifiers (some first) tail.length (tail ++ rest) := by
  rw [scanIdentifiers, if_pos start]
  dsimp only
  rw [if_neg noDot, takeWhile_append inside outside]

/-- A class name before a dot is found where no identifier is under way and no dot precedes. -/
theorem exists_scanIdentifiers_className {previous : Option Char} {skip : Nat} {first : Char}
    {tail more : List Char} (isUpper : isAsciiUpper first = true)
    (alphanumeric : ∀ character ∈ tail, isAsciiAlphanumeric character = true)
    (within : Within previous skip (first :: (tail ++ '.' :: more)))
    (apart : ∀ character, previous = some character →
      isIdentifierPart character = false ∧ character ≠ '.') :
    ∃ left, Within (some first) left (tail ++ '.' :: more) ∧
      scanIdentifiers previous skip (first :: (tail ++ '.' :: more)) =
        (first :: tail) :: scanIdentifiers (some first) left (tail ++ '.' :: more) := by
  have start : isIdentifierStart first = true := by
    simp [isIdentifierStart, isAsciiLetter, isUpper]
  have inside : ∀ character ∈ tail, isIdentifierPart character = true :=
    fun character listed => isIdentifierPart_of_isAsciiAlphanumeric (alphanumeric character listed)
  have outside : ∀ character, ('.' :: more).head? = some character →
      isIdentifierPart character = false := by
    rintro character ⟨⟩
    decide
  obtain rfl : skip = 0 := by
    cases skip with
    | zero => rfl
    | succ skip =>
        obtain ⟨character, same, part⟩ := within.begun (by simp)
        simp [(apart character same).1] at part
  refine ⟨tail.length, ?_, ?_⟩
  · have withinTail := within_start start (tail ++ '.' :: more)
    rwa [takeWhile_append inside outside] at withinTail
  · exact scanIdentifiers_append start inside outside fun same => (apart '.' same).2 rfl

theorem isIdentifierPart_eq_false_of_at? {before text : List Char} {chain : Chain}
    (found : Chain.at? before text = some chain)
    (plain : ¬DollarPrecedes chain.base (before.reverse ++ text)) {previous : Char}
    (last : before.head? = some previous) : isIdentifierPart previous = false := by
  obtain ⟨first, tail, more, rfl, base, -, -, wordStart⟩ := Chain.exists_split_of_at? found
  cases part : isIdentifierPart previous with
  | false => rfl
  | true =>
      have dollar := eq_dollar_of_isWord_eq_false part (wordStart previous last)
      obtain ⟨earlier, rfl⟩ := List.head?_eq_some_iff.mp last
      exact absurd ⟨earlier.reverse, more, by simp [dollar, base]⟩ plain

/-- Where a chain starts, the other scanner finds its base. -/
theorem exists_scanIdentifiers_of_at? {before rest : List Char} {character : Char} {skip : Nat}
    {chain : Chain} (found : Chain.at? before (character :: rest) = some chain)
    (noDot : before.head? ≠ some '.') (within : Within before.head? skip (character :: rest))
    (plain : ¬DollarPrecedes chain.base (before.reverse ++ character :: rest)) :
    ∃ left, Within (some character) left rest ∧
      scanIdentifiers before.head? skip (character :: rest) =
        chain.base :: scanIdentifiers (some character) left rest := by
  have apart : ∀ previous, before.head? = some previous →
      isIdentifierPart previous = false ∧ previous ≠ '.' := fun previous last =>
    ⟨isIdentifierPart_eq_false_of_at? found plain last, fun isDot => noDot (isDot ▸ last)⟩
  obtain ⟨first, tail, more, text, base, isUpper, inside, -⟩ := Chain.exists_split_of_at? found
  obtain ⟨rfl, rfl⟩ := List.cons.inj text
  rw [base]
  exact exists_scanIdentifiers_className isUpper inside within apart

/-- Both scanners go on together: each chain with a base has its own identifier, unless a dollar
sign stands before that base. -/
theorem count_base_scan_le {base : List Char} (before : List Char) {tokenSkip : Nat}
    {text : List Char} (within : Within before.head? tokenSkip text)
    (plain : ¬DollarPrecedes base (before.reverse ++ text)) (skip : Nat) :
    ((Chain.scan before skip text).map (·.base)).count base ≤
      (scanIdentifiers before.head? tokenSkip text).count base := by
  induction text generalizing before tokenSkip skip with
  | nil => simp [Chain.scan]
  | cons character rest inductionHypothesis =>
      have plainBehind : ¬DollarPrecedes base ((character :: before).reverse ++ rest) := by
        simpa using plain
      -- Going on by one character loses no identifier that is still to come.
      have advance (skip : Nat) :
          ((Chain.scan (character :: before) skip rest).map (·.base)).count base ≤
            (scanIdentifiers before.head? tokenSkip (character :: rest)).count base := by
        obtain ⟨left, withinRest, suffix⟩ := exists_suffix_scanIdentifiers within
        exact Nat.le_trans (inductionHypothesis (character :: before) withinRest plainBehind skip)
          (suffix.sublist.count_le base)
      cases skip with
      | succ skip =>
          rw [Chain.scan]
          exact advance skip
      | zero =>
          rw [Chain.scan]
          split
          · exact advance 0
          · next chain found =>
              dsimp only
              split
              · exact advance _
              · next noDot =>
                  rw [List.map_cons]
                  by_cases same : chain.base = base
                  · subst same
                    obtain ⟨left, withinRest, scanned⟩ :=
                      exists_scanIdentifiers_of_at? found noDot within plain
                    rw [scanned, List.count_cons_self, List.count_cons_self]
                    exact Nat.succ_le_succ
                      (inductionHypothesis (character :: before) withinRest plainBehind _)
                  · rw [List.count_cons_of_ne same]
                    exact advance _

theorem count_map_ofList (texts : List (List Char)) (name : String) :
    (texts.map String.ofList).count name = texts.count name.toList := by
  have injective : Function.Injective String.ofList := fun _ _ => String.ofList_injective
  have counted := List.count_map_of_injective texts String.ofList injective name.toList
  rwa [String.ofList_toList] at counted

theorem count_base_ofLine_le {base : String} {line : List Char}
    (plain : ¬DollarPrecedes base.toList line) :
    (((Chain.ofLine line).map (·.base)).map String.ofList).count base ≤
      (identifiers line).count base := by
  rw [identifiers, count_map_ofList, count_map_ofList]
  exact count_base_scan_le [] (within_zero _ _) plain 0

end SourceSummary

namespace Access

theorem countP_settle_le {uses : List Access}
    (known : ∀ use ∈ uses, use.context ∈ AccessContext.byStrength) (counted : Access → Bool) :
    (settle uses).countP counted ≤ uses.countP counted := by
  have settled := settled_settle known
  exact (List.subperm_of_subset settled.nodup settled.ofUse).countP_le counted

/-- A line has at least as many identifiers with an imported name as accesses with that base. -/
theorem countP_ofLine_le (reserved : List String) (imports : List Import) {line : List Char}
    {base : String} (plain : ¬SourceSummary.DollarPrecedes base.toList line) :
    (ofLine reserved imports line).countP (·.base == base) ≤
      ((SourceSummary.identifiers line).filter fun identifier =>
        (Import.binding? imports identifier).isSome).count base := by
  refine Nat.le_trans (countP_settle_le context_mem_of_mem_occurrences _) ?_
  rw [occurrences, List.countP_filter, List.countP_map]
  by_cases bound : (Import.binding? imports base).isSome = true
  · have counted : ((SourceSummary.identifiers line).filter fun identifier =>
        (Import.binding? imports identifier).isSome).count base =
          (SourceSummary.identifiers line).count base :=
      List.count_filter bound
    rw [counted]
    refine Nat.le_trans ?_ (SourceSummary.count_base_ofLine_le plain)
    rw [List.map_map, List.count, List.countP_map]
    apply List.countP_mono_left
    intro chain _
    simp +contextual [Chain.base_access]
  · -- No access of the line has a base that is not bound.
    refine Nat.le_trans (Nat.le_of_eq (List.countP_eq_zero.mpr ?_)) (Nat.zero_le _)
    intro chain _ counted
    simp only [Function.comp_apply, Bool.and_eq_true, beq_iff_eq] at counted
    exact bound (counted.1 ▸ counted.2)

end Access

namespace SourceSummary

theorem ascending_foldl_countReference {references : Catalog Nat}
    (ascending : references.Ascending) (identifiers : List String) :
    (identifiers.foldl countReference references).Ascending := by
  induction identifiers generalizing references with
  | nil => exact ascending
  | cons identifier rest inductionHypothesis => exact inductionHypothesis (ascending.alter _ _)

theorem ascending_addLine {summary : SourceSummary} (ascending : summary.references.Ascending)
    (reserved : List String) (line : List Char) :
    (summary.addLine reserved line).references.Ascending := by
  unfold addLine
  split
  · exact ascending
  · dsimp only
    split
    · exact ascending_foldl_countReference ascending _
    · exact ascending

theorem ascending_ofText (reserved : List String) (path content : String) :
    (ofText reserved path content).references.Ascending := by
  have ascending (summary : SourceSummary) (start : summary.references.Ascending)
      (lines : List (List Char)) :
      (lines.foldl (addLine reserved) summary).references.Ascending := by
    induction lines generalizing summary with
    | nil => exact start
    | cons line rest inductionHypothesis =>
        exact inductionHypothesis _ (ascending_addLine start reserved line)
  exact ascending _ Catalog.ascending_empty _

theorem getD_foldl_countReference {references : Catalog Nat} (ascending : references.Ascending)
    (identifiers : List String) (sought : String) :
    ((identifiers.foldl countReference references).get? sought).getD 0 =
      (references.get? sought).getD 0 + identifiers.count sought := by
  induction identifiers generalizing references with
  | nil => rfl
  | cons identifier rest inductionHypothesis =>
      rw [List.foldl_cons, countReference, inductionHypothesis (ascending.alter _ _),
        Catalog.get?_alter ascending]
      by_cases same : sought = identifier
      · subst same
        simp only [if_true, Option.getD_some, List.count_cons_self]
        omega
      · rw [if_neg same, List.count_cons_of_ne (Ne.symm same)]

/-- The references to a name cover the accesses that have it as their base. -/
structure Accounted (base : String) (summary : SourceSummary) : Prop where
  ascending : summary.references.Ascending
  enough : (summary.accessesOf base).length ≤ (summary.references.get? base).getD 0

theorem Accounted.addUses {base : String} {summary : SourceSummary}
    (accounted : summary.Accounted base) (reserved : List String) {line : List Char}
    (plain : ¬DollarPrecedes base.toList line) :
    (summary.addUses reserved line).Accounted base := by
  refine ⟨ascending_foldl_countReference accounted.ascending _, ?_⟩
  have before := accounted.enough
  have onLine := Access.countP_ofLine_le reserved summary.imports plain
  simp only [SourceSummary.addUses, countReferences, addAccesses, accessesOf, binding?,
    List.filter_append, List.length_append, List.countP_eq_length_filter,
    getD_foldl_countReference accounted.ascending] at before onLine ⊢
  omega

theorem Accounted.addLine {base : String} {summary : SourceSummary}
    (accounted : summary.Accounted base) (reserved : List String) {line : List Char}
    (plain : ¬DollarPrecedes base.toList line) :
    (summary.addLine reserved line).Accounted base := by
  unfold SourceSummary.addLine
  split
  · exact accounted
  · have imported : SourceSummary.Accounted base { summary with
        imports := summary.imports ++ Import.ofLine line
        exports := summary.exports ++ (Export.symbol? line).toList } :=
      ⟨accounted.ascending, accounted.enough⟩
    dsimp only
    split
    · exact imported.addUses reserved plain
    · exact imported

theorem Accounted.foldl_addLine {base : String} {summary : SourceSummary}
    (accounted : summary.Accounted base) (reserved : List String) {lines : List (List Char)}
    (plain : ∀ line ∈ lines, ¬DollarPrecedes base.toList line) :
    (lines.foldl (SourceSummary.addLine reserved) summary).Accounted base := by
  induction lines generalizing summary with
  | nil => exact accounted
  | cons line rest inductionHypothesis =>
      rw [List.forall_mem_cons] at plain
      exact inductionHypothesis (accounted.addLine reserved plain.1) plain.2

theorem infix_of_mem_lines {content line : List Char} (membership : line ∈ lines content) :
    line <:+: content := by
  obtain ⟨piece, listed, rfl⟩ := List.mem_map.mp membership
  have atEnd : trim piece <+: trimStart piece := by
    rw [trim, trimEnd, ← List.reverse_suffix, List.reverse_reverse]
    exact List.dropWhile_suffix _
  exact atEnd.isInfix.trans
    ((List.dropWhile_suffix isBlank).isInfix.trans (infix_of_mem_pieces listed))

/-- Where no dollar sign stands before a base, the accesses with that base have identifiers of
their own: on every line, and so in the whole file, at least as many references are counted. -/
theorem accesses_are_references_unless_a_dollar_precedes (reserved : List String)
    (path content base : String) (plain : ¬DollarPrecedes base.toList content.toList) :
    (∀ line ∈ lines content.toList, ∀ imports : List Import,
      (Access.ofLine reserved imports line).countP (·.base == base) ≤
        ((identifiers line).filter fun identifier =>
          (Import.binding? imports identifier).isSome).count base) ∧
      ((ofText reserved path content).accessesOf base).length ≤
        ((ofText reserved path content).references.get? base).getD 0 := by
  have plainLines : ∀ line ∈ lines content.toList, ¬DollarPrecedes base.toList line :=
    fun line listed onLine => plain (onLine.trans (infix_of_mem_lines listed))
  have empty : SourceSummary.Accounted base { path := path } :=
    ⟨Catalog.ascending_empty, Nat.zero_le _⟩
  exact ⟨fun line listed imports => Access.countP_ofLine_le reserved imports (plainLines line listed),
    (empty.foldl_addLine reserved plainLines).enough⟩

/-- The variable is another one, and the member is not counted. -/
theorem box_accesses_are_references :
    let content := "import Box from 'lib';\nlet $Box = new Box.Lid(Box.size), size = this.Box.size;"
    ¬DollarPrecedes "Box".toList content.toList ∧
      ((ofText [] "box.ets" content).accessesOf "Box").length = 2 ∧
      2 ≤ ((ofText [] "box.ets" content).references.get? "Box").getD 0 := by
  intro content
  have plain : ¬DollarPrecedes "Box".toList content.toList := by decide +kernel
  have accesses : ((ofText [] "box.ets" content).accessesOf "Box").length = 2 := by
    decide +kernel
  refine ⟨plain, accesses, ?_⟩
  have enough := (accesses_are_references_unless_a_dollar_precedes [] "box.ets" content "Box"
    plain).2
  rwa [accesses] at enough

/-- The identifier of the second line is `$Box`, and still the chain in it is recorded. -/
theorem box_is_accessed_behind_a_dollar_without_a_reference :
    let summary := ofText [] "box.ets" "import Box from 'lib';\n$Box.open();"
    (summary.accessesOf "Box").map (·.path) = ["Box.open"] ∧
      (summary.references.get? "Box").getD 0 < (summary.accessesOf "Box").length := by
  decide +kernel

end SourceSummary

end AmbientStubs
