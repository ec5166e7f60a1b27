import AmbientStubs.Proofs.Import.Legible
import AmbientStubs.Proofs.Text.Readers

/-!
The grammar of import statements on one line, apart from the reader.  The words `type`, `from`
and `as` are also names, so that a line such as `import type from from 'lib'` has to be read
with care; still no line has two readings, and the reader finds the one there is.
-/

namespace AmbientStubs

open Text

/-- The texts of a clause: entries in braces, `* as name` or a name. -/
inductive ImportClause.WrittenAs : ImportClause → List Char → Prop
  | names {body : List Char} : '}' ∉ body → WrittenAs (.names body) ('{' :: (body ++ ['}']))
  | wholeModule {before behind localName : List Char} :
      IsBlanks before → IsBlanks behind → IsIdentifier (String.ofList localName) →
      WrittenAs (.wholeModule localName)
        ('*' :: (before ++ ("as".toList ++ (behind ++ localName))))
  | defaultExport {name : List Char} :
      IsIdentifier (String.ofList name) → WrittenAs (.defaultExport name) name

namespace ImportStatement

/-- A non-empty specifier between quotes of either kind, and anything behind it. -/
inductive Quotes (path : List Char) : List Char → Prop
  | intro {opening closing : Char} {rest : List Char} :
      isQuote opening = true → isQuote closing = true →
      path ≠ [] → (∀ character ∈ path, isQuote character = false) →
      Quotes path (opening :: (path ++ closing :: rest))

inductive ClauseFrom (clause : ImportClause) (path : List Char) : List Char → Prop
  | intro {text before behind specifier : List Char} :
      clause.WrittenAs text → IsBlanks before → IsBlanks behind → Quotes path specifier →
      ClauseFrom clause path (text ++ (before ++ ("from".toList ++ (behind ++ specifier))))

/-- The lines of a statement: the word `import`, the marker `type` if the statement is for types
only, a clause, the word `from` and a quoted specifier; anything may follow. -/
inductive WrittenAs (statement : ImportStatement) : List Char → Prop
  | unmarked {blanks text : List Char} :
      IsBlanks blanks → statement.typeOnly = false →
      ClauseFrom statement.clause statement.modulePath text →
      WrittenAs statement ("import".toList ++ (blanks ++ text))
  | marked {blanks behind text : List Char} :
      IsBlanks blanks → IsBlanks behind → statement.typeOnly = true →
      ClauseFrom statement.clause statement.modulePath text →
      WrittenAs statement ("import".toList ++ (blanks ++ ("type".toList ++ (behind ++ text))))

inductive EntryWrittenAs (name : List Char) : Option (List Char) → List Char → Prop
  | plain : IsIdentifier (String.ofList name) → EntryWrittenAs name none name
  | aliased {before behind localName : List Char} :
      IsIdentifier (String.ofList name) → IsBlanks before → IsBlanks behind →
      IsIdentifier (String.ofList localName) →
      EntryWrittenAs name (some localName)
        (name ++ (before ++ ("as".toList ++ (behind ++ localName))))

/-- The import of what stands between two commas.  One modifier is taken away, the word `type`
and a space, and it makes the import one for types only. -/
inductive EntryYields (modulePath : String) (typeOnly : Bool) (part : List Char) : Import → Prop
  | plain {name : List Char} {localName : Option (List Char)} :
      ¬"type ".toList <+: trim part → EntryWrittenAs name localName (trim part) →
      EntryYields modulePath typeOnly part
        (.named modulePath (String.ofList name) (localName.map String.ofList) typeOnly)
  | modified {rest name : List Char} {localName : Option (List Char)} :
      trim part = "type ".toList ++ rest → EntryWrittenAs name localName (trim rest) →
      EntryYields modulePath typeOnly part
        (.named modulePath (String.ofList name) (localName.map String.ofList) true)

/-- The imports of all entries, in their order; an entry of no known form is skipped. -/
inductive EntriesYield (modulePath : String) (typeOnly : Bool) :
    List (List Char) → List Import → Prop
  | nil : EntriesYield modulePath typeOnly [] []
  | entry {part : List Char} {parts : List (List Char)} {imported : Import}
      {imports : List Import} :
      EntryYields modulePath typeOnly part imported →
      EntriesYield modulePath typeOnly parts imports →
      EntriesYield modulePath typeOnly (part :: parts) (imported :: imports)
  | skipped {part : List Char} {parts : List (List Char)} {imports : List Import} :
      (∀ imported, ¬EntryYields modulePath typeOnly part imported) →
      EntriesYield modulePath typeOnly parts imports →
      EntriesYield modulePath typeOnly (part :: parts) imports

inductive Yields : ImportStatement → List Import → Prop
  | names {typeOnly : Bool} {path : List Char} {parts : List (List Char)}
      {imports : List Import} :
      parts ≠ [] → (∀ part ∈ parts, ',' ∉ part) →
      EntriesYield (String.ofList path) typeOnly parts imports →
      Yields ⟨typeOnly, .names ([','].intercalate parts), path⟩ imports
  | wholeModule {typeOnly : Bool} {path localName : List Char} :
      Yields ⟨typeOnly, .wholeModule localName, path⟩
        [.wholeModule (String.ofList path) (String.ofList localName) typeOnly]
  | defaultExport {typeOnly : Bool} {path name : List Char} :
      Yields ⟨typeOnly, .defaultExport name, path⟩
        [.defaultExport (String.ofList path) (String.ofList name) typeOnly]

end ImportStatement

namespace ImportClause

theorem WrittenAs.startsSolid {clause : ImportClause} {text : List Char}
    (written : clause.WrittenAs text) (rest : List Char) : StartsSolid (text ++ rest) := by
  cases written with
  | names => exact startsSolid_cons.mpr (by decide)
  | wholeModule => exact startsSolid_cons.mpr (by decide)
  | defaultExport identifier => exact startsSolid_append_of_isIdentifier identifier rest

theorem read?_append {clause : ImportClause} {text blanks : List Char}
    (written : clause.WrittenAs text) (blank : IsBlanks blanks) (rest : List Char) :
    read? (text ++ (blanks ++ rest)) = some (clause, blanks ++ rest) := by
  cases written with
  | @names body closed =>
      have enclosed : enclosed? '{' '}' ('{' :: (body ++ '}' :: (blanks ++ rest))) =
          some (body, blanks ++ rest) :=
        enclosed?_eq_some_iff.mpr ⟨closed, rfl⟩
      simp [read?, enclosed]
  | @wholeModule before behind localName blankBefore blankBehind identifier =>
      have solidName : StartsSolid (localName ++ (blanks ++ rest)) :=
        startsSolid_append_of_isIdentifier identifier _
      have solidWord : StartsSolid ("as".toList ++ (behind ++ (localName ++ (blanks ++ rest)))) :=
        startsSolid_cons.mpr (by decide)
      simp only [List.cons_append, List.append_assoc, read?, blanks?_append blankBefore solidWord,
        keyword?_append blankBehind solidName, run?_identifier_append identifier blank,
        Option.bind_eq_bind, Option.bind_some]
  | defaultExport identifier =>
      have run := run?_identifier_append identifier blank rest
      -- Neither a brace nor a star starts an identifier.
      unfold read?
      split
      · next same =>
          simp [same, run?, show isIdentifier '{' = false by decide] at run
      · next same =>
          simp [same, run?, show isIdentifier '*' = false by decide] at run
      · simp [run]

theorem exists_writtenAs_of_read? {text rest : List Char} {clause : ImportClause}
    (read : read? text = some (clause, rest)) :
    ∃ written, clause.WrittenAs written ∧ text = written ++ rest := by
  unfold read? at read
  split at read
  · obtain ⟨⟨body, after⟩, enclosed, same⟩ := Option.bind_eq_some_iff.mp read
    obtain ⟨rfl, rfl⟩ := Prod.mk.inj (Option.some.inj same)
    obtain ⟨closed, text⟩ := enclosed?_eq_some_iff.mp enclosed
    exact ⟨_, .names closed, by simpa using text⟩
  · obtain ⟨afterBlanks, blanks, read⟩ := Option.bind_eq_some_iff.mp read
    obtain ⟨afterWord, word, read⟩ := Option.bind_eq_some_iff.mp read
    obtain ⟨⟨localName, after⟩, name, same⟩ := Option.bind_eq_some_iff.mp read
    obtain ⟨rfl, rfl⟩ := Prod.mk.inj (Option.some.inj same)
    obtain ⟨before, blankBefore, -, rfl⟩ := blanks?_eq_some_iff.mp blanks
    obtain ⟨behind, blankBehind, -, rfl⟩ := keyword?_eq_some_iff.mp word
    refine ⟨_, .wholeModule blankBefore blankBehind (isIdentifier_run? name), ?_⟩
    simp [(run?_eq_some name).1]
  · obtain ⟨⟨name, after⟩, found, same⟩ := Option.bind_eq_some_iff.mp read
    obtain ⟨rfl, rfl⟩ := Prod.mk.inj (Option.some.inj same)
    exact ⟨name, .defaultExport (isIdentifier_run? found), (run?_eq_some found).1⟩

end ImportClause

namespace ImportStatement

theorem Quotes.startsSolid {path text : List Char} (quoted : Quotes path text) :
    StartsSolid text := by
  obtain ⟨isOpening, -, -, -⟩ := quoted
  rw [isQuote, Bool.or_eq_true, beq_iff_eq, beq_iff_eq] at isOpening
  apply startsSolid_cons.mpr
  rcases isOpening with rfl | rfl <;> decide

theorem Quotes.keyword?_eq_none {path text : List Char} (quoted : Quotes path text) :
    keyword? "from" text = none := by
  rw [Option.eq_none_iff_forall_ne_some]
  intro rest read
  obtain ⟨blanks, -, -, split⟩ := keyword?_eq_some_iff.mp read
  obtain ⟨isOpening, -, -, -⟩ := quoted
  obtain ⟨rfl, -⟩ := List.cons.inj split
  exact absurd isOpening (by decide)

/-- A specifier goes up to the next quote. -/
theorem specifier?_eq_some_iff {text path : List Char} :
    specifier? text = some path ↔ Quotes path text := by
  constructor
  · intro read
    cases text with
    | nil => simp [specifier?] at read
    | cons opening text =>
        rw [specifier?] at read
        split at read
        · next isOpening =>
            split at read
            · next closing rest run =>
                obtain rfl := Option.some.inj read
                obtain ⟨nonempty, inside, outside, rfl⟩ := run?_eq_some_iff.mp run
                exact .intro isOpening (by simpa using outside closing rfl) nonempty
                  (by simpa using inside)
            · contradiction
        · contradiction
  · rintro ⟨isOpening, isClosing, nonempty, inside⟩
    rw [specifier?, if_pos isOpening, run?_append nonempty (by simpa using inside)
      (by simpa using isClosing)]

theorem ClauseFrom.startsSolid {clause : ImportClause} {path text : List Char}
    (ofClause : ClauseFrom clause path text) : StartsSolid text := by
  obtain ⟨written, -, -, -⟩ := ofClause
  exact written.startsSolid _

theorem readClause?_eq_some_iff {typeOnly : Bool} {text : List Char}
    {statement : ImportStatement} :
    readClause? typeOnly text = some statement ↔
      statement.typeOnly = typeOnly ∧ ClauseFrom statement.clause statement.modulePath text := by
  constructor
  · intro read
    obtain ⟨⟨clause, rest⟩, readClause, read⟩ := Option.bind_eq_some_iff.mp read
    obtain ⟨afterBlanks, blanks, read⟩ := Option.bind_eq_some_iff.mp read
    obtain ⟨afterWord, word, read⟩ := Option.bind_eq_some_iff.mp read
    obtain ⟨path, specifier, same⟩ := Option.bind_eq_some_iff.mp read
    obtain rfl := Option.some.inj same
    obtain ⟨written, ofClause, rfl⟩ := ImportClause.exists_writtenAs_of_read? readClause
    obtain ⟨before, blankBefore, -, rfl⟩ := blanks?_eq_some_iff.mp blanks
    obtain ⟨behind, blankBehind, -, rfl⟩ := keyword?_eq_some_iff.mp word
    exact ⟨rfl, .intro ofClause blankBefore blankBehind (specifier?_eq_some_iff.mp specifier)⟩
  · rintro ⟨rfl, ofClause, blankBefore, blankBehind, quoted⟩
    have solidWord (rest : List Char) : StartsSolid ("from".toList ++ rest) :=
      startsSolid_cons.mpr (by decide)
    simp only [readClause?, ImportClause.read?_append ofClause blankBefore,
      blanks?_append blankBefore (solidWord _), keyword?_append blankBehind quoted.startsSolid,
      specifier?_eq_some_iff.mpr quoted, Option.bind_eq_bind, Option.bind_some]

/-- Where a clause follows at once, `type` can only be the name that it binds, and what stands
behind it is no clause. -/
theorem readClause?_eq_none_of_clauseFrom {clause : ImportClause} {path text rest : List Char}
    (ofClause : ClauseFrom clause path text) (marker : keyword? "type" text = some rest) :
    readClause? true rest = none := by
  obtain ⟨blanks, blank, solid, split⟩ := keyword?_eq_some_iff.mp marker
  have word (name : String) (identifier : IsIdentifier name) :
      IsIdentifier (String.ofList name.toList) := by
    rwa [String.ofList_toList]
  have typeRun := run?_identifier_append (word "type" (by decide)) blank rest
  obtain ⟨written, blankBefore, blankBehind, quoted⟩ := ofClause
  rename_i before behind specifier
  cases written with
  | names => simp at split
  | wholeModule => simp at split
  | defaultExport identifier =>
      -- The name is `type`, so that the word `from` comes right after the marker.
      have nameRun := run?_identifier_append identifier blankBefore
        ("from".toList ++ (behind ++ specifier))
      rw [split, typeRun, Option.some.injEq, Prod.mk.injEq] at nameRun
      have solidWord : StartsSolid ("from".toList ++ (behind ++ specifier)) :=
        startsSolid_cons.mpr (by decide)
      have sameRest := blanks?_append blank solid
      rw [nameRun.2, blanks?_append blankBefore solidWord, Option.some.injEq] at sameRest
      have fromRead := ImportClause.read?_append (.defaultExport (word "from" (by decide)))
        blankBehind specifier
      simp only [readClause?, ← sameRest, fromRead, blanks?_append blankBehind quoted.startsSolid,
        quoted.keyword?_eq_none, Option.bind_eq_bind, Option.bind_some, Option.bind_none]

/-- The reader accepts exactly the lines of the grammar, with the reading that they have there. -/
theorem read?_eq_some_iff {line : List Char} {statement : ImportStatement} :
    read? line = some statement ↔ statement.WrittenAs line := by
  constructor
  · intro read
    obtain ⟨rest, word, readRest⟩ := Option.bind_eq_some_iff.mp read
    obtain ⟨blanks, blank, -, rfl⟩ := keyword?_eq_some_iff.mp word
    rw [Option.or_eq_some_iff] at readRest
    rcases readRest with marked | ⟨-, unmarked⟩
    · obtain ⟨after, marker, clause⟩ := Option.bind_eq_some_iff.mp marked
      obtain ⟨behind, blankBehind, -, rfl⟩ := keyword?_eq_some_iff.mp marker
      obtain ⟨typeOnly, ofClause⟩ := readClause?_eq_some_iff.mp clause
      exact .marked blank blankBehind typeOnly ofClause
    · obtain ⟨typeOnly, ofClause⟩ := readClause?_eq_some_iff.mp unmarked
      exact .unmarked blank typeOnly ofClause
  · intro written
    cases written with
    | @unmarked blanks text blank typeOnly ofClause =>
        have read := readClause?_eq_some_iff.mpr ⟨typeOnly, ofClause⟩
        have noMarker : (keyword? "type" text).bind (readClause? true) = none := by
          rw [Option.bind_eq_none_iff]
          exact fun rest => readClause?_eq_none_of_clauseFrom ofClause
        simp only [read?, keyword?_append blank ofClause.startsSolid, Option.bind_eq_bind,
          Option.bind_some, noMarker, Option.none_or, read]
    | @marked blanks behind text blank blankBehind typeOnly ofClause =>
        have read := readClause?_eq_some_iff.mpr ⟨typeOnly, ofClause⟩
        have solidWord : StartsSolid ("type".toList ++ (behind ++ text)) :=
          startsSolid_cons.mpr (by decide)
        simp only [read?, keyword?_append blank solidWord,
          keyword?_append blankBehind ofClause.startsSolid, Option.bind_eq_bind,
          Option.bind_some, read, Option.some_or]

theorem WrittenAs.unique {line : List Char} {first second : ImportStatement}
    (writtenFirst : first.WrittenAs line) (writtenSecond : second.WrittenAs line) :
    first = second := by
  have readFirst := read?_eq_some_iff.mpr writtenFirst
  rw [read?_eq_some_iff.mpr writtenSecond] at readFirst
  exact (Option.some.inj readFirst).symm

theorem nameAndAlias?_eq_some_iff {text name : List Char} {localName : Option (List Char)} :
    nameAndAlias? text = some (name, localName) ↔ EntryWrittenAs name localName text := by
  constructor
  · intro read
    obtain ⟨⟨found, rest⟩, run, readRest⟩ := Option.bind_eq_some_iff.mp read
    have identifier := isIdentifier_run? run
    obtain ⟨-, -, -, rfl⟩ := run?_eq_some_iff.mp run
    dsimp only at readRest
    split at readRest
    · next ended =>
        obtain ⟨rfl, rfl⟩ := Prod.mk.inj (Option.some.inj readRest)
        rw [List.isEmpty_iff.mp ended, List.append_nil]
        exact .plain identifier
    · obtain ⟨afterBlanks, blanks, readWord⟩ := Option.bind_eq_some_iff.mp readRest
      obtain ⟨afterWord, word, readAlias⟩ := Option.bind_eq_some_iff.mp readWord
      obtain ⟨⟨localName, behindAlias⟩, aliasRun, atEnd⟩ := Option.bind_eq_some_iff.mp readAlias
      obtain ⟨before, blankBefore, -, rfl⟩ := blanks?_eq_some_iff.mp blanks
      obtain ⟨behind, blankBehind, -, rfl⟩ := keyword?_eq_some_iff.mp word
      have aliasIdentifier := isIdentifier_run? aliasRun
      obtain ⟨-, -, -, rfl⟩ := run?_eq_some_iff.mp aliasRun
      dsimp only at atEnd
      split at atEnd
      · next ended =>
          obtain ⟨rfl, rfl⟩ := Prod.mk.inj (Option.some.inj atEnd)
          rw [List.isEmpty_iff.mp ended, List.append_nil]
          exact .aliased identifier blankBefore blankBehind aliasIdentifier
      · contradiction
  · intro written
    cases written with
    | plain identifier => simp [nameAndAlias?, run?_identifier_self identifier]
    | @aliased before behind localName identifier blankBefore blankBehind aliasIdentifier =>
        have solidWord : StartsSolid ("as".toList ++ (behind ++ localName)) :=
          startsSolid_cons.mpr (by decide)
        have solidName : StartsSolid localName := by
          simpa using startsSolid_append_of_isIdentifier aliasIdentifier []
        have goesOn : (before ++ ("as".toList ++ (behind ++ localName))).isEmpty = false := by
          simp
        simp only [nameAndAlias?, run?_identifier_append identifier blankBefore, goesOn,
          blanks?_append blankBefore solidWord, keyword?_append blankBehind solidName,
          run?_identifier_self aliasIdentifier, Option.bind_eq_bind, Option.bind_some]
        simp

theorem entryImport?_eq_some_iff {modulePath : String} {typeOnly : Bool} {part : List Char}
    {imported : Import} :
    entryImport? modulePath typeOnly part = some imported ↔
      EntryYields modulePath typeOnly part imported := by
  cases modifier : literal? "type " (trim part) with
  | some rest =>
      have split := literal?_eq_some_iff.mp modifier
      simp only [entryImport?, modifier, Option.map_eq_some_iff, Prod.exists,
        nameAndAlias?_eq_some_iff]
      constructor
      · rintro ⟨name, localName, written, rfl⟩
        exact .modified split written
      · intro yields
        cases yields with
        | plain unmodified => exact absurd ⟨rest, split.symm⟩ unmodified
        | @modified other name localName same written =>
            obtain rfl : rest = other := List.append_cancel_left (split.symm.trans same)
            exact ⟨name, localName, written, rfl⟩
  | none =>
      have unmodified : ¬"type ".toList <+: trim part := by
        rintro ⟨rest, split⟩
        rw [literal?_eq_some_iff.mpr split.symm] at modifier
        contradiction
      simp only [entryImport?, modifier, Option.map_eq_some_iff, Prod.exists,
        nameAndAlias?_eq_some_iff]
      constructor
      · rintro ⟨name, localName, written, rfl⟩
        exact .plain unmodified written
      · intro yields
        cases yields with
        | plain _ written => exact ⟨_, _, written, rfl⟩
        | modified split => exact absurd ⟨_, split.symm⟩ unmodified

theorem entriesYield_filterMap (modulePath : String) (typeOnly : Bool)
    (parts : List (List Char)) :
    EntriesYield modulePath typeOnly parts
      (parts.filterMap (entryImport? modulePath typeOnly)) := by
  induction parts with
  | nil => exact .nil
  | cons part rest inductionHypothesis =>
      cases read : entryImport? modulePath typeOnly part with
      | some imported =>
          rw [List.filterMap_cons_some read]
          exact .entry (entryImport?_eq_some_iff.mp read) inductionHypothesis
      | none =>
          rw [List.filterMap_cons_none read]
          refine .skipped ?_ inductionHypothesis
          intro imported yields
          rw [entryImport?_eq_some_iff.mpr yields] at read
          contradiction

theorem yields_imports (statement : ImportStatement) : statement.Yields statement.imports := by
  obtain ⟨typeOnly, clause, path⟩ := statement
  cases clause with
  | names body =>
      have split := intercalate_pieces ',' body
      have yields := Yields.names (pieces_ne_nil ',' body) (fun part => not_mem_of_mem_pieces)
        (entriesYield_filterMap (String.ofList path) typeOnly (pieces ',' body))
      rwa [split] at yields
  | wholeModule localName => exact .wholeModule
  | defaultExport name => exact .defaultExport

theorem EntriesYield.eq_filterMap {modulePath : String} {typeOnly : Bool}
    {parts : List (List Char)} {imports : List Import}
    (yields : EntriesYield modulePath typeOnly parts imports) :
    imports = parts.filterMap (entryImport? modulePath typeOnly) := by
  induction yields with
  | nil => rfl
  | entry ofEntry _ inductionHypothesis =>
      rw [List.filterMap_cons_some (entryImport?_eq_some_iff.mpr ofEntry), ← inductionHypothesis]
  | @skipped part parts imports nothing _ inductionHypothesis =>
      have unread : entryImport? modulePath typeOnly part = none :=
        Option.eq_none_iff_forall_ne_some.mpr fun imported read =>
          nothing imported (entryImport?_eq_some_iff.mp read)
      rw [List.filterMap_cons_none unread, ← inductionHypothesis]

theorem Yields.eq_imports {statement : ImportStatement} {yielded : List Import}
    (yields : statement.Yields yielded) : yielded = statement.imports := by
  cases yields with
  | names nonempty plain entries =>
      simp only [imports, pieces_intercalate nonempty plain]
      exact entries.eq_filterMap
  | wholeModule => rfl
  | defaultExport => rfl

end ImportStatement

namespace Import

/-- A line imports something only if it is written as a statement, it is so in one way only, and
every statement imports what its clause says. -/
theorem line_imports_exactly_what_its_statement_says (line : List Char) :
    (ofLine line ≠ [] → ∃ statement : ImportStatement, statement.WrittenAs line) ∧
      (∀ first second : ImportStatement,
        first.WrittenAs line → second.WrittenAs line → first = second) ∧
      ∀ statement : ImportStatement,
        statement.WrittenAs line → statement.Yields (ofLine line) := by
  refine ⟨?_, fun first second => ImportStatement.WrittenAs.unique, ?_⟩
  · intro bound
    cases read : ImportStatement.read? line with
    | some statement => exact ⟨statement, ImportStatement.read?_eq_some_iff.mp read⟩
    | none => simp [ofLine, read] at bound
  · intro statement written
    rw [ofLine, ImportStatement.read?_eq_some_iff.mpr written]
    exact statement.yields_imports

/-- The first word is the marker, and the second one is the name. -/
example : ofLine "import type from from 'lib'".toList = [.defaultExport "lib" "from" true] := by
  decide

end Import

end AmbientStubs
