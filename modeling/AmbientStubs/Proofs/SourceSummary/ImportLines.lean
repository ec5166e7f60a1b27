import AmbientStubs.Proofs.Import.Grammar
import AmbientStubs.Proofs.SourceSummary.References

/-!
Import statements among the lines of a file.  A statement that binds a name is no use of any name,
whatever its specifier looks like.  A statement that binds nothing, because it has no clause, an
empty one or one of a form that is not read, goes through the scanners like any other line: its
identifiers and chains count as uses of what the file has bound before it.
-/

namespace AmbientStubs

open Text

namespace Import

inductive IsQuoted : List Char → Prop
  | intro (quote : Char) (specifier : List Char) :
      ImportStatement.isQuote quote = true → quote ∉ specifier →
      IsQuoted (quote :: (specifier ++ [quote]))

/-- The import statements of the language, whatever stands in their clause: the word `import`, a
clause and the word `from` unless the module is only loaded, a quoted specifier and perhaps a
semicolon. -/
inductive IsStatement : List Char → Prop
  | load (blanks quoted ending : List Char) :
      IsBlanks blanks → IsQuoted quoted → ending ∈ [[], [';']] →
      IsStatement ("import".toList ++ (blanks ++ (quoted ++ ending)))
  | clause (blanks clause between quoted ending : List Char) :
      IsBlanks blanks → between.all isBlank = true → IsQuoted quoted → ending ∈ [[], [';']] →
      IsStatement
        ("import".toList ++
          (blanks ++ (clause ++ ("from".toList ++ (between ++ (quoted ++ ending))))))

theorem IsStatement.exists_eq_append {line : List Char} (statement : IsStatement line) :
    ∃ blanks rest, IsBlanks blanks ∧ line = "import".toList ++ (blanks ++ rest) := by
  cases statement with
  | load _ _ _ blank => exact ⟨_, _, blank, rfl⟩
  | clause _ _ _ _ _ blank => exact ⟨_, _, blank, rfl⟩

def BindsName (line : List Char) : Prop :=
  ∃ (statement : ImportStatement) (imports : List Import),
    statement.WrittenAs line ∧ statement.Yields imports ∧ imports ≠ []

theorem ofLine_ne_nil_iff {line : List Char} : ofLine line ≠ [] ↔ BindsName line := by
  constructor
  · intro bound
    cases read : ImportStatement.read? line with
    | none => simp [ofLine, read] at bound
    | some statement =>
        refine ⟨statement, statement.imports, ImportStatement.read?_eq_some_iff.mp read,
          statement.yields_imports, ?_⟩
        simpa [ofLine, read] using bound
  · rintro ⟨statement, imports, written, yields, nonempty⟩
    rw [yields.eq_imports] at nonempty
    rwa [ofLine, ImportStatement.read?_eq_some_iff.mpr written]

end Import

namespace SourceSummary

theorem ofText_append_line (reserved : List String) (path front : String) {line : String}
    (single : SingleLine line) :
    ofText reserved path (front ++ "\n" ++ line) =
      (ofText reserved path front).addLine reserved (trim line.toList) := by
  have split : (front ++ "\n" ++ line).toList = front.toList ++ '\n' :: line.toList := by simp
  rw [ofText, ofText, lines, lines, split, pieces_append, pieces_of_not_mem single, List.map_append,
    List.foldl_append]
  rfl

theorem addLine_of_binds {line : List Char} (bound : Import.ofLine line ≠ [])
    (reserved : List String) (summary : SourceSummary) :
    (summary.addLine reserved line).accesses = summary.accesses ∧
      (summary.addLine reserved line).references = summary.references := by
  have nonempty : (Import.ofLine line).isEmpty = false := by simpa using bound
  unfold addLine
  split
  · exact ⟨rfl, rfl⟩
  · simp [nonempty]

theorem mem_identifiers_import {blanks rest : List Char} (blank : IsBlanks blanks) :
    "import" ∈ identifiers ("import".toList ++ (blanks ++ rest)) := by
  obtain ⟨nonempty, all⟩ := blank
  have outside : ∀ character, (blanks ++ rest).head? = some character →
      isIdentifierPart character = false := by
    cases blanks with
    | nil => exact absurd rfl nonempty
    | cons first more =>
        rintro character ⟨⟩
        have foreign := isIdentifier_eq_false_of_isBlank (all first List.mem_cons_self)
        cases part : isIdentifierPart first with
        | false => rfl
        | true => simp [isIdentifier_of_isIdentifierPart part] at foreign
  have found : scanIdentifiers none 0 ('i' :: ("mport".toList ++ (blanks ++ rest))) = _ :=
    scanIdentifiers_append (by decide) (List.all_eq_true.mp (by decide)) outside (by simp)
  refine List.mem_map.mpr ⟨"import".toList, ?_, String.ofList_toList⟩
  change _ ∈ scanIdentifiers none 0 ('i' :: ("mport".toList ++ (blanks ++ rest)))
  rw [found]
  exact List.mem_cons_self

theorem isEmpty_isComment_of_isStatement {line : List Char}
    (statement : Import.IsStatement line) : (line.isEmpty || isComment line) = false := by
  obtain ⟨blanks, rest, -, rfl⟩ := statement.exists_eq_append
  rfl

/-- The uses on a line of code that binds nothing are those of the names bound before it. -/
theorem addLine_of_bindsNothing {line : List Char} (code : (line.isEmpty || isComment line) = false)
    (bindsNothing : Import.ofLine line = []) {summary : SourceSummary}
    (ascending : summary.references.Ascending) (reserved : List String) :
    (summary.addLine reserved line).accesses =
        summary.accesses ++ Access.ofLine reserved summary.imports line ∧
      ∀ identifier, ((summary.addLine reserved line).references.get? identifier).getD 0 =
        (summary.references.get? identifier).getD 0 +
          if (summary.binding? identifier).isSome then (identifiers line).count identifier
          else 0 := by
  refine ⟨by simp [addLine, code, bindsNothing, addUses, addAccesses, countReferences], ?_⟩
  intro identifier
  have counted : (summary.addLine reserved line).references =
      ((identifiers line).filter fun identifier =>
        (summary.binding? identifier).isSome).foldl countReference summary.references := by
    simp [addLine, code, bindsNothing, addUses, addAccesses, countReferences, binding?]
  rw [counted, getD_foldl_countReference ascending]
  split
  · next bound => rw [List.count_filter (by simpa using bound)]
  · next unbound => rw [List.count_eq_zero_of_not_mem (by simp [unbound])]

/-- An import statement leaves the accesses and the references of every file as they are exactly
if it is of a form that is read and binds at least one name.  One that binds nothing adds the
accesses that its text shows to the imports before it, and as many references to each name that
they bind as it has identifiers of that name. -/
theorem import_line_is_no_use_exactly_if_it_binds_a_name {line : String}
    (single : SingleLine line) (statement : Import.IsStatement (trim line.toList)) :
    ((∀ (reserved : List String) (path front : String),
      (ofText reserved path (front ++ "\n" ++ line)).accesses =
          (ofText reserved path front).accesses ∧
        (ofText reserved path (front ++ "\n" ++ line)).references =
          (ofText reserved path front).references) ↔
      Import.BindsName (trim line.toList)) ∧
    (¬ Import.BindsName (trim line.toList) →
      ∀ (reserved : List String) (path front : String),
        (ofText reserved path (front ++ "\n" ++ line)).accesses =
          (ofText reserved path front).accesses ++
            Access.ofLine reserved (ofText reserved path front).imports (trim line.toList) ∧
        ∀ identifier,
          ((ofText reserved path (front ++ "\n" ++ line)).references.get? identifier).getD 0 =
            ((ofText reserved path front).references.get? identifier).getD 0 +
              if ((ofText reserved path front).binding? identifier).isSome then
                (identifiers (trim line.toList)).count identifier
              else 0) := by
  have code := isEmpty_isComment_of_isStatement statement
  have uses (silent : ¬ Import.BindsName (trim line.toList)) (reserved : List String)
      (path front : String) :=
    ofText_append_line reserved path front single ▸
      addLine_of_bindsNothing code (not_not.mp (Import.ofLine_ne_nil_iff.not.mpr silent))
        (ascending_ofText reserved path front) reserved
  refine ⟨⟨fun unchanged => ?_, fun binds reserved path front => ?_⟩, uses⟩
  · -- The line mentions the word `import`, which the line before it may bind.
    by_contra silent
    obtain ⟨blanks, rest, blank, split⟩ := statement.exists_eq_append
    have mentioned : "import" ∈ identifiers (trim line.toList) := by
      rw [split]
      exact mem_identifiers_import blank
    have positive := List.count_pos_iff.mpr mentioned
    have more := (uses silent [] "a.ets" "import import from 'lib'").2 "import"
    rw [(unchanged [] "a.ets" "import import from 'lib'").2, if_pos (by decide +kernel)] at more
    omega
  · rw [ofText_append_line reserved path front single]
    exact addLine_of_binds (Import.ofLine_ne_nil_iff.mpr binds) reserved _

/-- The specifier looks like an access to what the line itself binds; the module of the second
line is only loaded, and its specifier counts for a file that binds the name. -/
theorem specifier_of_box_js_counts_only_where_nothing_is_bound :
    let line := "  import Box from 'Box.js';"
    let load := "import 'Box.js';"
    (SingleLine line ∧ Import.IsStatement (trim line.toList) ∧
      ∀ (reserved : List String) (path front : String),
        (ofText reserved path (front ++ "\n" ++ line)).accesses =
            (ofText reserved path front).accesses ∧
          (ofText reserved path (front ++ "\n" ++ line)).references =
            (ofText reserved path front).references) ∧
    SingleLine load ∧ Import.IsStatement (trim load.toList) ∧
      ∀ (reserved : List String) (path front : String),
        ((ofText reserved path (front ++ "\n" ++ load)).references.get? "Box").getD 0 =
          ((ofText reserved path front).references.get? "Box").getD 0 +
            if ((ofText reserved path front).binding? "Box").isSome then 1 else 0 := by
  intro line load
  have quoted : Import.IsQuoted "'Box.js'".toList :=
    .intro '\'' "Box.js".toList (by decide) (by decide)
  have single : SingleLine line ∧ SingleLine load := by decide
  have statement : Import.IsStatement (trim line.toList) := by
    have trimmed : trim line.toList = "import Box from 'Box.js';".toList := by decide
    rw [trimmed]
    exact .clause " ".toList "Box ".toList " ".toList _ ";".toList (by decide) (by decide) quoted
      (by decide)
  have loadStatement : Import.IsStatement (trim load.toList) := by
    have trimmed : trim load.toList = "import 'Box.js';".toList := by decide
    rw [trimmed]
    exact .load " ".toList _ ";".toList (by decide) quoted (by decide)
  have binds : Import.BindsName (trim line.toList) :=
    Import.ofLine_ne_nil_iff.mp (by decide)
  have silent : ¬ Import.BindsName (trim load.toList) :=
    Import.ofLine_ne_nil_iff.not.mp (by decide)
  have once : (identifiers (trim load.toList)).count "Box" = 1 := by decide
  refine ⟨⟨single.1, statement,
    (import_line_is_no_use_exactly_if_it_binds_a_name single.1 statement).1.mpr binds⟩,
    single.2, loadStatement, fun reserved path front => ?_⟩
  have counted := ((import_line_is_no_use_exactly_if_it_binds_a_name single.2 loadStatement).2
    silent reserved path front).2 "Box"
  rwa [once] at counted

/-- A module that is only loaded, and one from which nothing is imported. -/
theorem specifier_of_box_js_is_taken_for_an_access :
    Import.IsStatement "import 'Box.js';".toList ∧
      Import.IsStatement "import \x7b\x7d from 'Box.js';".toList ∧
      ∀ line ∈ ["import 'Box.js';", "import \x7b\x7d from 'Box.js';"],
        (ofText [] "a.ets" ("import Box from 'lib';" ++ "\n" ++ line)).accesses.map (·.path) =
            ["Box.js"] ∧
          (ofText [] "a.ets" ("import Box from 'lib';" ++ "\n" ++ line)).references.get? "Box" =
            some 1 ∧
          (ofText [] "a.ets" "import Box from 'lib';").accesses = [] ∧
          (ofText [] "a.ets" "import Box from 'lib';").references.get? "Box" = none := by
  have quoted : Import.IsQuoted "'Box.js'".toList :=
    .intro '\'' "Box.js".toList (by decide) (by decide)
  refine ⟨.load " ".toList _ ";".toList (by decide) quoted (by decide),
    .clause " ".toList "\x7b\x7d ".toList " ".toList _ ";".toList (by decide) (by decide) quoted
      (by decide), ?_⟩
  decide +kernel

end SourceSummary

end AmbientStubs
