import AmbientStubs.Import.Statement
import AmbientStubs.Proofs.Text.Pieces

/-!
What an import statement binds.  The names of an import that was read from a line are
identifiers, and its module path is a part of the line.
-/

namespace AmbientStubs

open Text

namespace Text

theorem suffix_blanks? {text rest : List Char} (read : blanks? text = some rest) :
    rest <:+ text := by
  cases text with
  | nil => simp [blanks?] at read
  | cons character text =>
      rw [blanks?] at read
      split at read
      · rw [← Option.some.inj read]
        exact (List.dropWhile_suffix isBlank).trans (List.suffix_cons character text)
      · contradiction

theorem suffix_literal? {word : String} {text rest : List Char}
    (read : literal? word text = some rest) : rest <:+ text := by
  rw [literal?_eq_some_iff.mp read]
  exact List.suffix_append _ _

theorem suffix_keyword? {word : String} {text rest : List Char}
    (read : keyword? word text = some rest) : rest <:+ text := by
  obtain ⟨middle, literal, blanks⟩ := Option.bind_eq_some_iff.mp read
  exact (suffix_blanks? blanks).trans (suffix_literal? literal)

theorem suffix_run? {belongs : Char → Bool} {text found rest : List Char}
    (read : run? belongs text = some (found, rest)) : rest <:+ text := by
  rw [(run?_eq_some read).1]
  exact List.suffix_append _ _

theorem suffix_enclosed? {opening closing : Char} {text inner rest : List Char}
    (read : enclosed? opening closing text = some (inner, rest)) : rest <:+ text := by
  cases text with
  | nil => simp [enclosed?] at read
  | cons first text =>
      rw [enclosed?] at read
      split at read
      · split at read
        · next closed =>
            rw [Option.some.injEq, Prod.mk.injEq] at read
            rw [← read.2]
            refine List.IsSuffix.trans ?_ (List.suffix_cons first text)
            have dropped := List.dropWhile_suffix (· != closing) (l := text)
            rw [closed] at dropped
            exact (List.suffix_cons _ _).trans dropped
        · contradiction
      · contradiction

theorem isIdentifier_run? {text found rest : List Char}
    (read : run? isIdentifier text = some (found, rest)) : IsIdentifier (String.ofList found) := by
  obtain ⟨-, nonempty, inside⟩ := run?_eq_some read
  simpa [IsIdentifier] using ⟨nonempty, inside⟩

end Text

/-- An import whose root is an identifier and whose module path does not break a line.  A default
export is not the whole module. -/
structure Import.Legible (imported : Import) : Prop where
  rootName : IsIdentifier imported.rootName
  modulePath : SingleLine imported.modulePath
  defaultExport : imported.kind = .defaultExport → imported.isWildcard = false

theorem Import.Legible.singleLine_importedName {imported : Import} (legible : imported.Legible) :
    SingleLine imported.importedName := by
  have root := legible.rootName
  unfold Import.rootName at root
  split at root
  · next wildcard =>
      rw [Import.isWildcard, beq_iff_eq] at wildcard
      rw [wildcard]
      decide
  · exact root.singleLine

theorem Import.isWildcard_eq_false {imported : Import}
    (identifier : IsIdentifier imported.importedName) : imported.isWildcard = false := by
  rw [Import.isWildcard, beq_eq_false_iff_ne]
  intro wildcard
  rw [wildcard] at identifier
  exact absurd identifier (by decide +kernel)

theorem Import.isIdentifier_rootName {imported : Import}
    (identifier : IsIdentifier imported.importedName) : IsIdentifier imported.rootName := by
  simpa [Import.rootName, Import.isWildcard_eq_false identifier] using identifier

namespace ImportClause

def Legible : ImportClause → Prop
  | names _ => True
  | wholeModule localName => IsIdentifier (String.ofList localName)
  | defaultExport name => IsIdentifier (String.ofList name)

theorem read?_eq_some {text rest : List Char} {clause : ImportClause}
    (read : read? text = some (clause, rest)) : clause.Legible ∧ rest <:+ text := by
  unfold read? at read
  split at read
  · obtain ⟨⟨body, after⟩, enclosed, same⟩ := Option.bind_eq_some_iff.mp read
    rw [Option.some.injEq, Prod.mk.injEq] at same
    rw [← same.1, ← same.2]
    exact ⟨trivial, suffix_enclosed? enclosed⟩
  · obtain ⟨afterBlanks, blanks, read⟩ := Option.bind_eq_some_iff.mp read
    obtain ⟨afterWord, word, read⟩ := Option.bind_eq_some_iff.mp read
    obtain ⟨⟨localName, after⟩, name, same⟩ := Option.bind_eq_some_iff.mp read
    rw [Option.some.injEq, Prod.mk.injEq] at same
    rw [← same.1, ← same.2]
    refine ⟨isIdentifier_run? name, ?_⟩
    exact ((suffix_run? name).trans ((suffix_keyword? word).trans (suffix_blanks? blanks))).trans
      (List.suffix_cons _ _)
  · obtain ⟨⟨name, after⟩, found, same⟩ := Option.bind_eq_some_iff.mp read
    rw [Option.some.injEq, Prod.mk.injEq] at same
    rw [← same.1, ← same.2]
    exact ⟨isIdentifier_run? found, suffix_run? found⟩

end ImportClause

theorem isIdentifier_nameAndAlias? {text name : List Char} {localName : Option (List Char)}
    (read : nameAndAlias? text = some (name, localName)) :
    IsIdentifier (String.ofList name) := by
  unfold nameAndAlias? at read
  obtain ⟨⟨found, rest⟩, run, read⟩ := Option.bind_eq_some_iff.mp read
  dsimp only at read
  have identifier := isIdentifier_run? run
  split at read
  · rw [Option.some.injEq, Prod.mk.injEq] at read
    rwa [← read.1]
  · obtain ⟨_, -, read⟩ := Option.bind_eq_some_iff.mp read
    obtain ⟨_, -, read⟩ := Option.bind_eq_some_iff.mp read
    obtain ⟨_, -, read⟩ := Option.bind_eq_some_iff.mp read
    split at read
    · rw [Option.some.injEq, Prod.mk.injEq] at read
      rwa [← read.1]
    · contradiction

namespace ImportStatement

theorem mem_of_mem_specifier? {text path : List Char} {character : Char}
    (read : specifier? text = some path) (membership : character ∈ path) : character ∈ text := by
  cases text with
  | nil => simp [specifier?] at read
  | cons opening text =>
      rw [specifier?] at read
      split at read
      · split at read
        · next found run =>
            rw [← Option.some.inj read] at membership
            rw [(run?_eq_some run).1]
            simp [membership]
        · contradiction
      · contradiction

theorem readClause?_eq_some {typeOnly : Bool} {text : List Char} {statement : ImportStatement}
    (read : readClause? typeOnly text = some statement) :
    statement.clause.Legible ∧ ∀ character ∈ statement.modulePath, character ∈ text := by
  unfold readClause? at read
  obtain ⟨⟨clause, afterClause⟩, readClause, read⟩ := Option.bind_eq_some_iff.mp read
  obtain ⟨afterBlanks, blanks, read⟩ := Option.bind_eq_some_iff.mp read
  obtain ⟨afterWord, word, read⟩ := Option.bind_eq_some_iff.mp read
  obtain ⟨path, specifier, same⟩ := Option.bind_eq_some_iff.mp read
  rw [← Option.some.inj same]
  obtain ⟨legible, suffix⟩ := ImportClause.read?_eq_some readClause
  refine ⟨legible, ?_⟩
  intro character membership
  have rest : afterWord <:+ text :=
    (suffix_keyword? word).trans ((suffix_blanks? blanks).trans suffix)
  exact rest.subset (mem_of_mem_specifier? specifier membership)

theorem read?_eq_some {text : List Char} {statement : ImportStatement}
    (read : read? text = some statement) :
    statement.clause.Legible ∧ ∀ character ∈ statement.modulePath, character ∈ text := by
  obtain ⟨rest, word, read⟩ := Option.bind_eq_some_iff.mp read
  have suffix := suffix_keyword? word
  rw [Option.or_eq_some_iff] at read
  rcases read with marked | ⟨-, unmarked⟩
  · obtain ⟨after, marker, clause⟩ := Option.bind_eq_some_iff.mp marked
    have facts := readClause?_eq_some clause
    exact ⟨facts.1, fun character membership =>
      suffix.subset ((suffix_keyword? marker).subset (facts.2 character membership))⟩
  · have facts := readClause?_eq_some unmarked
    exact ⟨facts.1, fun character membership => suffix.subset (facts.2 character membership)⟩

theorem legible_of_mem_imports {statement : ImportStatement} {imported : Import}
    (clause : statement.clause.Legible) (single : '\n' ∉ statement.modulePath)
    (membership : imported ∈ statement.imports) : imported.Legible := by
  have path : SingleLine (String.ofList statement.modulePath) := by
    rwa [SingleLine, String.toList_ofList]
  unfold imports at membership
  split at membership
  · obtain ⟨part, -, found⟩ := List.mem_filterMap.mp membership
    obtain ⟨⟨name, localName⟩, read, rfl⟩ := Option.map_eq_some_iff.mp found
    have identifier := isIdentifier_nameAndAlias? read
    exact ⟨Import.isIdentifier_rootName identifier, path, fun _ =>
      Import.isWildcard_eq_false identifier⟩
  · next localName same =>
      rw [same] at clause
      rw [List.mem_singleton.mp membership]
      exact ⟨clause, path, by simp [Import.wholeModule]⟩
  · next name same =>
      rw [same] at clause
      have identifier : IsIdentifier (String.ofList name) := clause
      rw [List.mem_singleton.mp membership]
      exact ⟨Import.isIdentifier_rootName identifier, path, fun _ =>
        Import.isWildcard_eq_false identifier⟩

end ImportStatement

theorem Import.legible_of_mem_ofLine {line : List Char} {imported : Import}
    (single : '\n' ∉ line) (membership : imported ∈ Import.ofLine line) : imported.Legible := by
  unfold Import.ofLine at membership
  split at membership
  · next statement read =>
      obtain ⟨clause, path⟩ := ImportStatement.read?_eq_some read
      exact ImportStatement.legible_of_mem_imports clause (fun broken => single (path _ broken))
        membership
  · simp at membership

end AmbientStubs
