import AmbientStubs.Proofs.Declaration.Legible

/-!
Declaration files are read as what they declare.  The text of a legible file is read as the
outlines of its declarations between lines that declare nothing, so the scopes of the text
are the scopes of the declarations, and at most one line is a default export.
-/

namespace AmbientStubs

open Text Outline

namespace DeclarationFile

open Declaration

structure Legible (file : DeclarationFile) : Prop where
  modulePath : SingleLine file.modulePath
  declarations : AllLegible file.declarations
  defaultExport : ∀ name ∈ file.defaultExport, SingleLine name
  verbatim : file.verbatim = []

def closingLines (file : DeclarationFile) : List String :=
  if file.bodyLines.isEmpty then ["export \x7b\x7d;"]
  else (file.defaultExport.map fun name => "export default " ++ name ++ ";").toList

def outlines (file : DeclarationFile) : List Outline :=
  (header file.modulePath).map .line ++ Declaration.outlines 0 file.declarations ++
    (file.closingLines ++ [""]).map .line

variable {file : DeclarationFile}

theorem lines_eq (legible : file.Legible) :
    file.lines = header file.modulePath ++ scopeLines 0 file.declarations ++ file.closingLines := by
  unfold lines closingLines
  split
  · next empty =>
      have nothing : scopeLines 0 file.declarations = [] := by
        simp only [List.isEmpty_iff, bodyLines, List.append_eq_nil_iff] at empty
        exact empty.1.1
      rw [nothing, List.append_nil]
  · simp [bodyLines, legible.verbatim]

theorem header_lines (single : SingleLine file.modulePath) {line : String}
    (membership : line ∈ header file.modulePath) :
    Plain line ∧ StandsAlone line ∧ declared? line = none := by
  simp only [header, List.mem_cons, List.not_mem_nil, or_false] at membership
  rcases membership with rfl | rfl | rfl
  · have shown : content ("// Stub declarations for '" ++ file.modulePath ++
        "' generated by arkstub.") = "// Stub declarations for '".toList ++
          (file.modulePath ++ "' generated by arkstub.").toList := by
      rw [String.append_assoc, content_append_of_head '/' _ (by simp) (by decide)]
    have ends : ("// Stub declarations for '" ++ file.modulePath ++
        "' generated by arkstub.").toList.getLast? = some '.' := by
      rw [String.toList_append, List.getLast?_append]
      rfl
    refine ⟨⟨?_, ?_⟩, ⟨opensBlock_eq_false '.' ends (by decide),
      closesBlock_eq_false '/' (by simp) (by decide) (by decide)⟩, ?_⟩
    · simp only [singleLine_append]
      exact ⟨⟨by decide, single⟩, by decide⟩
    · rw [exportsDefault, shown]
      simp [literal?, after?]
    · rw [declared?, shown]
      simp [literal?, after?]
  · exact ⟨⟨by decide, by decide⟩, ⟨by decide, by decide⟩, by decide⟩
  · exact ⟨⟨by decide, by decide⟩, ⟨by decide, by decide⟩, by decide⟩

theorem exportsDefault_defaultExport (name : String) :
    exportsDefault ("export default " ++ name ++ ";") = true := by
  rw [exportsDefault, String.append_assoc,
    content_append_of_head 'e' _ (by simp) (by decide), literal?_append,
    Option.isSome_some]

theorem closing_lines (legible : file.Legible) {line : String}
    (membership : line ∈ file.closingLines ++ [""]) :
    SingleLine line ∧ StandsAlone line ∧ declared? line = none := by
  rw [List.mem_append, List.mem_singleton] at membership
  rcases membership with closing | rfl
  · unfold closingLines at closing
    split at closing
    · rw [List.mem_singleton.mp closing]
      exact ⟨by decide, ⟨by decide, by decide⟩, by decide⟩
    · simp only [Option.mem_toList, Option.map_eq_some_iff] at closing
      obtain ⟨name, exported, rfl⟩ := closing
      refine ⟨?_, standsAlone_statement _,
        declared?_eq_none_of_exportsDefault (exportsDefault_defaultExport name)⟩
      simp only [singleLine_append]
      exact ⟨⟨by decide, legible.defaultExport name exported⟩, by decide⟩
  · exact ⟨by decide, ⟨by decide, by decide⟩, by decide⟩

theorem mem_closingLines {name : String} (exported : file.defaultExport = some name) :
    "export default " ++ name ++ ";" ∈ file.closingLines := by
  have nonempty : file.bodyLines.isEmpty = false := by simp [bodyLines, exported]
  simp [closingLines, nonempty, exported]

theorem singleLine_of_mem_lines (legible : file.Legible) {line : String}
    (membership : line ∈ file.lines) : SingleLine line := by
  rw [lines_eq legible, List.mem_append, List.mem_append] at membership
  rcases membership with (inHeader | inScope) | closing
  · exact (header_lines legible.modulePath inHeader).1.1
  · exact (plain_of_mem_scopeLines 0 _ legible.declarations inScope).1
  · exact (closing_lines legible (List.mem_append_left _ closing)).1

theorem splitText_text (legible : file.Legible) :
    splitText '\n' file.text = header file.modulePath ++ scopeLines 0 file.declarations ++
      (file.closingLines ++ [""]) := by
  have split := splitText_lines fun line membership => singleLine_of_mem_lines legible membership
  rw [text, split, lines_eq legible, List.append_assoc _ file.closingLines]

/-- The text of a legible file is read as the outlines of its declarations, with single lines
before and after. -/
theorem ofText?_text (legible : file.Legible) : ofText? file.text = some file.outlines := by
  have headerRead := foldlM_add?_of_standAlone {} (header file.modulePath) fun line membership =>
    (header_lines legible.modulePath membership).2.1
  have closingRead := fun reading =>
    foldlM_add?_of_standAlone reading (file.closingLines ++ [""]) fun line membership =>
      (closing_lines legible membership).2.1
  rw [ofText?, ofLines?, splitText_text legible, List.foldlM_append, List.foldlM_append, headerRead,
    Option.bind_eq_bind, Option.bind_some, foldlM_add?_scopeLines, Option.bind_some, closingRead]
  simp [outlines]

theorem countP_exportsDefault_le_one (legible : file.Legible) :
    (splitText '\n' file.text).countP exportsDefault ≤ 1 := by
  have inHeader : (header file.modulePath).countP exportsDefault = 0 := by
    rw [List.countP_eq_zero]
    intro line membership
    simp [(header_lines legible.modulePath membership).1.2]
  have inScope : (scopeLines 0 file.declarations).countP exportsDefault = 0 := by
    rw [List.countP_eq_zero]
    intro line membership
    simp [(plain_of_mem_scopeLines 0 _ legible.declarations membership).2]
  have empty : exportsDefault "" = false := by decide
  have short : file.closingLines.length ≤ 1 := by
    unfold closingLines
    split
    · simp
    · cases file.defaultExport <;> simp
  have closing : file.closingLines.countP exportsDefault ≤ file.closingLines.length :=
    List.countP_le_length
  rw [splitText_text legible, List.countP_append, List.countP_append, List.countP_append, inHeader,
    inScope, List.countP_singleton, empty]
  simp only [Bool.false_eq_true, if_false]
  omega

theorem exists_outlines_eq (legible : file.Legible) :
    ∃ before after, file.outlines = before ++ Declaration.outlines 0 file.declarations ++ after ∧
      ∀ item ∈ before ++ after, (∃ line, item = .line line) ∧ declared? item.head = none := by
  refine ⟨_, _, rfl, ?_⟩
  intro item membership
  rw [List.mem_append, List.mem_map, List.mem_map] at membership
  rcases membership with ⟨line, inHeader, rfl⟩ | ⟨line, closing, rfl⟩
  · exact ⟨⟨line, rfl⟩, (header_lines legible.modulePath inHeader).2.2⟩
  · exact ⟨⟨line, rfl⟩, (closing_lines legible closing).2.2⟩

theorem mem_outlines {item : Outline}
    (membership : item ∈ Declaration.outlines 0 file.declarations) : item ∈ file.outlines :=
  List.mem_append_left _ (List.mem_append_right _ membership)

theorem exists_scopeAt_outlines (legible : file.Legible) {path : List String}
    {scope : List Declaration} (reached : Declaration.ScopeAt file.declarations path scope) :
    ∃ items, Outline.ScopeAt file.outlines path items ∧
      ∀ declaration ∈ scope, outline path.length declaration ∈ items := by
  have found := reached.outlines legible.declarations 0
  have inside : ∀ declaration ∈ scope,
      outline path.length declaration ∈ Declaration.outlines (0 + path.length) scope := by
    intro declaration membership
    rw [outlines_eq_map, Nat.zero_add]
    exact List.mem_map_of_mem membership
  cases path with
  | nil =>
      cases reached
      refine ⟨file.outlines, .here, ?_⟩
      intro declaration membership
      exact mem_outlines (inside declaration membership)
  | cons name path =>
      cases found with
      | inside membership named rest =>
          exact ⟨_, .inside (mem_outlines membership) named rest, inside⟩

theorem exists_scopeAt_of_outlines (legible : file.Legible) {path : List String}
    {items : List Outline} (reached : Outline.ScopeAt file.outlines path items) :
    ∃ scope before after, Declaration.ScopeAt file.declarations path scope ∧
      items = before ++ Declaration.outlines path.length scope ++ after ∧
      ∀ item ∈ before ++ after, declared? item.head = none := by
  obtain ⟨before, after, same, around⟩ := exists_outlines_eq legible
  cases reached with
  | here =>
      exact ⟨file.declarations, before, after, .here, same, fun item membership =>
        (around item membership).2⟩
  | @inside _ inner _ head _ _ membership named rest =>
      have listed : .block head inner ∈ Declaration.outlines 0 file.declarations := by
        rw [same, List.mem_append, List.mem_append] at membership
        rcases membership with (first | middle) | last
        · obtain ⟨line, different⟩ := (around _ (List.mem_append_left _ first)).1
          contradiction
        · exact middle
        · obtain ⟨line, different⟩ := (around _ (List.mem_append_right _ last)).1
          contradiction
      obtain ⟨scope, reached, found⟩ :=
        scopeAt_of_outlines legible.declarations (.inside listed named rest) rfl
      refine ⟨scope, [], [], reached, ?_, by simp⟩
      rw [found, Nat.zero_add, List.nil_append, List.append_nil]

/-- What a scope of the text declares is declared by the declarations of that scope. -/
theorem exists_declarations_of_outlines (legible : file.Legible) {path : List String}
    {items : List Outline} (reached : Outline.ScopeAt file.outlines path items) :
    ∃ scope, Declaration.ScopeAt file.declarations path scope ∧
      ∀ item ∈ items, ∀ keyword name, declared? item.head = some (keyword, name) →
        ∃ declaration ∈ scope, declaration.Legible ∧ item = outline path.length declaration ∧
          declaration.keyword = keyword ∧ declaration.name = name := by
  obtain ⟨scope, before, after, inside, same, silent⟩ := exists_scopeAt_of_outlines legible reached
  refine ⟨scope, inside, ?_⟩
  intro item inScope keyword name shown
  have listed : item ∈ Declaration.outlines path.length scope := by
    rw [same, List.append_assoc, List.mem_append, List.mem_append] at inScope
    rcases inScope with first | listed | last
    · rw [silent item (List.mem_append_left _ first)] at shown
      contradiction
    · exact listed
    · rw [silent item (List.mem_append_right _ last)] at shown
      contradiction
  rw [Declaration.outlines_eq_map] at listed
  obtain ⟨declaration, member, rfl⟩ := List.mem_map.mp listed
  have readable := allLegible_iff.mp (inside.allLegible legible.declarations) declaration member
  rw [declared?_outline path.length readable.isIdentifier_name, Option.some.injEq,
    Prod.mk.injEq] at shown
  exact ⟨declaration, member, readable, rfl, shown.1, shown.2⟩

end DeclarationFile

end AmbientStubs
