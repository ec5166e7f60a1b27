import AmbientStubs.Proofs.Declaration.Outline

/-!
Declarations are read as what they are.  The lines of a scope are read as one item for each
declaration; the item of a declaration shows its keyword and its name, and the item of a
namespace block has the items of its members inside.
-/

namespace AmbientStubs.Declaration

open Text Outline

def keyword : Declaration → String
  | classBody _ _ => "class"
  | interfaceBody _ _ => "interface"
  | enumeration _ => "enum"
  | typeAlias _ _ => "type"
  | function _ _ => "function"
  | constant _ _ => "const"
  | namespaceBlock _ _ => "namespace"

def name : Declaration → String
  | classBody name _ | interfaceBody name _ | enumeration name | typeAlias name _
  | function name _ | constant name _ | namespaceBlock name _ => name

/-- How a class or interface is read: a line if it has no methods, else a block of them. -/
def bodyOutline (depth : Nat) (head : String) (methods : List Method) : Outline :=
  if methods.isEmpty then .line (indentation depth ++ head ++ " \x7b\x7d")
  else
    .block (indentation depth ++ head ++ " \x7b")
      (methods.map fun method => .line (indentation (depth + 1) ++ method.signature ++ ";"))

mutual

def outline (depth : Nat) : Declaration → Outline
  | classBody name methods =>
      bodyOutline depth ("export " ++ ambient depth ++ "class " ++ name) methods
  | interfaceBody name methods => bodyOutline depth ("export interface " ++ name) methods
  | enumeration name =>
      .line (indentation depth ++ "export " ++ ambient depth ++ "enum " ++ name ++ " \x7b\x7d")
  | typeAlias name target =>
      .line (indentation depth ++ "export type " ++ name ++ " = " ++ target ++ ";")
  | function name returnType =>
      .line (indentation depth ++ "export " ++ ambient depth ++ "function " ++ name ++
        "(...args: unknown[]): " ++ returnType ++ ";")
  | constant name type =>
      .line (indentation depth ++ "export " ++ ambient depth ++ "const " ++ name ++ ": " ++ type ++
        ";")
  | namespaceBlock name members =>
      .block (indentation depth ++ "export " ++ ambient depth ++ "namespace " ++ name ++ " \x7b")
        (outlines (depth + 1) members)

def outlines (depth : Nat) : List Declaration → List Outline
  | [] => []
  | declaration :: rest => outline depth declaration :: outlines depth rest

end

theorem outlines_eq_map (depth : Nat) (declarations : List Declaration) :
    outlines depth declarations = declarations.map (outline depth) := by
  induction declarations with
  | nil => rfl
  | cons declaration rest inductionHypothesis => rw [outlines, inductionHypothesis, List.map_cons]

section Lines

variable (reading : Reading)

/-- A line that neither opens nor closes a block is an item of its own. -/
def StandsAlone (line : String) : Prop :=
  opensBlock line = false ∧ closesBlock line = false

theorem add?_of_standsAlone {line : String} (alone : StandsAlone line) :
    reading.add? line = some { reading with scope := reading.scope ++ [.line line] } := by
  simp [Reading.add?, alone.1, alone.2]

theorem standsAlone_statement (text : String) : StandsAlone (text ++ ";") :=
  ⟨opensBlock_eq_false ';' (by simp) (by decide),
    closesBlock_eq_false ';' (by simp) (by decide) (by decide)⟩

theorem standsAlone_emptyBody (text : String) (exported : 'x' ∈ text.toList) :
    StandsAlone (text ++ " \x7b\x7d") :=
  ⟨opensBlock_eq_false '}' (by simp) (by decide),
    closesBlock_eq_false 'x' (by simp [exported]) (by decide) (by decide)⟩

theorem foldlM_add?_of_standAlone (lines : List String)
    (alone : ∀ line ∈ lines, StandsAlone line) :
    lines.foldlM Reading.add? reading =
      some { reading with scope := reading.scope ++ lines.map Outline.line } := by
  induction lines generalizing reading with
  | nil => simp
  | cons line rest inductionHypothesis =>
      rw [List.forall_mem_cons] at alone
      simp [add?_of_standsAlone reading alone.1, inductionHypothesis _ alone.2]

theorem add?_opening (text : String) :
    reading.add? (text ++ " \x7b") =
      some ⟨[], (reading.scope, text ++ " \x7b") :: reading.around⟩ := by
  simp [Reading.add?, opensBlock_append]

theorem content_indentation (depth : Nat) (text : String) :
    content (indentation depth ++ text) = content text := by
  rw [content, content, String.toList_append, List.dropWhile_append_of_pos]
  simp [indentation]

theorem add?_closing (depth : Nat) (before scope : List Outline) (head : String)
    (around : List (List Outline × String)) :
    Reading.add? ⟨scope, (before, head) :: around⟩ (indentation depth ++ "\x7d") =
      some ⟨before ++ [.block head scope], around⟩ := by
  have notOpening : opensBlock (indentation depth ++ "\x7d") = false :=
    opensBlock_eq_false '}' (by simp) (by decide)
  have closing : closesBlock (indentation depth ++ "\x7d") = true := by
    rw [closesBlock, content_indentation]
    rfl
  simp [Reading.add?, notOpening, closing]

end Lines

theorem foldlM_add?_bodyLines (reading : Reading) (depth : Nat) {head : String}
    (exported : 'x' ∈ head.toList) (methods : List Method) :
    (bodyLines depth head methods).foldlM Reading.add? reading =
      some { reading with scope := reading.scope ++ [bodyOutline depth head methods] } := by
  unfold bodyLines bodyOutline
  split
  · have alone := standsAlone_emptyBody (indentation depth ++ head) (by simp [exported])
    simp [add?_of_standsAlone reading alone]
  · have statements := foldlM_add?_of_standAlone
      ⟨[], (reading.scope, indentation depth ++ head ++ " \x7b") :: reading.around⟩
      (methods.map fun method => indentation (depth + 1) ++ method.signature ++ ";")
      (by simp [standsAlone_statement])
    simp [List.foldlM_append, add?_opening, statements, add?_closing]

mutual

/-- The lines of a declaration are read as its outline. -/
theorem foldlM_add?_lines (reading : Reading) (depth : Nat) :
    ∀ declaration : Declaration, (lines depth declaration).foldlM Reading.add? reading =
      some { reading with scope := reading.scope ++ [outline depth declaration] }
  | classBody name methods => by
      rw [lines, outline]
      exact foldlM_add?_bodyLines reading depth (by simp) methods
  | interfaceBody name methods => by
      rw [lines, outline]
      exact foldlM_add?_bodyLines reading depth (by simp) methods
  | enumeration name => by
      have alone := standsAlone_emptyBody
        (indentation depth ++ "export " ++ ambient depth ++ "enum " ++ name) (by simp)
      simp [lines, outline, add?_of_standsAlone reading alone]
  | typeAlias name target => by
      simp [lines, outline, add?_of_standsAlone, standsAlone_statement]
  | function name returnType => by
      simp [lines, outline, add?_of_standsAlone, standsAlone_statement]
  | constant name type => by
      simp [lines, outline, add?_of_standsAlone, standsAlone_statement]
  | namespaceBlock name members => by
      simp [lines, outline, add?_opening, foldlM_add?_scopeLines, add?_closing]

theorem foldlM_add?_scopeLines (reading : Reading) (depth : Nat) :
    ∀ declarations : List Declaration, (scopeLines depth declarations).foldlM Reading.add? reading =
      some { reading with scope := reading.scope ++ outlines depth declarations }
  | [] => by simp [scopeLines, outlines]
  | declaration :: rest => by
      simp [scopeLines, outlines, List.foldlM_append, foldlM_add?_lines reading depth declaration,
        foldlM_add?_scopeLines _ depth rest]

end

theorem content_export (depth : Nat) (rest : String) :
    content (indentation depth ++ ("export " ++ rest)) = "export ".toList ++ rest.toList := by
  rw [content_indentation, content_append_of_head 'e' rest (by simp) (by decide)]

theorem ambient_eq (depth : Nat) :
    (ambient depth).toList = [] ∨ (ambient depth).toList = "declare ".toList := by
  unfold ambient
  split
  · exact .inr rfl
  · exact .inl rfl

theorem head_bodyOutline (depth : Nat) (head : String) (methods : List Method) :
    ∃ rest : String, (bodyOutline depth head methods).head =
      indentation depth ++ (head ++ (" " ++ rest)) := by
  unfold bodyOutline
  split
  · exact ⟨"\x7b\x7d", by simp [Outline.head, String.append_assoc]⟩
  · exact ⟨"\x7b", by simp [Outline.head, String.append_assoc]⟩

theorem declared?_outline (depth : Nat) {declaration : Declaration}
    (identifier : IsIdentifier declaration.name) :
    declared? (outline depth declaration).head = some (declaration.keyword, declaration.name) := by
  cases declaration with
  | classBody name methods =>
      obtain ⟨rest, head⟩ := head_bodyOutline depth
        ("export " ++ ambient depth ++ "class " ++ name) methods
      rw [outline, head]
      refine declared?_of_content "class" name ' ' rest.toList ?_ (ambient_eq depth)
        (by decide) identifier (by decide)
      simp [String.append_assoc, content_export]
  | interfaceBody name methods =>
      obtain ⟨rest, head⟩ := head_bodyOutline depth ("export interface " ++ name) methods
      have shown : indentation depth ++ ("export interface " ++ name ++ (" " ++ rest)) =
          indentation depth ++ ("export " ++ ("interface " ++ name ++ (" " ++ rest))) := by
        simp [← String.append_assoc]
      rw [outline, head, shown]
      refine declared?_of_content "interface" name ' ' rest.toList ?_ (.inl rfl)
        (by decide) identifier (by decide)
      simp [String.append_assoc, content_export]
  | enumeration name =>
      rw [outline, Outline.head]
      refine declared?_of_content "enum" name ' ' ['{', '}'] ?_ (ambient_eq depth)
        (by decide) identifier (by decide)
      simp [String.append_assoc, content_export]
  | typeAlias name target =>
      have shown : (outline depth (.typeAlias name target)).head =
          indentation depth ++ ("export " ++ ("type " ++ name ++ " = " ++ target ++ ";")) := by
        simp [outline, Outline.head, ← String.append_assoc]
      rw [shown]
      refine declared?_of_content "type" name ' ' ("= ".toList ++ target.toList ++ [';'])
        ?_ (.inl rfl) (by decide) identifier (by decide)
      simp [String.append_assoc, content_export]
  | function name returnType =>
      rw [outline, Outline.head]
      refine declared?_of_content "function" name '('
        ("...args: unknown[]): ".toList ++ returnType.toList ++ [';']) ?_ (ambient_eq depth)
        (by decide) identifier (by decide)
      simp [String.append_assoc, content_export]
  | constant name type =>
      rw [outline, Outline.head]
      refine declared?_of_content "const" name ':' (' ' :: type.toList ++ [';']) ?_
        (ambient_eq depth) (by decide) identifier (by decide)
      simp [String.append_assoc, content_export]
  | namespaceBlock name members =>
      rw [outline, Outline.head]
      refine declared?_of_content "namespace" name ' ' ['{'] ?_ (ambient_eq depth)
        (by decide) identifier (by decide)
      simp [String.append_assoc, content_export]

end AmbientStubs.Declaration
