import AmbientStubs.Proofs.Declaration.Reading

/-!
Legible declarations: their names are identifiers and no other text of them breaks a line.
Their lines are single lines, and the scopes of their outlines are the scopes of the
declarations.
-/

namespace AmbientStubs

open Text Outline

/-- A method whose names are identifiers and whose other texts do not break a line. -/
structure Method.Legible (method : Method) : Prop where
  name : IsIdentifier method.name
  owner : IsIdentifier method.owner
  parameters : ∀ parameter ∈ method.parameters,
    SingleLine parameter.name ∧ SingleLine parameter.type
  returnType : SingleLine method.returnType
  qualifier : SingleLine method.qualifier

theorem Method.Legible.singleLine_signature {method : Method} (legible : method.Legible) :
    SingleLine method.signature := by
  have parameters : SingleLine (", ".intercalate (method.parameters.map Parameter.text)) := by
    refine (singleLine_intercalate (by decide)).mpr ?_
    intro text membership
    obtain ⟨parameter, listed, rfl⟩ := List.mem_map.mp membership
    have single := legible.parameters parameter listed
    simp only [Parameter.text, singleLine_append]
    exact ⟨⟨single.1, by decide⟩, single.2⟩
  have marker : SingleLine (if method.isStatic then "static " else "") := by
    split <;> decide
  simp only [Method.signature, singleLine_append]
  exact ⟨⟨⟨⟨⟨marker, legible.name.singleLine⟩, by decide⟩, parameters⟩, by decide⟩,
    legible.returnType⟩

namespace Declaration

mutual

def Legible : Declaration → Prop
  | classBody name methods | interfaceBody name methods =>
      IsIdentifier name ∧ ∀ method ∈ methods, method.Legible
  | enumeration name => IsIdentifier name
  | typeAlias name target => IsIdentifier name ∧ SingleLine target
  | function name returnType => IsIdentifier name ∧ SingleLine returnType
  | constant name type => IsIdentifier name ∧ SingleLine type
  | namespaceBlock name members => IsIdentifier name ∧ AllLegible members

def AllLegible : List Declaration → Prop
  | [] => True
  | declaration :: rest => Legible declaration ∧ AllLegible rest

end

theorem allLegible_iff {declarations : List Declaration} :
    AllLegible declarations ↔ ∀ declaration ∈ declarations, declaration.Legible := by
  induction declarations with
  | nil => simp [AllLegible]
  | cons declaration rest inductionHypothesis => simp [AllLegible, inductionHypothesis]

theorem Legible.isIdentifier_name {declaration : Declaration} (legible : declaration.Legible) :
    IsIdentifier declaration.name := by
  cases declaration with
  | enumeration name => simpa [Legible, Declaration.name] using legible
  | classBody name methods | interfaceBody name methods | typeAlias name target
  | function name returnType | constant name type | namespaceBlock name members =>
      rw [Legible] at legible
      exact legible.1

def exportsDefault (line : String) : Bool :=
  (literal? "export default " (content line)).isSome

/-- A single line other than a default export. -/
def Plain (line : String) : Prop :=
  SingleLine line ∧ exportsDefault line = false

theorem declared?_eq_none_of_exportsDefault {line : String}
    (exported : exportsDefault line = true) : declared? line = none := by
  rw [exportsDefault, Option.isSome_iff_exists] at exported
  obtain ⟨rest, read⟩ := exported
  have split : content line = "export ".toList ++ ("default".toList ++ ' ' :: rest) := by
    simpa using literal?_eq_some_iff.mp read
  have word : IsIdentifier "default" := by decide +kernel
  have noMarker := literal?_declare_eq_none "default" word (by decide) rest
  have readKeyword : run? isIdentifier ("default".toList ++ ' ' :: rest) =
      some ("default".toList, ' ' :: rest) :=
    run?_append word.1 word.2 (by decide)
  have unknown : "default" ∉ keywords := by decide
  simp only [declared?, split, literal?_append, Option.bind_eq_bind, Option.bind_some, noMarker,
    Option.getD_none, readKeyword, String.ofList_toList, unknown, if_false, Option.bind_fun_none]

theorem content_methodLine {method : Method} (identifier : IsIdentifier method.name) (depth : Nat) :
    content (indentation depth ++ method.signature ++ ";") =
      (method.signature ++ ";").toList := by
  have starts : ∃ first, method.signature.toList.head? = some first ∧ first ≠ ' ' := by
    obtain ⟨first, more, shape⟩ := List.exists_cons_of_ne_nil identifier.1
    have visible : first ≠ ' ' := by
      rintro rfl
      exact identifier.not_mem (by decide) (shape ▸ List.mem_cons_self)
    cases isStatic : method.isStatic with
    | true => exact ⟨'s', by simp [Method.signature, isStatic], by decide⟩
    | false => exact ⟨first, by simp [Method.signature, isStatic, shape], visible⟩
  obtain ⟨first, starts, visible⟩ := starts
  rw [String.append_assoc, content_indentation, content_append_of_head first ";" starts visible,
    String.toList_append]

theorem content_method {method : Method} (identifier : IsIdentifier method.name) (depth : Nat) :
    ∃ rest : List Char, content (indentation depth ++ method.signature ++ ";") =
      (if method.isStatic then "static ".toList else []) ++
        (method.name.toList ++ '(' :: rest) := by
  rw [content_methodLine identifier]
  cases isStatic : method.isStatic <;> simp [Method.signature, isStatic]

theorem exportsDefault_method {method : Method} (identifier : IsIdentifier method.name)
    (depth : Nat) : exportsDefault (indentation depth ++ method.signature ++ ";") = false := by
  obtain ⟨rest, shown⟩ := content_method identifier depth
  rw [exportsDefault, shown, Option.isSome_eq_false_iff, Option.isNone_iff_eq_none]
  cases isStatic : method.isStatic with
  | true => simp [literal?, after?]
  | false =>
      cases read : literal? "export default " (method.name.toList ++ '(' :: rest) with
      | none => simpa using read
      | some after =>
          have split : method.name.toList ++ '(' :: rest =
              "export".toList ++ ' ' :: ("default ".toList ++ after) := by
            simpa using literal?_eq_some_iff.mp read
          have exporting : IsIdentifier "export" := by decide +kernel
          have same := eq_of_append_eq_append identifier exporting (by decide) (by decide) split
          exact absurd same.2 (by decide)

theorem singleLine_indentation (depth : Nat) : SingleLine (indentation depth) := by
  simp [SingleLine, indentation]

theorem singleLine_ambient (depth : Nat) : SingleLine (ambient depth) := by
  unfold ambient
  split <;> decide

theorem plain_method {method : Method} (legible : method.Legible) (depth : Nat) :
    Plain (indentation depth ++ method.signature ++ ";") := by
  refine ⟨?_, exportsDefault_method legible.name depth⟩
  simp only [singleLine_append]
  exact ⟨⟨singleLine_indentation depth, legible.singleLine_signature⟩, by decide⟩

theorem plain_closing (depth : Nat) : Plain (indentation depth ++ "\x7d") := by
  refine ⟨?_, ?_⟩
  · rw [singleLine_append]
    exact ⟨singleLine_indentation depth, by decide⟩
  · rw [exportsDefault, content_indentation]
    decide

theorem singleLine_head_bodyOutline (depth : Nat) {head : String} (single : SingleLine head)
    (methods : List Method) : SingleLine (bodyOutline depth head methods).head := by
  unfold bodyOutline
  split <;> simp only [Outline.head, singleLine_append] <;>
    exact ⟨⟨singleLine_indentation depth, single⟩, by decide⟩

theorem singleLine_head_outline {declaration : Declaration} (legible : declaration.Legible)
    (depth : Nat) : SingleLine (outline depth declaration).head := by
  have blank := singleLine_indentation depth
  have marker := singleLine_ambient depth
  have word : SingleLine declaration.name := legible.isIdentifier_name.singleLine
  cases declaration with
  | classBody name methods =>
      rw [outline]
      refine singleLine_head_bodyOutline depth ?_ methods
      simp only [singleLine_append]
      exact ⟨⟨⟨by decide, marker⟩, by decide⟩, word⟩
  | interfaceBody name methods =>
      rw [outline]
      refine singleLine_head_bodyOutline depth ?_ methods
      rw [singleLine_append]
      exact ⟨by decide, word⟩
  | enumeration name =>
      simp only [outline, Outline.head, singleLine_append]
      exact ⟨⟨⟨⟨⟨blank, by decide⟩, marker⟩, by decide⟩, word⟩, by decide⟩
  | typeAlias name target =>
      rw [Legible] at legible
      simp only [outline, Outline.head, singleLine_append]
      exact ⟨⟨⟨⟨⟨blank, by decide⟩, word⟩, by decide⟩, legible.2⟩, by decide⟩
  | function name returnType =>
      rw [Legible] at legible
      simp only [outline, Outline.head, singleLine_append]
      exact ⟨⟨⟨⟨⟨⟨⟨blank, by decide⟩, marker⟩, by decide⟩, word⟩, by decide⟩, legible.2⟩, by decide⟩
  | constant name type =>
      rw [Legible] at legible
      simp only [outline, Outline.head, singleLine_append]
      exact ⟨⟨⟨⟨⟨⟨⟨blank, by decide⟩, marker⟩, by decide⟩, word⟩, by decide⟩, legible.2⟩, by decide⟩
  | namespaceBlock name members =>
      simp only [outline, Outline.head, singleLine_append]
      exact ⟨⟨⟨⟨⟨blank, by decide⟩, marker⟩, by decide⟩, word⟩, by decide⟩

theorem plain_head {declaration : Declaration} (legible : declaration.Legible) (depth : Nat) :
    Plain (outline depth declaration).head := by
  refine ⟨singleLine_head_outline legible depth, ?_⟩
  rw [Bool.eq_false_iff]
  intro exported
  have hidden := declared?_eq_none_of_exportsDefault exported
  rw [declared?_outline depth legible.isIdentifier_name] at hidden
  contradiction

theorem plain_of_mem_bodyLines {depth : Nat} {head line : String} {methods : List Method}
    (plainHead : Plain (bodyOutline depth head methods).head)
    (legible : ∀ method ∈ methods, method.Legible)
    (membership : line ∈ bodyLines depth head methods) : Plain line := by
  unfold bodyLines at membership
  unfold bodyOutline at plainHead
  split at membership
  · next empty =>
      rw [if_pos empty, Outline.head] at plainHead
      rw [List.mem_singleton.mp membership]
      exact plainHead
  · next nonempty =>
      rw [if_neg nonempty, Outline.head] at plainHead
      simp only [List.mem_append, List.mem_singleton, List.mem_map] at membership
      rcases membership with (rfl | ⟨method, listed, rfl⟩) | rfl
      · exact plainHead
      · exact plain_method (legible method listed) (depth + 1)
      · exact plain_closing depth

mutual

theorem plain_of_mem_lines {line : String} (depth : Nat) :
    ∀ declaration : Declaration, declaration.Legible → line ∈ lines depth declaration → Plain line
  | classBody name methods, legible, membership => by
      have plainHead := plain_head legible depth
      rw [lines] at membership
      rw [outline] at plainHead
      rw [Legible] at legible
      exact plain_of_mem_bodyLines plainHead legible.2 membership
  | interfaceBody name methods, legible, membership => by
      have plainHead := plain_head legible depth
      rw [lines] at membership
      rw [outline] at plainHead
      rw [Legible] at legible
      exact plain_of_mem_bodyLines plainHead legible.2 membership
  | enumeration name, legible, membership | typeAlias name target, legible, membership
  | function name returnType, legible, membership | constant name type, legible, membership => by
      have plainHead := plain_head legible depth
      rw [lines, List.mem_singleton] at membership
      rw [outline, Outline.head] at plainHead
      rw [membership]
      exact plainHead
  | namespaceBlock name members, legible, membership => by
      have plainHead := plain_head legible depth
      rw [outline, Outline.head] at plainHead
      rw [Legible] at legible
      rw [lines, List.mem_append, List.mem_cons, List.mem_singleton] at membership
      rcases membership with (rfl | inside) | rfl
      · exact plainHead
      · exact plain_of_mem_scopeLines (depth + 1) members legible.2 inside
      · exact plain_closing depth

theorem plain_of_mem_scopeLines {line : String} (depth : Nat) :
    ∀ declarations : List Declaration, AllLegible declarations →
      line ∈ scopeLines depth declarations → Plain line
  | [], _, membership => by simp [scopeLines] at membership
  | declaration :: rest, legible, membership => by
      rw [AllLegible] at legible
      rw [scopeLines, List.mem_append] at membership
      rcases membership with first | later
      · exact plain_of_mem_lines depth declaration legible.1 first
      · exact plain_of_mem_scopeLines depth rest legible.2 later

end

/-- The scope that a path of namespace blocks leads to. -/
inductive ScopeAt : List Declaration → List String → List Declaration → Prop where
  | here {scope : List Declaration} : ScopeAt scope [] scope
  | inside {scope inner target : List Declaration} {name : String} {path : List String}
      (membership : .namespaceBlock name inner ∈ scope) (rest : ScopeAt inner path target) :
      ScopeAt scope (name :: path) target

theorem ScopeAt.allLegible {declarations scope : List Declaration} {path : List String}
    (reached : ScopeAt declarations path scope) (legible : AllLegible declarations) :
    AllLegible scope := by
  induction reached with
  | here => exact legible
  | inside membership _ inductionHypothesis =>
      have block := allLegible_iff.mp legible _ membership
      rw [Legible] at block
      exact inductionHypothesis block.2

theorem ScopeAt.outlines {declarations scope : List Declaration} {path : List String}
    (reached : ScopeAt declarations path scope) (legible : AllLegible declarations) (depth : Nat) :
    Outline.ScopeAt (outlines depth declarations) path (outlines (depth + path.length) scope) := by
  induction reached generalizing depth with
  | here => exact .here
  | @inside declarations inner target name path membership _ inductionHypothesis =>
      have block := allLegible_iff.mp legible _ membership
      have shown := declared?_outline depth block.isIdentifier_name
      rw [Legible] at block
      rw [outline, Outline.head] at shown
      have inside := inductionHypothesis block.2 (depth + 1)
      rw [Nat.add_assoc, Nat.add_comm 1] at inside
      refine .inside ?_ shown inside
      rw [outlines_eq_map]
      exact List.mem_map.mpr ⟨_, membership, by rw [outline]⟩

theorem exists_namespaceBlock_of_outline {depth : Nat} {declaration : Declaration}
    {head name : String} {inner : List Outline} (legible : declaration.Legible)
    (same : outline depth declaration = .block head inner)
    (named : declared? head = some ("namespace", name)) :
    ∃ members, declaration = .namespaceBlock name members ∧
      inner = outlines (depth + 1) members := by
  have shown := declared?_outline depth legible.isIdentifier_name
  rw [same, Outline.head, named, Option.some.injEq, Prod.mk.injEq] at shown
  cases declaration with
  | namespaceBlock blockName members =>
      rw [outline, Outline.block.injEq] at same
      exact ⟨members, by rw [shown.2]; rfl, same.2.symm⟩
  | classBody _ _ | interfaceBody _ _ | enumeration _ | typeAlias _ _ | function _ _
  | constant _ _ => simp [Declaration.keyword] at shown

/-- Every scope of the outlines of declarations is one of their scopes. -/
theorem scopeAt_of_outlines {depth : Nat} {declarations : List Declaration}
    {items scope : List Outline} {path : List String} (legible : AllLegible declarations)
    (reached : Outline.ScopeAt items path scope) (same : items = outlines depth declarations) :
    ∃ target, ScopeAt declarations path target ∧ scope = outlines (depth + path.length) target := by
  induction reached generalizing depth declarations with
  | here => exact ⟨declarations, .here, same⟩
  | inside membership named _ inductionHypothesis =>
      rw [same, outlines_eq_map, List.mem_map] at membership
      obtain ⟨declaration, listed, shown⟩ := membership
      have readable := allLegible_iff.mp legible declaration listed
      obtain ⟨members, rfl, inner⟩ := exists_namespaceBlock_of_outline readable shown named
      rw [Legible] at readable
      obtain ⟨target, inside, found⟩ := inductionHypothesis readable.2 inner
      refine ⟨target, .inside listed inside, ?_⟩
      rw [found, List.length_cons, Nat.add_assoc, Nat.add_comm 1]

end Declaration

end AmbientStubs
