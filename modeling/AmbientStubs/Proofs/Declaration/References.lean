import AmbientStubs.Proofs.Declaration.Legible

/-!
What the lines of a text refer to: the target of a type alias, segment by segment, and the
type after the parameters of a method.
-/

namespace AmbientStubs

open Text

namespace Outline

def statement? (text : List Char) : Option String :=
  if text.getLast? = some ';' then some (String.ofList text.dropLast) else none

/-- The name and the segments of the target on a line `export type name = target;`. -/
def typeAlias? (line : String) : Option (String × List String) := do
  let rest ← literal? "export type " (content line)
  let (name, rest) ← run? isIdentifier rest
  let rest ← literal? " = " rest
  let target ← statement? rest
  some (String.ofList name, segments target)

/-- The type after the first closing parenthesis of a line `name(…): type;`. -/
def returnType? (line : String) : Option String := do
  let rest ← literal? "): " (line.toList.dropWhile (· != ')'))
  statement? rest

theorem statement?_append (text : String) :
    statement? (text.toList ++ [';']) = some text := by
  simp [statement?]

theorem declared?_of_typeAlias? {line name : String} {path : List String}
    (read : typeAlias? line = some (name, path)) : declared? line = some ("type", name) := by
  obtain ⟨afterWord, word, read⟩ := Option.bind_eq_some_iff.mp read
  obtain ⟨⟨found, afterName⟩, run, read⟩ := Option.bind_eq_some_iff.mp read
  obtain ⟨afterSign, sign, read⟩ := Option.bind_eq_some_iff.mp read
  obtain ⟨target, -, same⟩ := Option.bind_eq_some_iff.mp read
  rw [Option.some.injEq, Prod.mk.injEq] at same
  obtain ⟨split, nonempty, inside⟩ := run?_eq_some run
  have identifier : IsIdentifier (String.ofList found) := by
    simpa [IsIdentifier] using ⟨nonempty, inside⟩
  rw [← same.1]
  refine declared?_of_content "type" (String.ofList found) ' ' ("= ".toList ++ afterSign)
    ?_ (.inl rfl) (by decide) identifier (by decide)
  rw [literal?_eq_some_iff.mp word, split, literal?_eq_some_iff.mp sign]
  simp

end Outline

open Outline

theorem Method.returnType?_signature {method : Method} (identifier : IsIdentifier method.name)
    {parameter : Parameter} (parameters : method.parameters = [parameter])
    (plain : ')' ∉ parameter.text.toList) :
    returnType? (method.signature ++ ";") = some method.returnType := by
  obtain ⟨before, shown, free⟩ : ∃ before : List Char,
      (method.signature ++ ";").toList =
        before ++ ("): ".toList ++ (method.returnType.toList ++ [';'])) ∧ ')' ∉ before := by
    refine ⟨(if method.isStatic then "static " else "").toList ++ method.name.toList ++ '(' ::
      parameter.text.toList, ?_, ?_⟩
    · simp [Method.signature, parameters]
    · have inName : ')' ∉ method.name.toList := identifier.not_mem (by decide)
      have inMarker : ')' ∉ (if method.isStatic then "static " else "").toList := by
        split <;> decide
      simp [inName, inMarker, plain]
  have skipped : (before ++ ("): ".toList ++ (method.returnType.toList ++ [';']))).dropWhile
      (· != ')') = "): ".toList ++ (method.returnType.toList ++ [';']) := by
    rw [List.dropWhile_append_of_pos]
    · simp
    · intro character membership
      rw [bne_iff_ne]
      rintro rfl
      exact free membership
  rw [returnType?, shown, skipped, literal?_append]
  exact statement?_append method.returnType

namespace Declaration

theorem typeAlias?_outline {name target : String} (identifier : IsIdentifier name) (depth : Nat) :
    typeAlias? (outline depth (.typeAlias name target)).head = some (name, segments target) := by
  have shown : content (outline depth (.typeAlias name target)).head =
      "export type ".toList ++
        (name.toList ++ ' ' :: ("= ".toList ++ (target.toList ++ [';']))) := by
    have split : (outline depth (.typeAlias name target)).head =
        indentation depth ++ ("export " ++ ("type " ++ name ++ " = " ++ target ++ ";")) := by
      simp [outline, Outline.head, ← String.append_assoc]
    rw [split, content_export]
    simp
  have readName : run? isIdentifier
      (name.toList ++ ' ' :: ("= ".toList ++ (target.toList ++ [';']))) =
        some (name.toList, ' ' :: ("= ".toList ++ (target.toList ++ [';']))) :=
    run?_append identifier.1 identifier.2 (by decide)
  have readSign : literal? " = " (' ' :: ("= ".toList ++ (target.toList ++ [';']))) =
      some (target.toList ++ [';']) :=
    literal?_append " = " _
  rw [typeAlias?, shown, literal?_append]
  simp only [Option.bind_eq_bind, Option.bind_some, readName, readSign, statement?_append,
    String.ofList_toList]

theorem exists_typeAlias_of_typeAlias? {declaration : Declaration} {depth : Nat} {name : String}
    {path : List String} (legible : declaration.Legible)
    (read : typeAlias? (outline depth declaration).head = some (name, path)) :
    ∃ target, declaration = .typeAlias name target ∧ segments target = path := by
  have shown := declared?_of_typeAlias? read
  rw [declared?_outline depth legible.isIdentifier_name, Option.some.injEq, Prod.mk.injEq] at shown
  cases declaration with
  | typeAlias own target =>
      have identifier : IsIdentifier own := legible.isIdentifier_name
      rw [typeAlias?_outline identifier, Option.some.injEq, Prod.mk.injEq] at read
      exact ⟨target, by rw [read.1], read.2⟩
  | classBody _ _ | interfaceBody _ _ | enumeration _ | function _ _ | constant _ _
  | namespaceBlock _ _ => simp [Declaration.keyword] at shown

end Declaration

end AmbientStubs
