import AmbientStubs.Proofs.Declaration.File

/-!
The bodies of classes and interfaces.  A reader of a text finds them inside the namespace
blocks that lead to them; in the text of a legible file they are the classes and interfaces
that have methods, with one line for each method.
-/

namespace AmbientStubs

open Text

structure MethodBody where
  /-- The names of the namespace blocks around it, outermost first. -/
  path : List String
  keyword : String
  name : String
  /-- The lines inside, without their indentation. -/
  lines : List String
deriving DecidableEq

namespace Outline

mutual

def bodiesOfItem (path : List String) : Outline → List MethodBody
  | line _ => []
  | block head inner =>
      match declared? head with
      | none => []
      | some (keyword, name) =>
          if keyword = "namespace" then bodies (path ++ [name]) inner
          else if keyword ∈ ["class", "interface"] then
            [⟨path, keyword, name, inner.map fun item => String.ofList (content item.head)⟩]
          else []

def bodies (path : List String) : List Outline → List MethodBody
  | [] => []
  | item :: rest => bodiesOfItem path item ++ bodies path rest

end

theorem bodies_append (path : List String) (first second : List Outline) :
    bodies path (first ++ second) = bodies path first ++ bodies path second := by
  induction first with
  | nil => simp [bodies]
  | cons item rest inductionHypothesis =>
      rw [List.cons_append, bodies, bodies, inductionHypothesis, List.append_assoc]

theorem bodies_of_lines (path : List String) (lines : List String) :
    bodies path (lines.map .line) = [] := by
  induction lines with
  | nil => rw [List.map_nil, bodies]
  | cons line rest inductionHypothesis =>
      rw [List.map_cons, bodies, bodiesOfItem, inductionHypothesis, List.nil_append]

end Outline

namespace Declaration

open Outline (content declared?)

def methodBody (path : List String) (keyword name : String) (methods : List Method) :
    List MethodBody :=
  if methods.isEmpty then []
  else [⟨path, keyword, name, methods.map fun method => method.signature ++ ";"⟩]

mutual

def bodiesIn (path : List String) : Declaration → List MethodBody
  | classBody name methods => methodBody path "class" name methods
  | interfaceBody name methods => methodBody path "interface" name methods
  | enumeration _ | typeAlias _ _ | function _ _ | constant _ _ => []
  | namespaceBlock name members => bodies (path ++ [name]) members

def bodies (path : List String) : List Declaration → List MethodBody
  | [] => []
  | declaration :: rest => bodiesIn path declaration ++ bodies path rest

end

theorem bodies_eq_flatMap (path : List String) (declarations : List Declaration) :
    bodies path declarations = declarations.flatMap (bodiesIn path) := by
  induction declarations with
  | nil => rw [bodies, List.flatMap_nil]
  | cons declaration rest inductionHypothesis =>
      rw [bodies, inductionHypothesis, List.flatMap_cons]

theorem mem_methodBody {path : List String} {keyword name : String} {methods : List Method}
    {body : MethodBody} :
    body ∈ methodBody path keyword name methods ↔
      methods ≠ [] ∧
        body = ⟨path, keyword, name, methods.map fun method => method.signature ++ ";"⟩ := by
  unfold methodBody
  cases methods with
  | nil => simp
  | cons first rest => simp

theorem bodiesOfItem_bodyOutline (path : List String) (depth : Nat) {head keyword name : String}
    {methods : List Method} (known : keyword ∈ ["class", "interface"])
    (shown : declared? (bodyOutline depth head methods).head = some (keyword, name))
    (legible : ∀ method ∈ methods, method.Legible) :
    Outline.bodiesOfItem path (bodyOutline depth head methods) =
      methodBody path keyword name methods := by
  have notNamespace : keyword ≠ "namespace" := by
    rintro rfl
    exact absurd known (by decide)
  unfold bodyOutline methodBody at *
  split
  · rw [Outline.bodiesOfItem]
  · next nonempty =>
      rw [if_neg nonempty, Outline.head] at shown
      rw [Outline.bodiesOfItem, shown]
      simp only [notNamespace, known, if_true, if_false, List.map_map, List.cons.injEq, and_true,
        MethodBody.mk.injEq, true_and]
      apply List.map_congr_left
      intro method listed
      rw [Function.comp_apply, Outline.head, content_methodLine (legible method listed).name,
        String.ofList_toList]

mutual

theorem bodiesOfItem_outline (path : List String) (depth : Nat) :
    ∀ declaration : Declaration, declaration.Legible →
      Outline.bodiesOfItem path (outline depth declaration) = bodiesIn path declaration
  | classBody name methods, legible => by
      have shown := declared?_outline depth legible.isIdentifier_name
      rw [Legible] at legible
      rw [outline] at shown ⊢
      exact bodiesOfItem_bodyOutline path depth (by decide) shown legible.2
  | interfaceBody name methods, legible => by
      have shown := declared?_outline depth legible.isIdentifier_name
      rw [Legible] at legible
      rw [outline] at shown ⊢
      exact bodiesOfItem_bodyOutline path depth (by decide) shown legible.2
  | enumeration _, _ | typeAlias _ _, _ | function _ _, _ | constant _ _, _ => by
      rw [outline, Outline.bodiesOfItem, bodiesIn]
  | namespaceBlock name members, legible => by
      have shown := declared?_outline depth legible.isIdentifier_name
      rw [Legible] at legible
      rw [outline, Outline.head] at shown
      rw [outline, Outline.bodiesOfItem, shown, bodiesIn]
      exact bodies_outlines (path ++ [name]) (depth + 1) members legible.2

theorem bodies_outlines (path : List String) (depth : Nat) :
    ∀ declarations : List Declaration, AllLegible declarations →
      Outline.bodies path (outlines depth declarations) = bodies path declarations
  | [], _ => by rw [outlines, Outline.bodies, bodies]
  | declaration :: rest, legible => by
      rw [AllLegible] at legible
      rw [outlines, Outline.bodies, bodies, bodiesOfItem_outline path depth declaration legible.1,
        bodies_outlines path depth rest legible.2]

end

mutual

theorem prefix_path_of_mem_bodiesIn {path : List String} {body : MethodBody} :
    ∀ declaration : Declaration, body ∈ bodiesIn path declaration → path <+: body.path
  | classBody _ _, membership | interfaceBody _ _, membership => by
      rw [bodiesIn] at membership
      obtain ⟨-, rfl⟩ := mem_methodBody.mp membership
      exact List.prefix_refl path
  | enumeration _, membership | typeAlias _ _, membership | function _ _, membership
  | constant _ _, membership => by simp [bodiesIn] at membership
  | namespaceBlock name members, membership => by
      rw [bodiesIn] at membership
      exact (List.prefix_append path [name]).trans (prefix_path_of_mem_bodies members membership)

theorem prefix_path_of_mem_bodies {path : List String} {body : MethodBody} :
    ∀ declarations : List Declaration, body ∈ bodies path declarations → path <+: body.path
  | [], membership => by simp [bodies] at membership
  | declaration :: rest, membership => by
      rw [bodies, List.mem_append] at membership
      rcases membership with first | later
      · exact prefix_path_of_mem_bodiesIn declaration first
      · exact prefix_path_of_mem_bodies rest later

end

/-- The bodies of a scope are found from every scope around it. -/
theorem ScopeAt.mem_bodies {declarations scope : List Declaration} {way : List String}
    (reached : ScopeAt declarations way scope) {path : List String} {body : MethodBody}
    (found : body ∈ bodies (path ++ way) scope) : body ∈ bodies path declarations := by
  induction reached generalizing path with
  | here => simpa using found
  | @inside declarations inner target name way membership _ inductionHypothesis =>
      rw [bodies_eq_flatMap]
      refine List.mem_flatMap.mpr ⟨_, membership, ?_⟩
      rw [bodiesIn]
      apply inductionHypothesis
      simpa using found

end Declaration

theorem DeclarationFile.bodies_outlines {file : DeclarationFile} (legible : file.Legible) :
    Outline.bodies [] file.outlines = Declaration.bodies [] file.declarations := by
  rw [DeclarationFile.outlines, Outline.bodies_append, Outline.bodies_append,
    Outline.bodies_of_lines, Outline.bodies_of_lines,
    Declaration.bodies_outlines [] 0 _ legible.declarations, List.nil_append, List.append_nil]

end AmbientStubs
