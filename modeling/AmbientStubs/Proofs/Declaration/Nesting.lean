import AmbientStubs.Proofs.Declaration.File
import AmbientStubs.Proofs.Text.Readers

/-!
Properly nested lines.  Going through the lines of a text, a reader counts the open blocks and
compares each line with their number; what the reader accepts is balanced, indented by the blocks
around each line, and has no empty block.  The lines of declarations are accepted if none of their
namespace blocks is empty.
-/

namespace AmbientStubs

open Text

namespace Outline

/-- The white space at the start of a line is two spaces for every block around it. -/
def IsIndented (depth : Nat) (line : String) : Prop :=
  line.toList.takeWhile isBlank = List.replicate (2 * depth) ' '

instance (depth : Nat) (line : String) : Decidable (IsIndented depth line) :=
  inferInstanceAs (Decidable (_ = _))

/-- Lines of which every one stands inside the blocks that its indentation shows, and in which every
block is closed and has something inside.  A closing line does not stand inside its own block. -/
structure ProperlyNested (lines : List String) : Prop where
  notBelowZero : ∀ front, front <+: lines → front.countP closesBlock ≤ front.countP opensBlock
  balanced : lines.countP closesBlock = lines.countP opensBlock
  indented : ∀ front line rest, lines = front ++ line :: rest →
    IsIndented (front.countP opensBlock - (front ++ [line]).countP closesBlock) line
  filled : ∀ front line rest, lines = front ++ line :: rest → opensBlock line = true →
    ∃ next more, rest = next :: more ∧ closesBlock next = false

structure Nesting where
  /-- The number of open blocks. -/
  depth : Nat := 0
  /-- Whether the last line opened a block. -/
  justOpened : Bool := false

/-- Check one more line; none if the blocks around it are not those that its indentation shows, or
if it closes a block that is not open or has nothing inside. -/
def Nesting.add? (nesting : Nesting) (line : String) : Option Nesting :=
  if opensBlock line then
    if IsIndented nesting.depth line then some ⟨nesting.depth + 1, true⟩ else none
  else if closesBlock line then
    match nesting with
    | ⟨depth + 1, false⟩ => if IsIndented depth line then some ⟨depth, false⟩ else none
    | _ => none
  else if IsIndented nesting.depth line then some ⟨nesting.depth, false⟩
  else none

theorem opensBlock_of_closesBlock {line : String} (closing : closesBlock line = true) :
    opensBlock line = false := by
  have shown : line.toList = line.toList.takeWhile (· == ' ') ++ ['}'] := by
    rw [← beq_iff_eq.mp closing, content, List.takeWhile_append_dropWhile]
  refine opensBlock_eq_false '}' ?_ (by decide)
  rw [shown, List.getLast?_concat]

theorem closesBlock_of_opensBlock {line : String} (opening : opensBlock line = true) :
    closesBlock line = false := by
  rw [Bool.eq_false_iff]
  intro closing
  rw [opensBlock_of_closesBlock closing] at opening
  contradiction

namespace Nesting

variable {nesting next last : Nesting} {line : String} {lines : List String}

/-- What a line can do: open a block, close a block with something inside, or stand alone. -/
theorem add?_cases (checked : nesting.add? line = some next) :
    (opensBlock line = true ∧ IsIndented nesting.depth line ∧ next = ⟨nesting.depth + 1, true⟩) ∨
    (closesBlock line = true ∧ ∃ depth, nesting = ⟨depth + 1, false⟩ ∧ IsIndented depth line ∧
      next = ⟨depth, false⟩) ∨
    ((opensBlock line = false ∧ closesBlock line = false) ∧ IsIndented nesting.depth line ∧
      next = ⟨nesting.depth, false⟩) := by
  unfold add? at checked
  split at checked
  · next opening =>
      obtain ⟨indented, same⟩ := Option.ite_none_right_eq_some.mp checked
      exact .inl ⟨opening, indented, (Option.some.inj same).symm⟩
  · next notOpening =>
      split at checked
      · next closing =>
          split at checked
          · next depth =>
              obtain ⟨indented, same⟩ := Option.ite_none_right_eq_some.mp checked
              exact .inr (.inl ⟨closing, depth, rfl, indented, (Option.some.inj same).symm⟩)
          · contradiction
      · next notClosing =>
          obtain ⟨indented, same⟩ := Option.ite_none_right_eq_some.mp checked
          exact .inr (.inr ⟨⟨Bool.eq_false_iff.mpr notOpening, Bool.eq_false_iff.mpr notClosing⟩,
            indented, (Option.some.inj same).symm⟩)

/-- One line changes the number of open blocks by what it opens and closes. -/
theorem depth_add? (checked : nesting.add? line = some next) :
    next.depth + [line].countP closesBlock = nesting.depth + [line].countP opensBlock := by
  simp only [List.countP_singleton]
  rcases add?_cases checked with ⟨opening, -, rfl⟩ | ⟨closing, depth, rfl, -, rfl⟩ |
    ⟨⟨notOpening, notClosing⟩, -, rfl⟩
  · simp [opening, closesBlock_of_opensBlock opening]
  · simp [closing, opensBlock_of_closesBlock closing]
  · simp [notOpening, notClosing]

theorem isIndented_of_add? (checked : nesting.add? line = some next) :
    IsIndented (nesting.depth - [line].countP closesBlock) line := by
  rw [List.countP_singleton]
  rcases add?_cases checked with ⟨opening, indented, -⟩ | ⟨closing, depth, rfl, indented, -⟩ |
    ⟨⟨-, notClosing⟩, indented, -⟩
  · simpa [closesBlock_of_opensBlock opening] using indented
  · simpa [closing] using indented
  · simpa [notClosing] using indented

theorem closesBlock_of_justOpened (checked : nesting.add? line = some next)
    (opened : nesting.justOpened = true) : closesBlock line = false := by
  rcases add?_cases checked with ⟨opening, -⟩ | ⟨-, depth, rfl, -⟩ | ⟨⟨-, notClosing⟩, -⟩
  · exact closesBlock_of_opensBlock opening
  · contradiction
  · exact notClosing

theorem depth_foldlM (checked : lines.foldlM add? nesting = some last) :
    last.depth + lines.countP closesBlock = nesting.depth + lines.countP opensBlock := by
  induction lines generalizing nesting with
  | nil =>
      obtain rfl : nesting = last := Option.some.inj checked
      rfl
  | cons line rest inductionHypothesis =>
      rw [List.foldlM_cons] at checked
      obtain ⟨next, first, others⟩ := Option.bind_eq_some_iff.mp checked
      have step := depth_add? first
      have run := inductionHypothesis others
      rw [← List.singleton_append, List.countP_append, List.countP_append]
      omega

/-- A check of some lines is a check of the lines before one of them, of this line, and of the lines
behind it. -/
theorem exists_step {front rest : List String}
    (checked : (front ++ line :: rest).foldlM add? nesting = some last) :
    ∃ before behind, front.foldlM add? nesting = some before ∧ before.add? line = some behind ∧
      rest.foldlM add? behind = some last := by
  rw [List.foldlM_append] at checked
  obtain ⟨before, first, others⟩ := Option.bind_eq_some_iff.mp checked
  rw [List.foldlM_cons] at others
  obtain ⟨behind, step, others⟩ := Option.bind_eq_some_iff.mp others
  exact ⟨before, behind, first, step, others⟩

theorem properlyNested {justOpened : Bool} (checked : lines.foldlM add? {} = some ⟨0, justOpened⟩) :
    ProperlyNested lines where
  notBelowZero := by
    rintro front ⟨rest, rfl⟩
    rw [List.foldlM_append] at checked
    obtain ⟨middle, first, -⟩ := Option.bind_eq_some_iff.mp checked
    have counted : middle.depth + _ = 0 + _ := depth_foldlM first
    omega
  balanced := by
    have counted : 0 + _ = 0 + _ := depth_foldlM checked
    omega
  indented := by
    rintro front line rest rfl
    obtain ⟨before, behind, first, step, -⟩ := exists_step checked
    have counted : before.depth + _ = 0 + _ := depth_foldlM first
    have depth : front.countP opensBlock - (front ++ [line]).countP closesBlock =
        before.depth - [line].countP closesBlock := by
      rw [List.countP_append]
      omega
    rw [depth]
    exact isIndented_of_add? step
  filled := by
    rintro front line rest rfl opening
    obtain ⟨before, behind, -, step, others⟩ := exists_step checked
    obtain rfl : behind = ⟨before.depth + 1, true⟩ := by
      rcases add?_cases step with ⟨-, -, same⟩ | ⟨closing, -⟩ | ⟨⟨notOpening, -⟩, -⟩
      · exact same
      · rw [opensBlock_of_closesBlock closing] at opening
        contradiction
      · rw [notOpening] at opening
        contradiction
    cases rest with
    | nil => cases others
    | cons next more =>
        rw [List.foldlM_cons] at others
        obtain ⟨_, step, -⟩ := Option.bind_eq_some_iff.mp others
        exact ⟨next, more, rfl, closesBlock_of_justOpened step rfl⟩

end Nesting

end Outline

namespace Declaration

open Outline

mutual

/-- Whether all namespace blocks of a declaration have something inside. -/
def Filled : Declaration → Prop
  | classBody _ _ | interfaceBody _ _ | enumeration _ | typeAlias _ _ | function _ _
  | constant _ _ => True
  | namespaceBlock _ members => members ≠ [] ∧ AllFilled members

def AllFilled : List Declaration → Prop
  | [] => True
  | declaration :: rest => Filled declaration ∧ AllFilled rest

end

theorem allFilled_iff {declarations : List Declaration} :
    AllFilled declarations ↔ ∀ declaration ∈ declarations, declaration.Filled := by
  induction declarations with
  | nil => simp [AllFilled]
  | cons declaration rest inductionHypothesis => simp [AllFilled, inductionHypothesis]

theorem isIndented_indentation (depth : Nat) {text : String} (solid : StartsSolid text.toList) :
    IsIndented depth (indentation depth ++ text) := by
  have blank : ∀ character ∈ List.replicate (2 * depth) ' ', isBlank character = true := by
    intro character listed
    rw [List.eq_of_mem_replicate listed]
    decide
  rw [IsIndented, String.toList_append, indentation, String.toList_ofList,
    takeWhile_append blank solid]

theorem isIndented_export (depth : Nat) (text : String) :
    IsIndented depth (indentation depth ++ ("export " ++ text)) := by
  apply isIndented_indentation
  rw [String.toList_append]
  exact startsSolid_cons.mpr (by decide)

section Steps

variable {depth : Nat} {justOpened : Bool} {text : String}

theorem nesting_standsAlone {line : String} (alone : StandsAlone line)
    (indented : IsIndented depth line) :
    Nesting.add? ⟨depth, justOpened⟩ line = some ⟨depth, false⟩ := by
  simp [Nesting.add?, alone.1, alone.2, indented]

theorem nesting_opening (indented : IsIndented depth (text ++ " \x7b")) :
    Nesting.add? ⟨depth, justOpened⟩ (text ++ " \x7b") = some ⟨depth + 1, true⟩ := by
  simp [Nesting.add?, opensBlock_append, indented]

theorem closesBlock_closing (depth : Nat) : closesBlock (indentation depth ++ "\x7d") = true := by
  rw [closesBlock, content_indentation]
  rfl

theorem nesting_closing (depth : Nat) :
    Nesting.add? ⟨depth + 1, false⟩ (indentation depth ++ "\x7d") = some ⟨depth, false⟩ := by
  have closing := closesBlock_closing depth
  have indented : IsIndented depth (indentation depth ++ "\x7d") :=
    isIndented_indentation depth (startsSolid_cons.mpr (by decide))
  simp [Nesting.add?, opensBlock_of_closesBlock closing, closing, indented]

/-- Lines that stand alone leave the depth as it is; the block around them is no longer empty if
there are any. -/
theorem nesting_allStandAlone {lines : List String}
    (alone : ∀ line ∈ lines, StandsAlone line ∧ IsIndented depth line) :
    lines.foldlM Nesting.add? ⟨depth, justOpened⟩ = some ⟨depth, justOpened && lines.isEmpty⟩ := by
  induction lines generalizing justOpened with
  | nil => simp
  | cons line rest inductionHypothesis =>
      obtain ⟨first, others⟩ := List.forall_mem_cons.mp alone
      rw [List.foldlM_cons, nesting_standsAlone first.1 first.2, List.isEmpty_cons, Bool.and_false]
      exact inductionHypothesis others

end Steps

theorem startsSolid_signature {method : Method} (identifier : IsIdentifier method.name) :
    StartsSolid (method.signature ++ ";").toList := by
  obtain ⟨first, more, shape⟩ := List.exists_cons_of_ne_nil identifier.1
  have solid : isBlank first = false :=
    isBlank_eq_false_of_isIdentifier (identifier.2 first (shape ▸ List.mem_cons_self))
  cases isStatic : method.isStatic with
  | true =>
      simp only [Method.signature, isStatic, if_true, String.append_assoc, String.toList_append]
      exact startsSolid_cons.mpr (by decide)
  | false =>
      simpa [Method.signature, isStatic, shape, StartsSolid] using solid

theorem nesting_bodyLines (depth : Nat) (justOpened : Bool) (text : String) {methods : List Method}
    (legible : ∀ method ∈ methods, method.Legible) :
    (bodyLines depth ("export " ++ text) methods).foldlM Nesting.add? ⟨depth, justOpened⟩ =
      some ⟨depth, false⟩ := by
  have indented (rest : String) :
      IsIndented depth (indentation depth ++ ("export " ++ text) ++ rest) := by
    rw [String.append_assoc, String.append_assoc]
    exact isIndented_export depth _
  unfold bodyLines
  split
  · have alone := standsAlone_emptyBody (indentation depth ++ ("export " ++ text)) (by simp)
    simp [nesting_standsAlone alone (indented _)]
  · next nonempty =>
      have statements : ∀ line ∈ methods.map fun method =>
          indentation (depth + 1) ++ method.signature ++ ";",
          StandsAlone line ∧ IsIndented (depth + 1) line := by
        intro line listed
        obtain ⟨method, member, rfl⟩ := List.mem_map.mp listed
        refine ⟨standsAlone_statement _, ?_⟩
        rw [String.append_assoc]
        exact isIndented_indentation _ (startsSolid_signature (legible method member).name)
      have opened : (methods.map fun method =>
          indentation (depth + 1) ++ method.signature ++ ";").isEmpty = false := by
        simpa using nonempty
      rw [List.append_assoc, List.foldlM_append, List.foldlM_cons, nesting_opening (indented _)]
      simp only [List.foldlM_nil, Option.bind_eq_bind, Option.bind_some, Option.pure_def,
        List.foldlM_append, nesting_allStandAlone statements, opened, Bool.and_false,
        List.foldlM_cons, nesting_closing]

theorem nesting_singleton (depth : Nat) (justOpened : Bool) {line : String}
    (alone : StandsAlone line) (indented : IsIndented depth line) :
    [line].foldlM Nesting.add? ⟨depth, justOpened⟩ = some ⟨depth, false⟩ := by
  rw [List.foldlM_cons, nesting_standsAlone alone indented]
  rfl

mutual

theorem nesting_lines (depth : Nat) (justOpened : Bool) :
    ∀ declaration : Declaration, declaration.Legible → declaration.Filled →
      (lines depth declaration).foldlM Nesting.add? ⟨depth, justOpened⟩ = some ⟨depth, false⟩
  | classBody name methods, legible, _ => by
      rw [Legible] at legible
      rw [lines, String.append_assoc, String.append_assoc]
      exact nesting_bodyLines depth justOpened _ legible.2
  | interfaceBody name methods, legible, _ => by
      rw [Legible] at legible
      have head : "export interface " ++ name = "export " ++ ("interface " ++ name) := by
        rw [← String.append_assoc]
        rfl
      rw [lines, head]
      exact nesting_bodyLines depth justOpened _ legible.2
  | enumeration name, _, _ => by
      rw [lines]
      refine nesting_singleton depth justOpened (standsAlone_emptyBody _ (by simp)) ?_
      simp only [String.append_assoc]
      exact isIndented_export depth _
  | typeAlias name target, _, _ => by
      have head : indentation depth ++ "export type " = indentation depth ++ "export " ++ "type " := by
        rw [String.append_assoc]
        rfl
      rw [lines, head]
      refine nesting_singleton depth justOpened (standsAlone_statement _) ?_
      simp only [String.append_assoc]
      exact isIndented_export depth _
  | function name returnType, _, _ | constant name type, _, _ => by
      rw [lines]
      refine nesting_singleton depth justOpened (standsAlone_statement _) ?_
      simp only [String.append_assoc]
      exact isIndented_export depth _
  | namespaceBlock name members, legible, filled => by
      rw [Legible] at legible
      rw [Filled] at filled
      have indented : IsIndented depth
          (indentation depth ++ "export " ++ ambient depth ++ "namespace " ++ name ++ " \x7b") := by
        simp only [String.append_assoc]
        exact isIndented_export depth _
      have inside := nesting_scopeLines (depth + 1) true members legible.2 filled.2
      have nonempty : members.isEmpty = false := by simpa using filled.1
      rw [nonempty, Bool.and_false] at inside
      rw [lines, List.cons_append, List.foldlM_cons, nesting_opening indented, Option.bind_eq_bind,
        Option.bind_some, List.foldlM_append, inside, Option.bind_eq_bind, Option.bind_some,
        List.foldlM_cons, nesting_closing]
      rfl

theorem nesting_scopeLines (depth : Nat) (justOpened : Bool) :
    ∀ declarations : List Declaration, AllLegible declarations → AllFilled declarations →
      (scopeLines depth declarations).foldlM Nesting.add? ⟨depth, justOpened⟩ =
        some ⟨depth, justOpened && declarations.isEmpty⟩
  | [], _, _ => by simp [scopeLines]
  | declaration :: rest, legible, filled => by
      rw [AllLegible] at legible
      rw [AllFilled] at filled
      rw [scopeLines, List.foldlM_append,
        nesting_lines depth justOpened declaration legible.1 filled.1]
      simpa using nesting_scopeLines depth false rest legible.2 filled.2

end

theorem declared?_method {method : Method} (identifier : IsIdentifier method.name) (depth : Nat) :
    declared? (indentation depth ++ method.signature ++ ";") = none := by
  obtain ⟨rest, shown⟩ := content_method identifier depth
  have noExport : literal? "export " (content (indentation depth ++ method.signature ++ ";")) =
      none := by
    rw [shown, Option.eq_none_iff_forall_ne_some]
    intro behind read
    have split := literal?_eq_some_iff.mp read
    cases isStatic : method.isStatic with
    | true => simp [isStatic] at split
    | false =>
        have exporting : IsIdentifier "export" := by decide +kernel
        have same : method.name.toList ++ '(' :: rest = "export".toList ++ ' ' :: behind := by
          simpa [isStatic] using split
        have different :=
          (eq_of_append_eq_append identifier exporting (by decide) (by decide) same).2
        exact absurd different (by decide)
  rw [declared?, noExport]
  rfl

theorem declared?_closing (depth : Nat) : declared? (indentation depth ++ "\x7d") = none := by
  rw [declared?, content_indentation]
  rfl

theorem eq_head_of_mem_bodyLines {depth : Nat} {head line : String} {methods : List Method}
    (legible : ∀ method ∈ methods, method.Legible)
    (membership : line ∈ bodyLines depth head methods) :
    line = (bodyOutline depth head methods).head ∨ declared? line = none := by
  unfold bodyLines at membership
  unfold bodyOutline
  split at membership
  · next empty =>
      rw [if_pos empty]
      exact .inl (List.mem_singleton.mp membership)
  · next nonempty =>
      rw [if_neg nonempty]
      simp only [List.mem_append, List.mem_singleton, List.mem_map] at membership
      rcases membership with (rfl | ⟨method, listed, rfl⟩) | rfl
      · exact .inl rfl
      · exact .inr (declared?_method (legible method listed).name (depth + 1))
      · exact .inr (declared?_closing depth)

theorem head?_lines (depth : Nat) (declaration : Declaration) :
    (lines depth declaration).head? = some (outline depth declaration).head := by
  cases declaration with
  | classBody name methods | interfaceBody name methods =>
      rw [lines, outline, bodyLines, bodyOutline]
      split <;> rfl
  | enumeration _ | typeAlias _ _ | function _ _ | constant _ _ | namespaceBlock _ _ =>
      rw [lines, outline]
      rfl

/-- Only the head of a namespace block declares a namespace, and it opens a block. -/
theorem opensBlock_of_head {declaration : Declaration} {depth : Nat} {name : String}
    (legible : declaration.Legible)
    (named : declared? (outline depth declaration).head = some ("namespace", name)) :
    opensBlock (outline depth declaration).head = true := by
  rw [declared?_outline depth legible.isIdentifier_name] at named
  cases declaration with
  | namespaceBlock name members =>
      rw [outline]
      exact opensBlock_append _
  | classBody _ _ | interfaceBody _ _ | enumeration _ | typeAlias _ _ | function _ _
  | constant _ _ => simp [Declaration.keyword] at named

theorem opensBlock_of_mem_bodyLines {declaration : Declaration} {depth : Nat}
    {line head name : String} {methods : List Method} (legible : declaration.Legible)
    (read : outline depth declaration = bodyOutline depth head methods)
    (readable : ∀ method ∈ methods, method.Legible)
    (membership : line ∈ bodyLines depth head methods)
    (named : declared? line = some ("namespace", name)) : opensBlock line = true := by
  rcases eq_head_of_mem_bodyLines readable membership with shown | silent
  · rw [← read] at shown
    rw [shown] at named ⊢
    exact opensBlock_of_head legible named
  · rw [silent] at named
    contradiction

theorem opensBlock_of_mem_singleton {declaration : Declaration} {depth : Nat}
    {line single name : String} (legible : declaration.Legible)
    (shown : lines depth declaration = [single]) (membership : line ∈ [single])
    (named : declared? line = some ("namespace", name)) : opensBlock line = true := by
  have head := head?_lines depth declaration
  rw [shown, List.head?_cons, Option.some.injEq, ← List.mem_singleton.mp membership] at head
  rw [head] at named ⊢
  exact opensBlock_of_head legible named

mutual

theorem opensBlock_of_mem_lines {line name : String} (depth : Nat) :
    ∀ declaration : Declaration, declaration.Legible → line ∈ lines depth declaration →
      declared? line = some ("namespace", name) → opensBlock line = true
  | classBody className methods, legible, membership, named
  | interfaceBody className methods, legible, membership, named => by
      have readable := legible
      rw [Legible] at readable
      rw [lines] at membership
      exact opensBlock_of_mem_bodyLines legible (by rw [outline]) readable.2 membership named
  | enumeration enumName, legible, membership, named
  | typeAlias aliasName target, legible, membership, named
  | function functionName returnType, legible, membership, named
  | constant constantName type, legible, membership, named => by
      rw [lines] at membership
      exact opensBlock_of_mem_singleton legible (by rw [lines]) membership named
  | namespaceBlock blockName members, legible, membership, named => by
      rw [Legible] at legible
      rw [lines, List.mem_append, List.mem_cons, List.mem_singleton] at membership
      rcases membership with (rfl | inside) | rfl
      · exact opensBlock_append _
      · exact opensBlock_of_mem_scopeLines (depth + 1) members legible.2 inside named
      · rw [declared?_closing] at named
        contradiction

theorem opensBlock_of_mem_scopeLines {line name : String} (depth : Nat) :
    ∀ declarations : List Declaration, AllLegible declarations →
      line ∈ scopeLines depth declarations → declared? line = some ("namespace", name) →
      opensBlock line = true
  | [], _, membership, _ => by simp [scopeLines] at membership
  | declaration :: rest, legible, membership, named => by
      rw [AllLegible] at legible
      rw [scopeLines, List.mem_append] at membership
      rcases membership with first | later
      · exact opensBlock_of_mem_lines depth declaration legible.1 first named
      · exact opensBlock_of_mem_scopeLines depth rest legible.2 later named

end

end Declaration

namespace DeclarationFile

open Declaration Outline

variable {file : DeclarationFile}

theorem isIndented_header {line : String} (membership : line ∈ header file.modulePath) :
    IsIndented 0 line := by
  simp only [header, List.mem_cons, List.not_mem_nil, or_false] at membership
  rcases membership with rfl | rfl | rfl
  · rw [IsIndented, String.append_assoc, String.toList_append]
    rfl
  · decide
  · decide

theorem isIndented_closingLines {line : String} (membership : line ∈ file.closingLines) :
    IsIndented 0 line := by
  unfold closingLines at membership
  split at membership
  · rw [List.mem_singleton.mp membership]
    decide
  · simp only [Option.mem_toList, Option.map_eq_some_iff] at membership
    obtain ⟨name, -, rfl⟩ := membership
    rw [IsIndented, String.append_assoc, String.toList_append]
    rfl

/-- The lines of a legible file are properly nested if no namespace block of it is empty. -/
theorem properlyNested_lines (legible : file.Legible) (filled : AllFilled file.declarations) :
    ProperlyNested file.lines := by
  have before : ∀ line ∈ header file.modulePath, StandsAlone line ∧ IsIndented 0 line :=
    fun line membership =>
      ⟨(header_lines legible.modulePath membership).2.1, isIndented_header membership⟩
  have behind : ∀ line ∈ file.closingLines, StandsAlone line ∧ IsIndented 0 line :=
    fun line membership =>
      ⟨(closing_lines legible (List.mem_append_left _ membership)).2.1,
        isIndented_closingLines membership⟩
  apply Nesting.properlyNested
  rw [lines_eq legible, List.foldlM_append, List.foldlM_append, nesting_allStandAlone before,
    Option.bind_eq_bind, Option.bind_some, nesting_scopeLines 0 _ _ legible.declarations filled,
    Option.bind_some, nesting_allStandAlone behind]

theorem opensBlock_of_mem_fileLines (legible : file.Legible) {line name : String}
    (membership : line ∈ file.lines) (named : declared? line = some ("namespace", name)) :
    opensBlock line = true := by
  rw [lines_eq legible, List.mem_append, List.mem_append] at membership
  rcases membership with (inHeader | inScope) | closing
  · rw [(header_lines legible.modulePath inHeader).2.2] at named
    contradiction
  · exact opensBlock_of_mem_scopeLines 0 _ legible.declarations inScope named
  · rw [(closing_lines legible (List.mem_append_left _ closing)).2.2] at named
    contradiction

theorem bodyLines_eq_nil_iff (legible : file.Legible) :
    file.bodyLines = [] ↔ file.declarations = [] ∧ file.defaultExport = none := by
  rw [bodyLines, legible.verbatim, List.append_nil, List.append_eq_nil_iff]
  refine and_congr ?_ (by simp)
  cases file.declarations with
  | nil => simp [scopeLines]
  | cons declaration rest =>
      have nonempty : Declaration.lines 0 declaration ≠ [] := by
        intro empty
        have head := head?_lines 0 declaration
        rw [empty] at head
        contradiction
      simp [scopeLines, nonempty]

theorem head?_bodyLines_ne (legible : file.Legible) :
    file.bodyLines.head? ≠ some "export \x7b\x7d;" := by
  rw [bodyLines, legible.verbatim, List.append_nil]
  cases same : file.declarations with
  | nil =>
      rw [scopeLines, List.nil_append]
      cases file.defaultExport with
      | none => simp
      | some name =>
          intro shown
          have same : "export default " ++ name ++ ";" = "export \x7b\x7d;" :=
            Option.some.inj shown
          have exported := exportsDefault_defaultExport name
          rw [same] at exported
          exact absurd exported (by decide)
  | cons declaration rest =>
      intro shown
      have readable := legible.declarations
      rw [same, AllLegible] at readable
      have named := declared?_outline 0 readable.1.isIdentifier_name
      rw [scopeLines, List.append_assoc, List.head?_append, head?_lines, Option.some_or,
        Option.some.injEq] at shown
      have silent : declared? "export \x7b\x7d;" = none := by decide
      rw [shown, silent] at named
      contradiction

/-- Behind the header stands at least one line, and it tells whether anything is declared. -/
theorem exists_first_line (legible : file.Legible) :
    ∃ first rest, file.lines = header file.modulePath ++ first :: rest ∧
      (first = "export \x7b\x7d;" ↔ file.declarations = [] ∧ file.defaultExport = none) ∧
      (first = "export \x7b\x7d;" → rest = []) := by
  rw [← bodyLines_eq_nil_iff legible, lines]
  cases body : file.bodyLines with
  | nil => exact ⟨_, [], rfl, by simp, fun _ => rfl⟩
  | cons first rest =>
      have different : first ≠ "export \x7b\x7d;" := by
        intro same
        have head := head?_bodyLines_ne legible
        rw [body, same] at head
        exact head rfl
      exact ⟨first, rest, rfl, by simp [different], fun same => absurd same different⟩

end DeclarationFile

end AmbientStubs
