import AmbientStubs.Declaration
import AmbientStubs.Proofs.Text.Pieces

/-!
Reading a declaration text back.  A line that ends in ` {` opens a block and a line that is
`}` after its indentation closes one, so a text is read as an outline of lines and blocks;
a line that declares something shows its keyword and its name.
-/

namespace AmbientStubs

open Text

/-- What a reader of a text sees: a single line, or a block with the line that opens it. -/
inductive Outline where
  | line (text : String)
  | block (head : String) (inner : List Outline)

namespace Outline

def content (line : String) : List Char :=
  line.toList.dropWhile (· == ' ')

def opensBlock (line : String) : Bool :=
  endsWith line " \x7b"

def closesBlock (line : String) : Bool :=
  content line == ['}']

structure Reading where
  /-- What has been read of the innermost open scope. -/
  scope : List Outline := []
  /-- The open blocks, innermost first: what stands before each in its scope, and its
  head. -/
  around : List (List Outline × String) := []

/-- Read one more line; none if it closes a block where none is open. -/
def Reading.add? (reading : Reading) (line : String) : Option Reading :=
  if opensBlock line then some ⟨[], (reading.scope, line) :: reading.around⟩
  else if closesBlock line then
    match reading.around with
    | [] => none
    | (before, head) :: around => some ⟨before ++ [.block head reading.scope], around⟩
  else some { reading with scope := reading.scope ++ [.line line] }

/-- The outline of some lines; none if they are not properly nested. -/
def ofLines? (lines : List String) : Option (List Outline) :=
  match lines.foldlM Reading.add? {} with
  | some ⟨scope, []⟩ => some scope
  | _ => none

def ofText? (text : String) : Option (List Outline) :=
  ofLines? (splitText '\n' text)

def head : Outline → String
  | line text => text
  | block head _ => head

def keywords : List String :=
  ["class", "interface", "enum", "type", "function", "const", "namespace"]

/-- The keyword and the name on a line `export [declare] keyword name …`. -/
def declared? (line : String) : Option (String × String) := do
  let rest ← literal? "export " (content line)
  let (keyword, rest) ← run? isIdentifier ((literal? "declare " rest).getD rest)
  let rest ← literal? " " rest
  let (name, _) ← run? isIdentifier rest
  if String.ofList keyword ∈ keywords then some (String.ofList keyword, String.ofList name)
  else none

/-- The keywords with which a scope declares a name, in order. -/
def keywordsFor (name : String) (scope : List Outline) : List String :=
  scope.filterMap fun item =>
    match declared? item.head with
    | some (keyword, declaredName) => if declaredName = name then some keyword else none
    | none => none

/-- The scope that a path of namespace blocks leads to, each directly inside the one
before. -/
inductive ScopeAt : List Outline → List String → List Outline → Prop where
  | here {scope : List Outline} : ScopeAt scope [] scope
  | inside {scope inner target : List Outline} {head name : String} {path : List String}
      (membership : .block head inner ∈ scope)
      (named : declared? head = some ("namespace", name))
      (rest : ScopeAt inner path target) : ScopeAt scope (name :: path) target

theorem content_append_of_head {text : String} (first : Char) (rest : String)
    (starts : text.toList.head? = some first) (visible : first ≠ ' ') :
    content (text ++ rest) = text.toList ++ rest.toList := by
  rw [content, String.toList_append]
  cases shape : text.toList with
  | nil => simp [shape] at starts
  | cons character more =>
      rw [shape, List.head?_cons, Option.some.injEq] at starts
      simp [starts, visible]

theorem opensBlock_append (text : String) : opensBlock (text ++ " \x7b") = true := by
  simp [opensBlock, endsWith, List.isSuffixOf_iff_suffix]

theorem opensBlock_eq_false {line : String} (last : Char)
    (ends : line.toList.getLast? = some last) (different : last ≠ '{') :
    opensBlock line = false := by
  rw [opensBlock, endsWith, Bool.eq_false_iff, ne_eq, List.isSuffixOf_iff_suffix]
  rintro ⟨before, same⟩
  rw [← same] at ends
  simp [eq_comm, different] at ends

theorem closesBlock_eq_false {line : String} (character : Char)
    (membership : character ∈ line.toList) (visible : character ≠ ' ')
    (different : character ≠ '}') : closesBlock line = false := by
  rw [closesBlock, beq_eq_false_iff_ne]
  intro closing
  rw [← List.takeWhile_append_dropWhile (p := (· == ' ')) (l := line.toList)] at membership
  rcases List.mem_append.mp membership with blank | rest
  · have space := List.all_eq_true.mp List.all_takeWhile character blank
    exact visible (beq_iff_eq.mp space)
  · rw [content] at closing
    rw [closing, List.mem_singleton] at rest
    exact different rest

theorem literal?_declare_eq_none (keyword : String) (word : IsIdentifier keyword)
    (noMarker : keyword ≠ "declare") (rest : List Char) :
    literal? "declare " (keyword.toList ++ ' ' :: rest) = none := by
  cases marker : literal? "declare " (keyword.toList ++ ' ' :: rest) with
  | none => rfl
  | some after =>
      have split : keyword.toList ++ ' ' :: rest = "declare".toList ++ ' ' :: after := by
        simpa using literal?_eq_some_iff.mp marker
      have marked : IsIdentifier "declare" := by decide +kernel
      have same := eq_of_append_eq_append word marked (by decide) (by decide) split
      exact absurd same.1 noMarker

theorem isIdentifier_of_mem_keywords : ∀ keyword ∈ keywords, IsIdentifier keyword := by
  decide +kernel

/-- A line is read by its keyword and its name, whatever follows the name. -/
theorem declared?_of_content {line : String} {marker : List Char} (keyword name : String)
    (next : Char) (rest : List Char)
    (shown : content line = "export ".toList ++
      (marker ++ (keyword.toList ++ ' ' :: (name.toList ++ next :: rest))))
    (marked : marker = [] ∨ marker = "declare ".toList)
    (known : keyword ∈ keywords) (identifier : IsIdentifier name)
    (ends : isIdentifier next = false) : declared? line = some (keyword, name) := by
  have word : IsIdentifier keyword := isIdentifier_of_mem_keywords keyword known
  have noMarker : keyword ≠ "declare" := by
    rintro rfl
    exact absurd known (by decide)
  have readKeyword : run? isIdentifier (keyword.toList ++ ' ' :: (name.toList ++ next :: rest)) =
      some (keyword.toList, ' ' :: (name.toList ++ next :: rest)) :=
    run?_append word.1 word.2 (by decide)
  have readSpace : literal? " " (' ' :: (name.toList ++ next :: rest)) =
      some (name.toList ++ next :: rest) :=
    literal?_append " " _
  have readName : run? isIdentifier (name.toList ++ next :: rest) =
      some (name.toList, next :: rest) :=
    run?_append identifier.1 identifier.2 ends
  unfold declared?
  rw [shown, literal?_append]
  rcases marked with rfl | rfl
  · simp [literal?_declare_eq_none keyword word noMarker, readKeyword, readSpace, readName, known]
  · simp only [Option.bind_eq_bind, Option.bind_some, literal?_append, Option.getD_some,
      readKeyword, readSpace, readName, String.ofList_toList, known, if_true]

end Outline

end AmbientStubs
