import AmbientStubs.Import

/-!
Import statements on one line: the word `import`, perhaps the marker `type`, a clause,
the word `from` and a quoted specifier; anything may follow.  The clause is a list of
entries in braces, `* as name` or a name.  A clause in braces binds one name per entry,
and an entry that is neither a name nor `name as alias` binds nothing.
-/

namespace AmbientStubs

open Text

inductive ImportClause where
  /-- The text between braces. -/
  | names (body : List Char)
  | wholeModule (localName : List Char)
  | defaultExport (name : List Char)
deriving DecidableEq, Repr

structure ImportStatement where
  typeOnly : Bool
  clause : ImportClause
  modulePath : List Char
deriving DecidableEq, Repr

namespace ImportClause

/-- Read a clause; its first character decides its form. -/
def read? (text : List Char) : Option (ImportClause × List Char) :=
  match text with
  | '{' :: _ => do
      let (body, rest) ← enclosed? '{' '}' text
      some (.names body, rest)
  | '*' :: rest => do
      let rest ← blanks? rest
      let rest ← keyword? "as" rest
      let (localName, rest) ← run? isIdentifier rest
      some (.wholeModule localName, rest)
  | _ => do
      let (name, rest) ← run? isIdentifier text
      some (.defaultExport name, rest)

end ImportClause

def nameAndAlias? (text : List Char) : Option (List Char × Option (List Char)) := do
  let (name, rest) ← run? isIdentifier text
  if rest.isEmpty then some (name, none)
  else
    let rest ← blanks? rest
    let rest ← keyword? "as" rest
    let (localName, rest) ← run? isIdentifier rest
    if rest.isEmpty then some (name, some localName) else none

namespace ImportStatement

def isQuote (character : Char) : Bool :=
  character == '\'' || character == '"'

def specifier? : List Char → Option (List Char)
  | [] => none
  | opening :: text =>
      if isQuote opening then
        match run? (fun character => !isQuote character) text with
        | some (path, _ :: _) => some path
        | _ => none
      else none

def readClause? (typeOnly : Bool) (text : List Char) : Option ImportStatement := do
  let (clause, rest) ← ImportClause.read? text
  let rest ← blanks? rest
  let rest ← keyword? "from" rest
  let modulePath ← specifier? rest
  some ⟨typeOnly, clause, modulePath⟩

/-- Read a statement.  `type` is a marker where a clause follows it, and otherwise it is
the name of a default import. -/
def read? (text : List Char) : Option ImportStatement := do
  let rest ← keyword? "import" text
  ((keyword? "type" rest).bind (readClause? true)).or (readClause? false rest)

/-- The import that one entry of a clause in braces stands for.  The entry may carry a
`type` modifier of its own. -/
def entryImport? (modulePath : String) (typeOnly : Bool) (part : List Char) :
    Option Import :=
  let entry := trim part
  let (entry, typeOnly) :=
    match literal? "type " entry with
    | some rest => (trim rest, true)
    | none => (entry, typeOnly)
  (nameAndAlias? entry).map fun (name, localName) =>
    .named modulePath (String.ofList name) (localName.map String.ofList) typeOnly

def imports (statement : ImportStatement) : List Import :=
  let modulePath := String.ofList statement.modulePath
  match statement.clause with
  | .names body =>
      (pieces ',' body).filterMap (entryImport? modulePath statement.typeOnly)
  | .wholeModule localName =>
      [.wholeModule modulePath (String.ofList localName) statement.typeOnly]
  | .defaultExport name =>
      [.defaultExport modulePath (String.ofList name) statement.typeOnly]

end ImportStatement

/-- The imports of a line; none if the line is no import statement. -/
def Import.ofLine (line : List Char) : List Import :=
  match ImportStatement.read? line with
  | some statement => statement.imports
  | none => []

end AmbientStubs
