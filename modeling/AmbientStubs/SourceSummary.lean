import AmbientStubs.Access.Line
import AmbientStubs.Catalog
import AmbientStubs.Export
import AmbientStubs.Import.Statement

/-!
Source summaries: what one source file imports, exports and uses.  A file is read line
by line, and a statement that spans several lines is not recognised.
-/

namespace AmbientStubs

open Text

structure SourceSummary where
  path : String
  imports : List Import := []
  exports : List Symbol := []
  accesses : List Access := []
  /-- How often the body of the file mentions each imported identifier. -/
  references : Catalog Nat := {}

namespace SourceSummary

def hasExport (summary : SourceSummary) (name : String) : Bool :=
  summary.exports.any (·.name == name)

def binding? (summary : SourceSummary) (identifier : String) : Option Import :=
  Import.binding? summary.imports identifier

def accessesOf (summary : SourceSummary) (base : String) : List Access :=
  summary.accesses.filter (·.base == base)

/-- The lines of a text, without the blanks around them. -/
def lines (content : List Char) : List (List Char) :=
  (pieces '\n' content).map trim

def isComment (line : List Char) : Bool :=
  line.head? = some '*' || (literal? "//" line).isSome || (literal? "/*" line).isSome

def isIdentifierStart (character : Char) : Bool :=
  isAsciiLetter character || character == '_' || character == '$'

def isIdentifierPart (character : Char) : Bool :=
  isIdentifierStart character || isAsciiDigit character

/-- The ASCII identifiers from here on that do not follow a dot, after skipping the
remaining characters of one already found. -/
def scanIdentifiers (previous : Option Char) (skip : Nat) : List Char → List (List Char)
  | [] => []
  | character :: rest =>
      match skip with
      | skip + 1 => scanIdentifiers (some character) skip rest
      | 0 =>
          if isIdentifierStart character then
            let others := rest.takeWhile isIdentifierPart
            let later := scanIdentifiers (some character) others.length rest
            if previous = some '.' then later else (character :: others) :: later
          else scanIdentifiers (some character) 0 rest

def identifiers (line : List Char) : List String :=
  (scanIdentifiers none 0 line).map String.ofList

def countReference (references : Catalog Nat) (identifier : String) : Catalog Nat :=
  references.alter identifier fun count => count.getD 0 + 1

def countReferences (line : List Char) (summary : SourceSummary) : SourceSummary :=
  let mentioned := (identifiers line).filter fun identifier =>
    (summary.binding? identifier).isSome
  { summary with references := mentioned.foldl countReference summary.references }

def addAccesses (reserved : List String) (line : List Char) (summary : SourceSummary) :
    SourceSummary :=
  { summary with accesses := summary.accesses ++ Access.ofLine reserved summary.imports line }

def addUses (reserved : List String) (line : List Char) (summary : SourceSummary) :
    SourceSummary :=
  (summary.countReferences line).addAccesses reserved line

/-- Take one trimmed line into account.  A line that binds a name has no uses. -/
def addLine (reserved : List String) (summary : SourceSummary) (line : List Char) :
    SourceSummary :=
  if line.isEmpty || isComment line then summary
  else
    let imports := Import.ofLine line
    let summary := { summary with
      imports := summary.imports ++ imports
      exports := summary.exports ++ (Export.symbol? line).toList }
    if imports.isEmpty then summary.addUses reserved line else summary

/-- The summary of a source text.  The reserved segments never lead to a static call. -/
def ofText (reserved : List String) (path content : String) : SourceSummary :=
  (lines content.toList).foldl (addLine reserved) { path := path }

end SourceSummary

end AmbientStubs
