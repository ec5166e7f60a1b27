import AmbientStubs.Text.Line

/-!
File paths as text.  Paths are built by appending text and are never tidied: `.` and `..`
stay as they are.  Two paths are the same path when their components agree.
-/

namespace AmbientStubs.PathText

open Text

def isAbsolute (path : String) : Bool :=
  startsWith path "/"

/-- Append a path.  An absolute one replaces what was there; otherwise a slash is put in
between unless the path so far is empty or ends in one. -/
def push (path part : String) : String :=
  if isAbsolute part then part
  else if path.isEmpty || endsWith path "/" then path ++ part
  else path ++ "/" ++ part

/-- The text between the slashes, empty parts included. -/
def rawParts (path : String) : List String :=
  splitText '/' path

def parts (path : String) : List String :=
  (rawParts path).filter (· ≠ "")

/-- What two texts of the same path share.  Doubled and trailing slashes do not count, and
neither does `.` except at the start of a relative path. -/
def components (path : String) : Bool × List String :=
  if isAbsolute path then (true, (parts path).filter (· ≠ "."))
  else
    match parts path with
    | "." :: rest => (false, "." :: rest.filter (· ≠ "."))
    | other => (false, other.filter (· ≠ "."))

def ofLocation (names : List String) : String :=
  "/" ++ "/".intercalate names

/-- The extension of a file name: what follows its last dot, unless nothing precedes it. -/
def extension? (name : String) : Option String :=
  match (pieces '.' name.toList).reverse with
  | ending :: before :: more =>
      if before.isEmpty && more.isEmpty then none else some (String.ofList ending)
  | _ => none

end AmbientStubs.PathText
