import AmbientStubs.FileTree

/-!
File operations on a tree: finding what a path names, reading, writing and making
directories, with the causes for which each of them fails.  As a tree has no links and grants
everything, no operation follows a link or fails for want of permission.
-/

namespace AmbientStubs

inductive FileError where
  | notFound
  | alreadyExists
  | notDirectory
  | isDirectory
  | nameTooLong
  | nulInName
  | notUnicode
deriving DecidableEq, Repr

namespace FileError

def message : FileError → String
  | notFound => "No such file or directory (os error 2)"
  | alreadyExists => "File exists (os error 17)"
  | notDirectory => "Not a directory (os error 20)"
  | isDirectory => "Is a directory (os error 21)"
  | nameTooLong => "File name too long (os error 36)"
  | nulInName => "file name contained an unexpected NUL byte"
  | notUnicode => "stream did not contain valid UTF-8"

end FileError

/-- A tree and the location that relative paths start from. -/
structure FileStore where
  tree : FileTree
  current : List String := []

namespace FileStore

/-- The longest name of a file, in bytes. -/
def longestName : Nat := 255

/-- The longest text of a path, in bytes. -/
def longestPath : Nat := 4095

/-- Why the text of a path is refused before anything is looked up. -/
def refusal? (path : String) : Option FileError :=
  if path.toList.contains '\x00' then some .nulInName
  else if path.isEmpty then some .notFound
  else if longestPath < path.utf8ByteSize then some .nameTooLong
  else none

/-- The location that parts lead to.  Every part is taken from a directory: an empty part
and `.` stay there, `..` goes up, and any other part must name an entry. -/
def walk (tree : FileTree) (here : List String) : List String → Except FileError (List String)
  | [] => .ok here
  | part :: rest =>
      match tree.lookup? here with
      | some (.directory entries) =>
          if part = "" ∨ part = "." then walk tree here rest
          else if part = ".." then walk tree here.dropLast rest
          else if longestName < part.utf8ByteSize then .error .nameTooLong
          else if (FileTree.entryNamed? part entries).isSome then walk tree (here ++ [part]) rest
          else .error .notFound
      | _ => .error .notDirectory

def start (store : FileStore) (path : String) : List String :=
  if PathText.isAbsolute path then [] else store.current

def resolve (store : FileStore) (path : String) : Except FileError (List String) :=
  match refusal? path with
  | some cause => .error cause
  | none => walk store.tree (store.start path) (PathText.rawParts path)

def get? (store : FileStore) (path : String) : Option FileTree :=
  match store.resolve path with
  | .ok location => store.tree.lookup? location
  | .error _ => none

/-- What a path names, in the order in which a walk goes through it. -/
def listing? (store : FileStore) (path : String) : Option FileTree :=
  (store.get? path).map FileTree.inOrder

def isDirectory (store : FileStore) (path : String) : Bool :=
  match store.get? path with
  | some (.directory _) => true
  | _ => false

def isFile (store : FileStore) (path : String) : Bool :=
  match store.get? path with
  | some (.file _) => true
  | _ => false

def read (store : FileStore) (path : String) : Except FileError String := do
  match store.tree.lookup? (← store.resolve path) with
  | some (.file content) =>
      match String.fromUTF8? content with
      | some text => .ok text
      | none => .error .notUnicode
  | some (.directory _) => .error .isDirectory
  | none => .error .notFound

/-- The directory that the parts above the last one lead to, with its entries. -/
def parent (store : FileStore) (first : List String) (above : List String) :
    Except FileError (List String × List (String × FileTree)) := do
  let location ← walk store.tree first above
  match store.tree.lookup? location with
  | some (.directory entries) => .ok (location, entries)
  | _ => .error .notDirectory

def put (store : FileStore) (location : List String) (tree : FileTree) : FileStore :=
  { store with tree := store.tree.insertAt tree location }

/-- Write a file, which is made if it is not there; its directory has to be there. -/
def write (store : FileStore) (path : String) (content : ByteArray) :
    Except FileError FileStore :=
  match refusal? path, (PathText.parts path).reverse with
  | some cause, _ => .error cause
  | none, [] => .error .isDirectory
  | none, last :: above => do
      let (location, entries) ← store.parent (store.start path) above.reverse
      if last = "." ∨ last = ".." ∨ Text.endsWith path "/" then .error .isDirectory
      else if longestName < last.utf8ByteSize then .error .nameTooLong
      else
        match FileTree.entryNamed? last entries with
        | some (.directory _) => .error .isDirectory
        | _ => .ok (store.put (location ++ [last]) (.file content))

/-- Make one directory.  The parts are those of its path, last part first. -/
def makeDirectory (store : FileStore) (first : List String) (reversed : List String) :
    Except FileError FileStore :=
  match reversed with
  | [] => .error .alreadyExists
  | last :: above => do
      let (location, entries) ← store.parent first above.reverse
      if last = "." ∨ last = ".." then .error .alreadyExists
      else if longestName < last.utf8ByteSize then .error .nameTooLong
      else if (FileTree.entryNamed? last entries).isSome then .error .alreadyExists
      else .ok (store.put (location ++ [last]) .empty)

/-- Whether the parts, last part first, lead to a directory. -/
def leadsToDirectory (store : FileStore) (first : List String) (reversed : List String) : Bool :=
  match (walk store.tree first reversed.reverse).toOption.bind store.tree.lookup? with
  | some (.directory _) => true
  | _ => false

/-- The parts of the path one component up, last part first. -/
def partsAbove (reversed : List String) : List String :=
  ((reversed.dropWhile (· = ".")).drop 1).dropWhile (· = ".")

theorem length_partsAbove_lt {reversed : List String} (nonempty : reversed ≠ []) :
    (partsAbove reversed).length < reversed.length := by
  have outer := (List.dropWhile_sublist (fun part : String => part = ".")
    (l := (reversed.dropWhile (· = ".")).drop 1)).length_le
  have inner := (List.dropWhile_sublist (fun part : String => part = ".")
    (l := reversed)).length_le
  have positive := List.length_pos_iff.2 nonempty
  simp only [List.length_drop] at outer
  unfold partsAbove
  omega

/-- Make a directory and those above it that are missing.  What was made stays even if
the rest fails. -/
def makeDirectoriesFrom (store : FileStore) (first : List String) (reversed : List String) :
    Except FileError Unit × FileStore :=
  match store.makeDirectory first reversed with
  | .ok store => (.ok (), store)
  | .error .notFound =>
      if nonempty : reversed = [] then (.error .notFound, store)
      else
        have := length_partsAbove_lt nonempty
        match store.makeDirectoriesFrom first (partsAbove reversed) with
        | (.error cause, store) => (.error cause, store)
        | (.ok (), store) =>
            match store.makeDirectory first reversed with
            | .ok store => (.ok (), store)
            | .error cause =>
                if store.leadsToDirectory first reversed then (.ok (), store)
                else (.error cause, store)
  | .error cause =>
      if store.leadsToDirectory first reversed then (.ok (), store)
      else (.error cause, store)
termination_by reversed.length

def makeDirectories (store : FileStore) (path : String) : Except FileError Unit × FileStore :=
  if path.isEmpty then (.ok (), store)
  else
    match refusal? path with
    | some cause => (.error cause, store)
    | none => store.makeDirectoriesFrom (store.start path) (PathText.parts path).reverse

end FileStore

end AmbientStubs
