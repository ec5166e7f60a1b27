import AmbientStubs.Catalog
import AmbientStubs.PathText

/-!
File trees: regular files and directories.  There are no links, everything can be read and
written, and every name is Unicode text.  A directory has one entry for a name, and it is kept by
ascending name.
-/

namespace AmbientStubs

inductive FileTree where
  | file (content : ByteArray)
  | directory (entries : List (String × FileTree))

namespace FileTree

def empty : FileTree := directory []

def entryNamed? (name : String) (entries : List (String × FileTree)) : Option FileTree :=
  (entries.find? fun entry => entry.1 == name).map (·.2)

def child? (name : String) : FileTree → Option FileTree
  | file _ => none
  | directory entries => entryNamed? name entries

/-- What stands at a location, given by the names on the way from the root. -/
def lookup? (tree : FileTree) : List String → Option FileTree
  | [] => some tree
  | name :: rest => (tree.child? name).bind fun subtree => subtree.lookup? rest

/-- Put a tree at a location, replacing what is there.  Missing directories on the way
are made; a file on the way stays as it is. -/
def insertAt (tree new : FileTree) : List String → FileTree
  | [] => new
  | name :: rest =>
      match tree with
      | file content => file content
      | directory entries =>
          directory (Catalog.alterEntries name
            (fun old => (old.getD empty).insertAt new rest) entries)

/-- Put an entry in front of those that do not have a smaller name. -/
def insertByName (entry : String × FileTree) :
    List (String × FileTree) → List (String × FileTree)
  | [] => [entry]
  | first :: rest =>
      if first.1 < entry.1 then first :: insertByName entry rest else entry :: first :: rest

mutual

/-- The tree with the entries of all its directories sorted by name. -/
def inOrder : FileTree → FileTree
  | file content => file content
  | directory entries => directory (entriesInOrder entries)

def entriesInOrder : List (String × FileTree) → List (String × FileTree)
  | [] => []
  | (name, tree) :: rest => insertByName (name, inOrder tree) (entriesInOrder rest)

end

mutual

/-- The regular files of a tree, depth first, each with its path below the given one. -/
def filePaths (path : String) : FileTree → List String
  | file _ => [path]
  | directory entries => entryFilePaths path entries

def entryFilePaths (path : String) : List (String × FileTree) → List String
  | [] => []
  | (name, tree) :: rest =>
      filePaths (PathText.push path name) tree ++ entryFilePaths path rest

end

mutual

def directoryPaths (path : String) : FileTree → List String
  | file _ => []
  | directory entries => path :: entryDirectoryPaths path entries

def entryDirectoryPaths (path : String) : List (String × FileTree) → List String
  | [] => []
  | (name, tree) :: rest =>
      directoryPaths (PathText.push path name) tree ++ entryDirectoryPaths path rest

end

def directFilePaths (path : String) : FileTree → List String
  | file _ => []
  | directory entries => entries.filterMap fun (name, tree) =>
      match tree with
      | file _ => some (PathText.push path name)
      | directory _ => none

mutual

def contents (location : List String) : FileTree → List (List String × ByteArray)
  | file content => [(location, content)]
  | directory entries => entryContents location entries

def entryContents (location : List String) :
    List (String × FileTree) → List (List String × ByteArray)
  | [] => []
  | (name, tree) :: rest =>
      contents (location ++ [name]) tree ++ entryContents location rest

end

/-- The regular files that are new or differ from an earlier tree. -/
def changes (before after : FileTree) : List (List String × ByteArray) :=
  (contents [] after).filter fun (location, content) =>
    match before.lookup? location with
    | some (file old) => old != content
    | _ => true

@[simp]
theorem lookup?_nil (tree : FileTree) : tree.lookup? [] = some tree := by
  cases tree <;> rfl

theorem lookup?_append (tree : FileTree) (first second : List String) :
    tree.lookup? (first ++ second) =
      (tree.lookup? first).bind fun subtree => subtree.lookup? second := by
  induction first generalizing tree with
  | nil => simp
  | cons name rest inductionHypothesis =>
      simp only [List.cons_append, lookup?]
      cases tree.child? name with
      | none => rfl
      | some subtree => simpa using inductionHypothesis subtree

end FileTree

end AmbientStubs
