import AmbientStubs.FileStore

/-!
Why a run fails, and the actions on files that may fail.
-/

namespace AmbientStubs

inductive RunError where
  | moduleNotFound (path : String)
  | unreadable (path : String) (cause : FileError)
  | unwritable (path : String) (cause : FileError)
  /-- A directory below the first one cannot be listed. -/
  | unlistable (root path : String) (cause : FileError)
  | invalidSettings (path : String)
  | manifestSyntax (path : String)
  | manifestNotObject (path : String)
deriving DecidableEq, Repr

namespace RunError

def message : RunError → String
  | moduleNotFound path => "module root not found: " ++ path
  | unreadable path cause => "failed to read " ++ path ++ ": " ++ cause.message
  | unwritable path cause => "failed to write " ++ path ++ ": " ++ cause.message
  | unlistable root path cause =>
      "failed to walk " ++ root ++ ": IO error for operation on " ++ path ++ ": " ++ cause.message
  | invalidSettings path => "invalid config " ++ path
  | manifestSyntax path => "failed to parse manifest " ++ path
  | manifestNotObject path =>
      "invalid manifest " ++ path ++ ": manifest root is not an object"

end RunError

/-- An action on files.  What it has changed stays changed even if it fails. -/
abbrev FileAction := ExceptT RunError (StateM FileStore)

namespace FileAction

def perform {Result : Type} (action : FileAction Result) (store : FileStore) :
    Except RunError Result × FileStore :=
  (ExceptT.run action).run store

def read (path : String) : FileAction String := do
  match (← get).read path with
  | .ok content => pure content
  | .error cause => throw (.unreadable path cause)

def write (path content : String) : FileAction Unit := do
  match (← get).write path content.toUTF8 with
  | .ok store => set store
  | .error cause => throw (.unwritable path cause)

def makeDirectories (path : String) : FileAction Unit := do
  let (outcome, store) := (← get).makeDirectories path
  set store
  match outcome with
  | .ok () => pure ()
  | .error cause => throw (.unwritable path cause)

end FileAction

end AmbientStubs
