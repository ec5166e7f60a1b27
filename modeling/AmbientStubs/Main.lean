import AmbientStubs.Console
import Std.Time.Format
import Std.Time.Zoned

/-!
The program.  It takes a picture of the files that a command can see, runs the command on
the picture, and writes what has changed back to the disk.
-/

namespace AmbientStubs.Program

/-- The tree at a path of the disk.  Links and special files are left out. -/
partial def readTree (path : String) : IO FileTree := do
  let entries ← (← IO.FS.realPath path).readDir
  let mut catalog : Catalog FileTree := {}
  for entry in entries do
    match (← entry.path.symlinkMetadata).type with
    | .dir => catalog := catalog.insert entry.fileName (← readTree entry.path.toString)
    | .file => catalog := catalog.insert entry.fileName (.file (← IO.FS.readBinFile entry.path))
    | _ => pure ()
  return .directory catalog.entries

/-- The location of a path of the disk, if there is something there. -/
def location? (path : String) : IO (Option (List String)) := do
  try
    return some (PathText.parts (← IO.FS.realPath path).toString)
  catch _ => return none

/-- Add the project directory of a module, which is the directory above it. -/
def addProject (store : FileStore) (module : String) : IO FileStore := do
  match ← location? module with
  | none => return store
  | some location =>
      let project := location.dropLast
      return store.put project (← readTree (PathText.ofLocation project))

def addFile (store : FileStore) (path : String) : IO FileStore := do
  match ← location? path with
  | none => return store
  | some location => return store.put location (.file (← IO.FS.readBinFile path))

/-- The files that a command can see. -/
def snapshot (command : Command) : IO FileStore := do
  let (module, config) := match command with
    | .generate module config .. => (module, config)
    | .scan module config _ => (module, config)
  let current := PathText.parts (← IO.currentDir).toString
  let start : FileStore := { tree := .empty, current := current }
  let store ← addProject (start.put current .empty) module
  match config with
  | none => return store
  | some path => addFile store path

def writeChanges (before after : FileTree) : IO Unit := do
  for (location, content) in before.changes after do
    IO.FS.createDirAll (PathText.ofLocation location.dropLast)
    IO.FS.writeBinFile (PathText.ofLocation location) content

def now : IO String := do
  let time := Std.Time.DateTime.ofTimestamp (← Std.Time.Timestamp.now) .UTC
  return time.format "uuuu-MM-dd'T'HH:mm:ss.nnnnnnnnn'Z'"

/-- Carry out a command; the result is the exit code. -/
def execute (command : Command) : IO UInt32 := do
  let before ← snapshot command
  let (outcome, after) := (Console.run (← now) command).run.run before
  writeChanges before.tree after.tree
  match outcome with
  | .ok printed =>
      IO.print printed
      return 0
  | .error failure =>
      IO.eprintln ("Error: " ++ failure.context ++ "\n\nCaused by:\n    " ++ failure.cause.message)
      return 1

end AmbientStubs.Program

/-- Run the command that the arguments describe.  Arguments that describe none give exit
code 2, unless they ask for help or the version. -/
def main (arguments : List String) : IO UInt32 := do
  match AmbientStubs.CommandLine.read ("arkstub" :: arguments) with
  | .ok commandLine => AmbientStubs.Program.execute commandLine.command
  | .error refusal =>
      let shown := AmbientStubs.Console.textOfLines (AmbientStubs.Console.refusalLines refusal)
      if refusal.isAnswer then
        IO.print shown
        return 0
      else
        IO.eprint shown
        return 2
