import AmbientStubs.Run.Error
import AmbientStubs.Settings

/-!
Finding the source files of a module: everything below its source directory, then the
files of the module root itself, each once.
-/

namespace AmbientStubs.Discovery

def hasSourceExtension (settings : ScanSettings) (path : String) : Bool :=
  match (PathText.parts path).getLast?.bind PathText.extension? with
  | some extension => settings.extensions.contains extension
  | none => false

/-- Drop every path whose components an earlier one has. -/
def distinctPaths (paths : List String) : List String :=
  let labelled := paths.map fun path => (PathText.components path, path)
  let distinct := labelled.foldl
    (fun kept entry => if kept.any (·.1 == entry.1) then kept else kept ++ [entry]) []
  distinct.map (·.2)

def sourceDirectory (settings : ScanSettings) (moduleRoot : String) : String :=
  PathText.push moduleRoot settings.sourceDirectory

/-- The regular files below the source directory, if it is a directory. -/
def filesOfSourceDirectory (store : FileStore) (settings : ScanSettings) (moduleRoot : String) :
    List String :=
  let path := sourceDirectory settings moduleRoot
  match store.listing? path with
  | some (.directory entries) => FileTree.entryFilePaths path entries
  | _ => []

/-- The first directory in or below the source directory whose path is too long to list
it. -/
def unlistable? (store : FileStore) (settings : ScanSettings) (moduleRoot : String) :
    Option String :=
  let path := sourceDirectory settings moduleRoot
  match store.listing? path with
  | some tree =>
      (tree.directoryPaths path).find? fun path => FileStore.longestPath < path.utf8ByteSize
  | none => none

def filesOfModuleRoot (store : FileStore) (moduleRoot : String) : List String :=
  match store.listing? moduleRoot with
  | some tree => tree.directFilePaths moduleRoot
  | none => []

def sourceFiles (store : FileStore) (settings : ScanSettings) (moduleRoot : String) :
    Except RunError (List String) :=
  if store.isDirectory moduleRoot then
    match unlistable? store settings moduleRoot with
    | some path =>
        .error (.unlistable (sourceDirectory settings moduleRoot) path .nameTooLong)
    | none =>
        .ok (distinctPaths
          ((filesOfSourceDirectory store settings moduleRoot ++
            filesOfModuleRoot store moduleRoot).filter (hasSourceExtension settings)))
  else .error (.moduleNotFound moduleRoot)

end AmbientStubs.Discovery
