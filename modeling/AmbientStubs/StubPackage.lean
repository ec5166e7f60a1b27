import AmbientStubs.Declaration.Layout
import AmbientStubs.JsonValue.Printer
import AmbientStubs.Run.Error
import AmbientStubs.Settings

/-!
Stub packages: one directory per package next to the module, with its declarations and
a manifest.
-/

namespace AmbientStubs.StubPackage

open Text

def declarationFileName : String := "index.d.ts"

/-- The directory of a stub: every part of the module path is a directory below the
project root. -/
def directory (projectRoot modulePath : String) : String :=
  ((splitText '/' modulePath).filter (· ≠ "")).foldl PathText.push projectRoot

/-- What a module's manifest says about a stub. -/
def reference (modulePath : String) : String :=
  "file:../" ++ modulePath

def manifest (settings : StubSettings) (package : Package) : JsonValue :=
  .object [
    ("name", .text package.stubName),
    ("version", .text settings.stubVersion),
    ("description", .text ("Local stub declarations for " ++ package.modulePath)),
    ("main", .text declarationFileName),
    ("types", .text declarationFileName)]

/-- Write the stub of a package; the result is its directory. -/
def write (settings : StubSettings) (projectRoot : String) (package : Package) :
    FileAction String := do
  let path := directory projectRoot package.modulePath
  FileAction.makeDirectories path
  FileAction.write (PathText.push path declarationFileName) package.declarationText
  FileAction.write (PathText.push path settings.manifestName)
    ((manifest settings package).pretty ++ "\n")
  return path

def writeAll (settings : StubSettings) (projectRoot : String) (packages : List Package) :
    FileAction (List String) :=
  packages.mapM (write settings projectRoot)

end AmbientStubs.StubPackage
