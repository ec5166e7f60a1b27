import AmbientStubs.Package.Usage
import AmbientStubs.SourceSummary

/-!
Collecting packages.  The files of a module are taken one after the other; the imports
of a file come before its uses, and a use belongs to the package of the import that
binds its base in the same file.
-/

namespace AmbientStubs.Package

abbrev Collection := Catalog Package

namespace Collection

def addImport (settings : InferenceSettings) (packages : Collection) (imported : Import) :
    Collection :=
  if imported.isExternal then
    packages.alter imported.modulePath fun package =>
      (package.getD { modulePath := imported.modulePath }).addImported settings imported
  else packages

/-- Add an access of a file; it is dropped if no import of the file binds its base to a
package. -/
def addAccess (settings : InferenceSettings) (imports : List Import)
    (packages : Collection) (access : Access) : Collection :=
  match Import.binding? imports access.base with
  | none => packages
  | some imported =>
      match packages.get? imported.modulePath with
      | none => packages
      | some package =>
          packages.insert imported.modulePath (package.addAccess settings imported access)

def addSummary (settings : InferenceSettings) (packages : Collection)
    (summary : SourceSummary) : Collection :=
  summary.accesses.foldl (addAccess settings summary.imports)
    (summary.imports.foldl (addImport settings) packages)

end Collection

def collect (settings : InferenceSettings) (summaries : List SourceSummary) : Collection :=
  summaries.foldl (Collection.addSummary settings) {}

end AmbientStubs.Package
