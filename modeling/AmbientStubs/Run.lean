import AmbientStubs.Discovery
import AmbientStubs.Manifest
import AmbientStubs.Package.Collection
import AmbientStubs.SourceSummary

/-!
A run on one module: find and read its sources, collect the packages they use, write a
stub for each and register the stubs in the manifest.
-/

namespace AmbientStubs

structure RunOptions where
  /-- Analyse only; write nothing. -/
  dryRun : Bool := false
  /-- Write stubs for packages of the platform too. -/
  includeSdk : Bool := false
deriving DecidableEq, Repr

/-- A source file that could not be read; the run goes on without it. -/
structure Warning where
  path : String
  message : String
deriving DecidableEq, Repr

structure RunResult where
  /-- The module root, as an absolute path without `.` and `..`. -/
  modulePath : String
  /-- The directory above the module root, where stubs are written. -/
  projectRoot : String
  filesScanned : Nat
  warnings : List Warning
  /-- The packages that get a stub. -/
  packages : Catalog Package
  skippedSdk : List String
  /-- The directories written. -/
  written : List String := []
  patch : Option Manifest.PatchOutcome := none

namespace Run

def readSource (store : FileStore) (settings : AnalysisSettings) (path : String) :
    Except Warning SourceSummary :=
  match store.read path with
  | .ok content => .ok (SourceSummary.ofText settings.reservedSegments path content)
  | .error cause => .error ⟨path, (RunError.unreadable path cause).message⟩

/-- The summaries of the files that can be read and warnings for the others, both in the
order of the paths. -/
def readSources (store : FileStore) (settings : AnalysisSettings) (paths : List String) :
    List SourceSummary × List Warning :=
  let outcomes := paths.map (readSource store settings)
  (outcomes.filterMap (·.toOption),
   outcomes.filterMap fun outcome => match outcome with
    | .error warning => some warning
    | .ok _ => none)

/-- Whether a package is left out because it ships with the platform. -/
def isSkipped (settings : StubSettings) (options : RunOptions) (modulePath : String) : Bool :=
  !options.includeSdk && settings.isSdkModule modulePath

def withExtraDeclarations (extra : Catalog (Catalog String)) (package : Package) : Package :=
  match extra.get? package.modulePath with
  | none => package
  | some declarations =>
      declarations.entries.foldl
        (fun package (name, declaration) => package.addExtraDeclaration name declaration) package

/-- The part of a run that only reads. -/
def analyse (settings : Settings) (options : RunOptions) (moduleRoot : String)
    (store : FileStore) : Except RunError RunResult := do
  let paths ← Discovery.sourceFiles store settings.scan moduleRoot
  let location ← match store.resolve moduleRoot with
    | .ok location => .ok location
    | .error cause => .error (.unreadable moduleRoot cause)
  let (summaries, warnings) := readSources store settings.analysis paths
  let all := Package.collect settings.inference summaries
  let skipped := isSkipped settings.stubs options
  return {
    modulePath := PathText.ofLocation location
    projectRoot := PathText.ofLocation location.dropLast
    filesScanned := paths.length
    warnings := warnings
    packages := (all.filterKeys fun module => !skipped module).mapWithKey
      fun _ package => withExtraDeclarations settings.extraDeclarations package
    skippedSdk := all.keys.filter skipped }

def generate (settings : StubSettings) (result : RunResult) : FileAction RunResult := do
  let written ← StubPackage.writeAll settings result.projectRoot result.packages.values
  let patch ← Manifest.patch settings result.modulePath result.packages.keys
  return { result with written := written, patch := some patch }

def process (settings : Settings) (options : RunOptions) (moduleRoot : String) :
    FileAction RunResult := do
  match analyse settings options moduleRoot (← get) with
  | .error cause => throw cause
  | .ok result =>
      if options.dryRun || result.packages.isEmpty then return result
      else generate settings.stubs result

end Run

end AmbientStubs
