import AmbientStubs.CommandLine
import AmbientStubs.Report
import AmbientStubs.Settings.Reader

/-!
What the commands print.
-/

namespace AmbientStubs.Console

def information : String := "ℹ️  "
def caution : String := "⚠️  "
def success : String := "✅ "
def parcel : String := "📦 "

/-- How many unreadable files are listed. -/
def listedWarnings : Nat := 10

def packageLine (package : Package) : String :=
  "    - " ++ package.modulePath ++ " (" ++ toString package.imports.length ++ " imports, " ++
    toString package.symbols.length ++ " types, " ++ toString package.methods.length ++
    " methods)"

def warningLines (warnings : List Warning) : List String :=
  if warnings.isEmpty then []
  else
    ["", caution ++ "Unreadable files (" ++ toString warnings.length ++ "):"] ++
      (warnings.take listedWarnings).map (fun warning =>
        "  - " ++ warning.path ++ ": " ++ warning.message) ++
      if listedWarnings < warnings.length then
        ["  ... and " ++ toString (warnings.length - listedWarnings) ++ " more"]
      else []

def summaryLines (result : RunResult) : List String :=
  [information ++ "Module: " ++ result.modulePath,
   "  Files scanned:   " ++ toString result.filesScanned,
   "  Dependencies:    " ++ toString result.packages.size] ++
    result.packages.values.map packageLine ++
    (if result.skippedSdk.isEmpty then []
     else ["  SDK modules:     " ++ ", ".intercalate result.skippedSdk ++ " (skipped)"]) ++
    warningLines result.warnings

def patchLines : Manifest.PatchOutcome → List String
  | .patched _ added kept =>
      ("  Manifest entries added: " ++ toString added.length) ::
        if kept.isEmpty then []
        else ["  Already present:        " ++ toString kept.length ++ " (" ++
          ", ".intercalate kept ++ ")"]
  | .missing path =>
      [caution ++ "No manifest at " ++ path ++ ", dependencies not registered"]

def generationLines (dryRun : Bool) (result : RunResult) : List String :=
  if result.packages.isEmpty then ["", information ++ "Nothing to generate."]
  else if dryRun then ["", information ++ "Dry run, nothing written."]
  else
    ["", success ++ "Generated " ++ toString result.written.length ++ " stub packages in " ++
      result.projectRoot] ++
      (result.patch.map patchLines).getD []

def modelLines (package : Package) : List String :=
  ["", parcel ++ package.modulePath] ++
    package.topLevel.map (fun symbol => "  " ++ symbol.kind.keyword ++ " " ++ symbol.name) ++
    (package.symbols.filter fun symbol => !symbol.isTopLevel).map (fun symbol =>
      "  " ++ symbol.kind.keyword ++ " " ++ symbol.qualifiedPath) ++
    package.methods.map (fun method => "  " ++ method.owner ++ "." ++ method.signature)

def textOfLines (lines : List String) : String :=
  String.join (lines.map (· ++ "\n"))

def usageLines : List String :=
  ["Stub declarations for unavailable ArkTS dependencies",
   "",
   "Usage: arkstub [OPTIONS] <COMMAND>",
   "",
   "Commands:",
   "  generate <MODULE>  Analyze a module and write stub packages next to it",
   "  scan <MODULE>      Analyze a module and print the inferred dependency model",
   "  help               Print this help",
   "",
   "Options:",
   "  -v, --verbose        Accepted everywhere; has no effect on the result",
   "  -c, --config <FILE>  Configuration file (default: <MODULE>/arkstub.toml if present)",
   "      --json           Print the JSON report instead of a summary",
   "      --dry-run        Analyze only, write nothing (generate)",
   "      --include-sdk    Also generate stubs for SDK modules (generate)",
   "  -h, --help           Print this help",
   "  -V, --version        Print the version"]

def refusalLines : CommandLine.Refusal → List String
  | .help | .helpOnNothing => usageLines
  | .version => ["arkstub " ++ Report.programVersion]
  | other => ["error: " ++ other.message, "", "For more information, try '--help'."]

structure Failure where
  context : String
  cause : RunError
deriving DecidableEq, Repr

def inContext {Result : Type} (context : String) (action : FileAction Result) :
    ExceptT Failure (StateM FileStore) Result :=
  ExceptT.mk do
    match ← ExceptT.run action with
    | .ok result => return .ok result
    | .error cause => return .error ⟨context, cause⟩

def process (module : String) (config : Option String) (options : RunOptions) :
    ExceptT Failure (StateM FileStore) RunResult := do
  let settings ← inContext "Failed to load configuration" (Settings.resolve config module)
  inContext ("Failed to process module " ++ module) (Run.process settings options module)

/-- Run a command at a given time; the result is the text to print. -/
def run (time : String) : Command → ExceptT Failure (StateM FileStore) String
  | .generate module config dryRun json includeSdk => do
      let result ← process module config { dryRun, includeSdk }
      if json then return (Report.ofResult time result).pretty ++ "\n"
      else return textOfLines (summaryLines result ++ generationLines dryRun result)
  | .scan module config json => do
      let result ← process module config { dryRun := true }
      if json then return (Report.ofResult time result).pretty ++ "\n"
      else return textOfLines (summaryLines result ++ result.packages.values.flatMap modelLines)

end AmbientStubs.Console
