import AmbientStubs.JsonValue.Printer
import AmbientStubs.Run

/-!
The report of a run, as JSON.
-/

namespace AmbientStubs.Report

open JsonValue

def programVersion : String := "0.1.0"

def importKindName : ImportKind → String
  | .named => "named"
  | .wholeModule => "namespace"
  | .defaultExport => "default"

/-- Kinds are named after their keyword, aliases apart. -/
def symbolKindName : SymbolKind → String
  | .aliasType => "typeAlias"
  | kind => kind.keyword

def ofImport (imported : Import) : JsonValue :=
  object [
    ("modulePath", text imported.modulePath),
    ("importedName", text imported.importedName),
    ("localAlias", textOrNull imported.localAlias),
    ("isTypeImport", boolean imported.typeOnly),
    ("kind", text (importKindName imported.kind))]

def ofSymbol (symbol : Symbol) : JsonValue :=
  object [
    ("name", text symbol.name),
    ("kind", text (symbolKindName symbol.kind)),
    ("signature", textOrNull symbol.signature),
    ("typeParameters", textOrNull symbol.typeParameters),
    ("parentPath", textOrNull symbol.parentPath),
    ("returnType", textOrNull symbol.returnType)]

def ofMethod (method : Method) : JsonValue :=
  object [
    ("owner", text method.owner),
    ("name", text method.name),
    ("is_static", boolean method.isStatic),
    ("parameters", list (method.parameters.map fun parameter =>
      object [("name", text parameter.name), ("type", text parameter.type)])),
    ("return_type", text method.returnType),
    ("full_qualifier", text method.qualifier),
    ("signature", text method.signature)]

def ofPackage (package : Package) : JsonValue :=
  object [
    ("module_path", text package.modulePath),
    ("imports", list (package.imports.map ofImport)),
    ("types", list (package.symbols.map ofSymbol)),
    ("methods", list (package.methods.map ofMethod)),
    ("extra_declarations", object (package.extraDeclarations.entries.map fun entry =>
      (entry.1, text entry.2)))]

def ofWarning (warning : Warning) : JsonValue :=
  object [("path", text warning.path), ("message", text warning.message)]

def ofPatch : Manifest.PatchOutcome → JsonValue
  | .missing path => object [("status", text "missing"), ("path", text path)]
  | .patched path added kept =>
      object [
        ("status", text "patched"),
        ("path", text path),
        ("added", texts added),
        ("kept", texts kept)]

/-- The report of a run at a given time.  Without a patched manifest it has no entry about
the manifest. -/
def ofResult (time : String) (result : RunResult) : JsonValue :=
  object ([
    ("version", text programVersion),
    ("generated_at", text time),
    ("module", text result.modulePath),
    ("project_root", text result.projectRoot),
    ("files_scanned", count result.filesScanned),
    ("warnings", list (result.warnings.map ofWarning)),
    ("skipped_sdk_modules", texts result.skippedSdk),
    ("dependencies", list (result.packages.values.map ofPackage)),
    ("written", texts result.written)] ++
    (result.patch.map fun outcome => ("manifest", ofPatch outcome)).toList)

end AmbientStubs.Report
