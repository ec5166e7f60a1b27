import AmbientStubs.JsonValue.Reader
import AmbientStubs.StubPackage

/-!
Registering stubs in the manifest of a module.  A dependency that the manifest names
already is never touched, and a manifest to which nothing is added keeps its text.
-/

namespace AmbientStubs.Manifest

inductive PatchOutcome where
  /-- There is no manifest at the given path. -/
  | missing (path : String)
  /-- The modules that got a reference and those that had an entry before. -/
  | patched (path : String) (added kept : List String)
deriving DecidableEq, Repr

def dependenciesKey : String := "dependencies"

/-- The dependencies of a manifest; anything but an object counts as no dependencies. -/
def dependencies (members : List (String × JsonValue)) : List (String × JsonValue) :=
  ((JsonValue.member? dependenciesKey members).bind JsonValue.members?).getD []

/-- The modules that are not among the dependencies, and those that are. -/
def partition (members : List (String × JsonValue)) (modules : List String) :
    List String × List String :=
  modules.partition fun module => (JsonValue.member? module (dependencies members)).isNone

/-- The manifest with references to the given modules after its dependencies. -/
def addReferences (members : List (String × JsonValue)) (modules : List String) :
    List (String × JsonValue) :=
  let references := modules.map fun module =>
    (module, JsonValue.text (StubPackage.reference module))
  JsonValue.setMember dependenciesKey (.object (dependencies members ++ references)) members

/-- Add the modules, listed once each, to the manifest in the module root. -/
def patch (settings : StubSettings) (moduleRoot : String) (modules : List String) :
    FileAction PatchOutcome := do
  let path := PathText.push moduleRoot settings.manifestName
  if !(← get).isFile path then return .missing path
  match JsonValue.ofText? (← FileAction.read path) with
  | none => throw (.manifestSyntax path)
  | some (.object members) =>
      let (added, kept) := partition members modules
      if !added.isEmpty then
        FileAction.write path ((JsonValue.object (addReferences members added)).pretty ++ "\n")
      return .patched path added kept
  | some _ => throw (.manifestNotObject path)

end AmbientStubs.Manifest
