import AmbientStubs.Catalog
import AmbientStubs.Text.Line

/-!
Settings of a run.  Every setting has a default, so that an empty settings file, or none
at all, describes a usable run.
-/

namespace AmbientStubs

structure ScanSettings where
  /-- Read with all its subdirectories; relative to the module root. -/
  sourceDirectory : String := "src/main"
  extensions : List String := ["ets", "ts"]
deriving DecidableEq, Repr

/-- How member chains are classified. -/
structure AnalysisSettings where
  /-- Segments that never lead to a static call. -/
  reservedSegments : List String := ["enc", "mode", "pad"]
deriving DecidableEq, Repr

/-- How symbols are inferred from names. -/
structure InferenceSettings where
  /-- How module paths of the platform start. -/
  platformStarts : List String := ["@kit."]
  /-- Platform names that are taken for type aliases. -/
  aliasNames : List String := ["Permissions", "abilityAccessCtrl"]
  /-- Owners with these endings take a size in `create` and `from`. -/
  collectionEndings : List String := ["Array", "List"]
deriving DecidableEq, Repr

structure StubSettings where
  /-- How module paths of packages start that ship with the platform and get no stub. -/
  sdkStarts : List String := ["@kit.", "@ohos.", "@hms."]
  manifestName : String := "oh-package.json5"
  stubVersion : String := "1.0.0"
deriving DecidableEq, Repr

namespace StubSettings

def isSdkModule (settings : StubSettings) (modulePath : String) : Bool :=
  settings.sdkStarts.any (Text.startsWith modulePath)

end StubSettings

structure Settings where
  scan : ScanSettings := {}
  analysis : AnalysisSettings := {}
  inference : InferenceSettings := {}
  stubs : StubSettings := {}
  /-- Declarations to append, by module path and then by name. -/
  extraDeclarations : Catalog (Catalog String) := {}

end AmbientStubs
