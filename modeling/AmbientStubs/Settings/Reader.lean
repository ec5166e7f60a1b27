import AmbientStubs.Run.Error
import AmbientStubs.Settings
import AmbientStubs.Toml.Reader

/-!
Settings from a file.  Unknown keys are ignored, values of the wrong kind are errors, and
what is not given has its default.
-/

namespace AmbientStubs.Settings

abbrev Fields := Nat → String → Option Toml

/-- The fields of a section.  A section has entries, or it is a list that gives its fields
by position. -/
def fields? : Toml → Option Fields
  | .list elements => some fun position _ => elements[position]?
  | value => value.entries?.map fun entries _ key => Toml.lookup? key entries

/-- The fields of a section of the document; a missing section has none. -/
def section? (document : Toml.Entries) (key : String) : Option Fields :=
  match Toml.lookup? key document with
  | some value => fields? value
  | none => some fun _ _ => none

def text? : Toml → Option String
  | .text value => some value
  | _ => none

def textList? : Toml → Option (List String)
  | .list elements => elements.mapM text?
  | _ => none

def field? {Value : Type} (fields : Fields) (position : Nat) (key : String)
    (decode : Toml → Option Value) (fallback : Value) : Option Value :=
  match fields position key with
  | some value => decode value
  | none => some fallback

def catalog? {Value : Type} (decode : Toml → Option Value) (value : Toml) :
    Option (Catalog Value) := do
  let decoded ← (← value.entries?).mapM fun entry => do some (entry.1, ← decode entry.2)
  some (Catalog.ofList decoded)

def scan? (fields : Fields) : Option ScanSettings := do
  let fallback : ScanSettings := {}
  some {
    sourceDirectory := ← field? fields 0 "source_dir" text? fallback.sourceDirectory
    extensions := ← field? fields 1 "extensions" textList? fallback.extensions }

def analysis? (fields : Fields) : Option AnalysisSettings := do
  let fallback : AnalysisSettings := {}
  some {
    reservedSegments :=
      ← field? fields 0 "reserved_segments" textList? fallback.reservedSegments }

def inference? (fields : Fields) : Option InferenceSettings := do
  let fallback : InferenceSettings := {}
  some {
    platformStarts := ← field? fields 0 "platform_prefixes" textList? fallback.platformStarts
    aliasNames := ← field? fields 1 "alias_like_names" textList? fallback.aliasNames
    collectionEndings :=
      ← field? fields 2 "collection_suffixes" textList? fallback.collectionEndings }

def stubs? (fields : Fields) : Option StubSettings := do
  let fallback : StubSettings := {}
  some {
    sdkStarts := ← field? fields 0 "sdk_prefixes" textList? fallback.sdkStarts
    manifestName := ← field? fields 1 "manifest_name" text? fallback.manifestName
    stubVersion := ← field? fields 2 "stub_version" text? fallback.stubVersion }

def ofDocument? (document : Toml.Entries) : Option Settings := do
  let extra ← match Toml.lookup? "extra_declarations" document with
    | some value => catalog? (catalog? text?) value
    | none => some {}
  some {
    scan := ← scan? (← section? document "scan")
    analysis := ← analysis? (← section? document "analyze")
    inference := ← inference? (← section? document "infer")
    stubs := ← stubs? (← section? document "generate")
    extraDeclarations := extra }

def ofText? (content : String) : Option Settings := do
  ofDocument? (← Toml.ofText? content)

def fileName : String := "arkstub.toml"

def load (path : String) : FileAction Settings := do
  match ofText? (← FileAction.read path) with
  | some settings => return settings
  | none => throw (.invalidSettings path)

/-- The settings of a run: from the given file, else from the settings file in the module
root if there is one, else the defaults. -/
def resolve (explicit : Option String) (moduleRoot : String) : FileAction Settings := do
  match explicit with
  | some path => load path
  | none =>
      let path := PathText.push moduleRoot fileName
      if (← get).isFile path then load path else return {}

end AmbientStubs.Settings
