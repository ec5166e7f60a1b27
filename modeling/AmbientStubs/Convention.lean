import AmbientStubs.Access
import AmbientStubs.Method
import AmbientStubs.Settings
import AmbientStubs.Symbol

/-!
Naming conventions: what names and uses tell about kinds, parameters and results.
-/

namespace AmbientStubs.Convention

open Text

/-- The type of everything about which nothing is known. -/
def opaqueType : String := "unknown"

structure MethodShape where
  returnType : String
  parameters : List Parameter
deriving DecidableEq, Repr

def methodShape (collectionEndings : List String) (owner method : String) : MethodShape :=
  if method = "create" ∨ method = "from" then
    if collectionEndings.any (endsWith owner) then ⟨owner, [⟨"size", "number"⟩]⟩
    else ⟨owner, [⟨"data", opaqueType⟩]⟩
  else if method = "random" ∨ method = "generate" then ⟨owner, [⟨"size", "number"⟩]⟩
  else if method = "parse" then ⟨opaqueType, [⟨"input", "string"⟩]⟩
  else if method = "stringify" ∨ method = "toString" then
    ⟨"string", [⟨"encoder", opaqueType⟩]⟩
  else ⟨opaqueType, [⟨"args", opaqueType⟩]⟩

def functionResult (name : String) : String :=
  if name = "stringify" ∨ name = "toString" then "string" else opaqueType

def memberKind : AccessContext → SymbolKind
  | .methodCall | .staticCall => .function
  | .constructorCall => .classType
  | .propertyAccess | .typeReference | .unknown => .constant

/-- A name with an uppercase first character is likely an object with members. -/
def isObjectName (name : String) : Bool :=
  match name.toList with
  | [] => false
  | first :: _ => isUppercase first

def importedKind (settings : InferenceSettings) (modulePath name : String) : SymbolKind :=
  if settings.platformStarts.any (startsWith modulePath) then
    if endsWith name "Manager" || endsWith name "Controller" then .classType
    else if settings.aliasNames.contains name then .aliasType
    else .interfaceType
  else if isObjectName name then .classType
  else .function

def rootSignature (name : String) : SymbolKind → String
  | .classType => "declare class " ++ name ++ " \x7b\x7d"
  | .interfaceType => "interface " ++ name ++ " \x7b\x7d"
  | .function => "declare function " ++ name ++ "(...args: any[]): any;"
  | .aliasType => "type " ++ name ++ " = any;"
  | .namespaceScope => "declare namespace " ++ name ++ " \x7b\x7d"
  | .constant => "declare const " ++ name ++ ": any;"
  | .enumType => "declare enum " ++ name ++ " \x7b\x7d"
  | .structType => "declare var " ++ name ++ ": any;"

end AmbientStubs.Convention
