import AmbientStubs.Convention
import AmbientStubs.Package

/-!
How a use grows a package.  An import adds the symbol it names.  A chain adds a constant
for every segment on the way and a symbol for its last one; a method call on a member
also adds a method of that member.  A static call adds a method to the class it names,
and an interface for a class that has no symbol at the top level.
-/

namespace AmbientStubs.Package

open Text Convention

def rootSymbol (settings : InferenceSettings) (imported : Import) : Symbol :=
  let name := imported.rootName
  let kind :=
    if imported.isWildcard then .namespaceScope
    else importedKind settings imported.modulePath name
  { name := name, kind := kind, signature := some (rootSignature name kind) }

def addImported (settings : InferenceSettings) (package : Package) (imported : Import) :
    Package :=
  (package.addImport imported).insertSymbol (rootSymbol settings imported)

/-- Constants for the segments of a path below a parent, each inside the one before. -/
def constantsBelow (parent : String) : List String → List Symbol
  | [] => []
  | segment :: rest =>
      { name := segment, kind := .constant, parentPath := some parent } ::
        constantsBelow (parent ++ "." ++ segment) rest

def insertSymbols (package : Package) (symbols : List Symbol) : Package :=
  symbols.foldl insertSymbol package

def memberSymbol (parent member : String) (context : AccessContext) : Symbol where
  name := member
  kind := memberKind context
  parentPath := some parent
  returnType := if context = .methodCall then some (functionResult member) else none

def inferredMethod (settings : InferenceSettings) (isStatic : Bool)
    (owner name qualifier : String) : Method :=
  let shape := methodShape settings.collectionEndings owner name
  { name := name
    isStatic := isStatic
    parameters := shape.parameters
    returnType := shape.returnType
    owner := owner
    qualifier := qualifier }

def addChain (settings : InferenceSettings) (package : Package) (root : String)
    (members : List String) (context : AccessContext) : Package :=
  match members.reverse with
  | [] => package
  | member :: way =>
      let parent := dotted (root :: way.reverse)
      let package := package.insertSymbols (constantsBelow root way.reverse)
      let package := package.insertSymbol (memberSymbol parent member context)
      match context, way with
      | .methodCall, owner :: _ =>
          package.insertMethod
            (inferredMethod settings false owner member (dotted (root :: members)))
      | _, _ => package

/-- Insert a static call.  The class and the method are modelled by the method alone, so
only the segments before them become symbols. -/
def addStaticCall (settings : InferenceSettings) (package : Package) (root : String)
    (members : List String) (className method : String) : Package :=
  match members.reverse with
  | _ :: _ :: way =>
      let package := package.insertSymbols (constantsBelow root way.reverse)
      let package := package.insertMethod
        (inferredMethod settings true className method (dotted (root :: members)))
      if package.hasTopLevel className then package
      else package.insertSymbol { name := className, kind := .interfaceType }
  | _ => package

def addAccess (settings : InferenceSettings) (package : Package) (imported : Import)
    (access : Access) : Package :=
  let members := access.segments.drop 1
  match access.context, access.className with
  | .staticCall, some className =>
      package.addStaticCall settings imported.rootName members className access.member
  | context, _ => package.addChain settings imported.rootName members context

end AmbientStubs.Package
