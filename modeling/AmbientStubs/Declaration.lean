import AmbientStubs.Method

/-!
Ambient declarations and their text.  Declarations form a tree whose inner nodes are
namespace blocks; a file of them has a header, the declarations of the module level, an
optional default export and declarations given verbatim.
-/

namespace AmbientStubs

inductive Declaration where
  | classBody (name : String) (methods : List Method)
  | interfaceBody (name : String) (methods : List Method)
  | enumeration (name : String)
  | typeAlias (name target : String)
  | function (name returnType : String)
  | constant (name type : String)
  | namespaceBlock (name : String) (members : List Declaration)

namespace Declaration

def indentation (depth : Nat) : String :=
  String.ofList (List.replicate (2 * depth) ' ')

/-- Values and namespaces of the module level are declared as ambient. -/
def ambient (depth : Nat) : String :=
  if depth = 0 then "declare " else ""

def bodyLines (depth : Nat) (head : String) (methods : List Method) : List String :=
  if methods.isEmpty then [indentation depth ++ head ++ " \x7b\x7d"]
  else
    [indentation depth ++ head ++ " \x7b"] ++
      methods.map (fun method => indentation (depth + 1) ++ method.signature ++ ";") ++
      [indentation depth ++ "\x7d"]

mutual

def lines (depth : Nat) : Declaration → List String
  | classBody name methods =>
      bodyLines depth ("export " ++ ambient depth ++ "class " ++ name) methods
  | interfaceBody name methods => bodyLines depth ("export interface " ++ name) methods
  | enumeration name =>
      [indentation depth ++ "export " ++ ambient depth ++ "enum " ++ name ++ " \x7b\x7d"]
  | typeAlias name target =>
      [indentation depth ++ "export type " ++ name ++ " = " ++ target ++ ";"]
  | function name returnType =>
      [indentation depth ++ "export " ++ ambient depth ++ "function " ++ name ++
        "(...args: unknown[]): " ++ returnType ++ ";"]
  | constant name type =>
      [indentation depth ++ "export " ++ ambient depth ++ "const " ++ name ++ ": " ++ type ++ ";"]
  | namespaceBlock name members =>
      (indentation depth ++ "export " ++ ambient depth ++ "namespace " ++ name ++ " \x7b") ::
        scopeLines (depth + 1) members ++ [indentation depth ++ "\x7d"]

def scopeLines (depth : Nat) : List Declaration → List String
  | [] => []
  | declaration :: rest => lines depth declaration ++ scopeLines depth rest

end

end Declaration

structure DeclarationFile where
  modulePath : String
  declarations : List Declaration
  defaultExport : Option String
  /-- Declarations appended as they are given. -/
  verbatim : List String

namespace DeclarationFile

def header (modulePath : String) : List String :=
  ["// Stub declarations for '" ++ modulePath ++ "' generated by arkstub.",
   "// Shapes are inferred from usage in the importing module.",
   ""]

def bodyLines (file : DeclarationFile) : List String :=
  Declaration.scopeLines 0 file.declarations ++
    (file.defaultExport.map fun name => "export default " ++ name ++ ";").toList ++
    file.verbatim

/-- The lines of the file.  A file that declares nothing is still a module. -/
def lines (file : DeclarationFile) : List String :=
  header file.modulePath ++
    if file.bodyLines.isEmpty then ["export \x7b\x7d;"] else file.bodyLines

def text (file : DeclarationFile) : String :=
  String.join (file.lines.map (· ++ "\n"))

end DeclarationFile

end AmbientStubs
