import AmbientStubs.Text.Line

/-!
Imports.  One record stands for one name that an import clause binds in its file.
-/

namespace AmbientStubs

inductive ImportKind where
  /-- `import { A, B as C } from 'm'` -/
  | named
  /-- `import * as ns from 'm'` -/
  | wholeModule
  /-- `import A from 'm'` -/
  | defaultExport
deriving DecidableEq, Repr

structure Import where
  modulePath : String
  /-- The imported symbol, `*` for the whole module, or the name that the clause gives to
  the default export. -/
  importedName : String
  localAlias : Option String
  typeOnly : Bool
  kind : ImportKind
deriving DecidableEq, Repr

namespace Import

def named (modulePath name : String) (localAlias : Option String) (typeOnly : Bool) : Import :=
  ⟨modulePath, name, localAlias, typeOnly, .named⟩

def wholeModule (modulePath localName : String) (typeOnly : Bool) : Import :=
  ⟨modulePath, "*", some localName, typeOnly, .wholeModule⟩

def defaultExport (modulePath name : String) (typeOnly : Bool) : Import :=
  ⟨modulePath, name, none, typeOnly, .defaultExport⟩

/-- Whether the import stands for everything its module exports. -/
def isWildcard (imported : Import) : Bool :=
  imported.importedName == "*"

/-- A specifier that starts with a dot names a local file; any other names a package. -/
def isExternal (imported : Import) : Bool :=
  !Text.startsWith imported.modulePath "."

/-- Whether an identifier refers to this import inside the importing file.  A symbol
answers to its own name as well as to its alias, the whole module to its alias only. -/
def binds (imported : Import) (identifier : String) : Bool :=
  (!imported.isWildcard && imported.importedName == identifier) ||
    imported.localAlias == some identifier

/-- Name of the symbol that represents this import inside its package. -/
def rootName (imported : Import) : String :=
  if imported.isWildcard then imported.localAlias.getD "*" else imported.importedName

def binding? (imports : List Import) (identifier : String) : Option Import :=
  imports.find? (·.binds identifier)

end Import

end AmbientStubs
