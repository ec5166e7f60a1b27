import AmbientStubs.Package

/-!
Where the methods of an owner are declared.  A symbol that the module imports keeps its
methods at the module level.  Any other owner with static methods goes where its first
static method was observed, unless that is a namespace that stands for the whole module.
-/

namespace AmbientStubs.Package

open Text

inductive Placement where
  | moduleLevel
  /-- Inside the namespace with the given path; the module level has an alias for it. -/
  | relocated (container : String)
deriving DecidableEq, Repr

/-- Names that stand for the whole module: what is inside them is declared at the module
level. -/
def flattenedRoots (package : Package) : List String :=
  (package.topLevel.filter (·.kind == .namespaceScope)).map (·.name)

def isImportedOwner (package : Package) (owner : String) : Bool :=
  package.topLevel.any fun symbol =>
    symbol.name == owner && symbol.kind != .namespaceScope && symbol.signature.isSome

/-- The path of the namespace around the class at which a static method was observed. -/
def container? (method : Method) : Option String :=
  match (segments method.qualifier).reverse with
  | _ :: _ :: first :: rest => some (dotted (first :: rest).reverse)
  | _ => none

def placement (package : Package) (owner : String) : Placement :=
  if package.isImportedOwner owner then .moduleLevel
  else
    match ((package.methodsOf owner).find? (·.isStatic)).bind container? with
    | none => .moduleLevel
    | some container =>
        if package.flattenedRoots.contains container then .moduleLevel
        else .relocated container

def moduleLevelOwners (package : Package) : List String :=
  package.methodOwners.filter fun owner => package.placement owner = .moduleLevel

structure Relocation where
  owner : String
  container : String
deriving DecidableEq, Repr

def relocations (package : Package) : List Relocation :=
  package.methodOwners.filterMap fun owner =>
    match package.placement owner with
    | .relocated container => some ⟨owner, container⟩
    | .moduleLevel => none

def isRelocated (relocations : List Relocation) (owner : String) : Bool :=
  relocations.any (·.owner == owner)

/-- The owners that are relocated into a namespace with one of the given paths. -/
def hostedIn (relocations : List Relocation) (paths : List String) : List String :=
  (relocations.filter fun relocation => paths.contains relocation.container).map (·.owner)

/-- How the module level refers to a namespace: a root that stands for the whole module
is left out, and nothing remains of such a root alone. -/
def modulePathOf? (package : Package) (container : String) : Option String :=
  match segments container with
  | head :: rest =>
      if package.flattenedRoots.contains head then
        if rest.isEmpty then none else some (dotted rest)
      else some container
  | [] => some container

def aliasTarget? (package : Package) (owner : String) : Option String :=
  match package.placement owner with
  | .moduleLevel => none
  | .relocated container =>
      (package.modulePathOf? container).map fun path => path ++ "." ++ owner

end AmbientStubs.Package
