import AmbientStubs.Import

/-!
Member accesses: dotted expressions rooted at an imported identifier, with the way the
last member is used.
-/

namespace AmbientStubs

inductive AccessContext where
  | methodCall
  /-- A call whose second-last segment is taken for the class that owns the method. -/
  | staticCall
  | propertyAccess
  | constructorCall
  | typeReference
  | unknown
deriving DecidableEq, Repr

namespace AccessContext

/-- Of two uses of one path on a line, the one with the higher rank is kept. -/
def rank : AccessContext → Nat
  | staticCall => 3
  | constructorCall => 2
  | methodCall => 1
  | propertyAccess | typeReference | unknown => 0

def isCall (context : AccessContext) : Bool :=
  decide (0 < context.rank)

end AccessContext

structure Access where
  /-- The identifier the chain starts with. -/
  base : String
  /-- The whole dotted path, including the base. -/
  path : String
  member : String
  context : AccessContext
  /-- The owning class of a static call. -/
  className : Option String := none
deriving DecidableEq, Repr

namespace Access

/-- A static call counts as one only if its class is known. -/
def isStaticCall (access : Access) : Bool :=
  access.context = .staticCall && access.className.isSome

def segments (access : Access) : List String :=
  Text.segments access.path

/-- The path without its last member; the base where nothing stands before the last dot. -/
def namespacePath (access : Access) : String :=
  match (Text.segments access.path).dropLast with
  | [] => access.base
  | [""] => access.base
  | parts => Text.dotted parts

/-- Two accesses name the same member when base, path and member agree, however the
member is used. -/
def sameMember (first second : Access) : Bool :=
  first.base == second.base && first.path == second.path && first.member == second.member

end Access

end AmbientStubs
