import AmbientStubs.Access.Chain

/-!
The accesses of one line: the chains whose base an import binds, one per path with its
strongest use, without the property accesses that a longer call already covers.
-/

namespace AmbientStubs.Access

open Text

/-- Add an access to those found on a line.  A path keeps its first place and takes the
use of highest rank. -/
def record (access : Access) : List Access → List Access
  | [] => [access]
  | existing :: rest =>
      if existing.path = access.path then
        (if existing.context.rank < access.context.rank then access else existing) :: rest
      else existing :: record access rest

/-- Whether an access only reads a value on the way to a call. -/
def isCovered (found : List Access) (access : Access) : Bool :=
  access.context = .propertyAccess &&
    found.any fun other =>
      other.context.isCall && startsWith other.path (access.path ++ ".")

/-- The uses on a line of names that the imports bind, one for each chain. -/
def occurrences (reserved : List String) (imports : List Import) (line : List Char) :
    List Access :=
  ((Chain.ofLine line).map (Chain.access reserved)).filter fun access =>
    (Import.binding? imports access.base).isSome

/-- What is left of the uses on a line: the strongest of each path, unless it is covered. -/
def settle (uses : List Access) : List Access :=
  let found := uses.foldl (fun found access => record access found) []
  found.filter fun access => !isCovered found access

def ofLine (reserved : List String) (imports : List Import) (line : List Char) :
    List Access :=
  settle (occurrences reserved imports line)

end AmbientStubs.Access
