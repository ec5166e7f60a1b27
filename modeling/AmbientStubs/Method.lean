/-!
Methods observed on a class or interface.
-/

namespace AmbientStubs

structure Parameter where
  name : String
  type : String
deriving DecidableEq, Repr

namespace Parameter

def text (parameter : Parameter) : String :=
  parameter.name ++ ": " ++ parameter.type

end Parameter

structure Method where
  name : String
  isStatic : Bool
  parameters : List Parameter
  returnType : String
  /-- Name of the class or interface the method belongs to. -/
  owner : String
  /-- The dotted path the call was observed at. -/
  qualifier : String
deriving DecidableEq, Repr

namespace Method

/-- `[static] name(parameter: type, …): returnType` -/
def signature (method : Method) : String :=
  (if method.isStatic then "static " else "") ++ method.name ++ "(" ++
    ", ".intercalate (method.parameters.map Parameter.text) ++ "): " ++ method.returnType

structure Identity where
  name : String
  owner : String
  isStatic : Bool
deriving DecidableEq, Repr

def identity (method : Method) : Identity :=
  ⟨method.name, method.owner, method.isStatic⟩

end Method

end AmbientStubs
