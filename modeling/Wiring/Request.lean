import Wiring.Hint.Description
import Wiring.Hint.Written

/-! Requests for candidates, and the points of a class at which resolved values are injected. -/
namespace Wiring

structure Request where
  /-- The type to match: the element type where a container is wanted. -/
  type : Hint
  cardinality : Cardinality := .single
  /-- Narrows candidates to those with the tag or the name. -/
  qualifier : Option Literal := none
  /-- Finding nothing is a failure. -/
  required : Bool := true
  /-- The name of the field or parameter; it breaks ties. -/
  name : Option String := none
  /-- What to use when nothing is found, if the declaration says so. -/
  default : Option Literal := none
  positionalOnly : Bool := false
deriving Repr, Inhabited

namespace Request

def describe (r : Request) (w : World) : String :=
  let name := r.type.name w
  let qualified := match r.qualifier.filter Literal.truthy with
    | some q => " qualified by '" ++ q.shown ++ "'"
    | none => ""
  name ++ qualified ++ " (" ++ r.cardinality.name ++ ")"

/-- The name of a parameter; requests of parameters always have one. -/
def parameterName (r : Request) : String := r.name.getD "None"

def constructorPoint (r : Request) : String :=
  "constructor parameter '" ++ r.parameterName ++ "'"

def immediate (r : Request) : Request := { r with cardinality := .single, required := true }

end Request

inductive PointKind where
  | field
  | method
deriving DecidableEq, Repr, Inhabited

namespace PointKind

def name : PointKind → String
  | field => "field"
  | method => "method"

end PointKind

structure InjectionPoint where
  kind : PointKind
  name : String
  /-- The class whose body declares the point. -/
  declaredBy : ClassRef
  /-- One for a field, one per parameter for a method. -/
  requests : List Request
  required : Bool := true
deriving Repr, Inhabited

namespace InjectionPoint

/-- The name under which explicit values replace the point: a method named `set_x` sets `x`. -/
def propertyName (p : InjectionPoint) : String :=
  if p.kind = .method && p.name.startsWith "set_" then String.ofList (p.name.toList.drop 4)
  else p.name

def describe (p : InjectionPoint) : String :=
  match p.kind with
  | .field => "field '" ++ p.name ++ "'"
  | .method =>
    "method '" ++ p.name ++ "(" ++
      ", ".intercalate (p.requests.map Request.parameterName) ++ ")'"

end InjectionPoint

structure Metadata where
  target : ClassRef
  points : List InjectionPoint
deriving Repr, Inhabited

structure Constructor where
  name : String
  requests : List Request := []
  marked : Bool := false
  required : Bool := false
deriving Repr, Inhabited

namespace Constructor

def initializer : String := "__init__"

end Constructor
end Wiring
