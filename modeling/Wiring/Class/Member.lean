import Wiring.Hint.Basic
import Wiring.Entries
import Wiring.Marker

/-! What a class body can hold under a name, and what the functions in it do when they run. -/
namespace Wiring

inductive ParameterKind where
  | positionalOnly
  | ordinary
  | keywordOnly
  | variadic
  | variadicNamed
deriving DecidableEq, Repr, Inhabited

structure Parameter where
  name : String
  type : Option Hint := none
  default : Option Literal := none
  kind : ParameterKind := .ordinary
deriving Repr, Inhabited

inductive Action where
  | setParameter (target parameter : String)
  | setValue (target : String) (value : Literal)
  | delete (target : String)
  /-- Stores what the lazy factory given as the parameter yields. -/
  | setLookup (target parameter : String)
  | fail (message : String)
deriving Repr, Inhabited

inductive Body where
  /-- Reports the call, then takes the steps. -/
  | steps (actions : List Action)
  | order (priority : Option Int)
  | orderFailure (message : String)
  /-- The initialiser of a structural class that has none: it hands over to the first real one. -/
  | handOver
  | keepLookup
  | callLookup
deriving Repr, Inhabited

inductive Subject where
  /-- The first argument: what the function is called on. -/
  | receiver
  /-- A new object of the class that the function is called on; it is also the result. -/
  | newObject
  | nothing
deriving DecidableEq, Repr, Inhabited

structure Function where
  name : String
  /-- The class whose body holds the function. -/
  owner : String
  subject : Subject := .receiver
  parameters : List Parameter := []
  markers : List Marker := []
  /-- Declared as a way to construct the class. -/
  constructs : Bool := false
  body : Body := .steps []
deriving Repr, Inhabited

/-- A managed attribute that keeps its value in another attribute. -/
structure Property where
  name : String
  store : String
  /-- What setting it complains about, if it does. -/
  rejection : Option String := none
  readOnly : Bool := false
  deletable : Bool := false
deriving Repr, Inhabited

inductive NativeKind where
  | operation
  | routine
  | maker
  | function
  | ofClass
  | loose
  /-- Worked out when it is read. -/
  | computed
  /-- Kept in a place of its own in every object. -/
  | place
deriving DecidableEq, Repr, Inhabited

inductive Member where
  | marker (m : Marker)
  | value (v : Literal)
  | property (p : Property)
  | method (f : Function)
  | classMethod (f : Function)
  | staticMethod (f : Function)
  /-- An attribute that every object has a place for. -/
  | slot
  | native (kind : NativeKind)
  /-- Hints that a class keeps about itself. -/
  | hints (items : List Hint)
  | annotations (entries : Entries Hint)
  /-- Something of which only the kind is known. -/
  | kept (kind : String)
deriving Repr, Inhabited

namespace Member

def callable : Member → Bool
  | .marker _ | .method _ | .classMethod _ | .staticMethod _ => true
  | .native .computed | .native .place => false
  | .native _ => true
  | .value _ | .property _ | .slot | .hints _ | .annotations _ | .kept _ => false

/-- Reading and setting go through the class, even if an object has an attribute of the name. -/
def isManaged : Member → Bool
  | .property _ | .slot | .native .computed | .native .place => true
  | _ => false

/-- An explicit empty entry, which switches a member off. -/
def switchedOff : Member → Bool
  | .value .null => true
  | _ => false

end Member

abbrev Namespace := Entries Member

end Wiring
