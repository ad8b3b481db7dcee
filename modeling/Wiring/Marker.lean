import Wiring.Entries
import Wiring.Literal
import Wiring.Builtin.Members

/-! Injection markers: what a class body attaches to a field, a method or a constructor to have it
injected, and the settings that say which markers count and when a marker means "required". -/
namespace Wiring

inductive MarkerClass where
  /-- The class all markers derive from. -/
  | root
  /-- The marker recognised unless settings name others. -/
  | autowired
  | custom (id : Nat) (name : String) (base : MarkerClass) (attributes : Entries Literal)
deriving Repr, Inhabited

inductive MarkerAttribute where
  | data (v : Literal)
  /-- Something that equals no plain data. -/
  | behaviour
deriving Repr, Inhabited

namespace MarkerClass

def name : MarkerClass → String
  | root => "Marker"
  | autowired => "Autowired"
  | custom _ name _ _ => name

def same : MarkerClass → MarkerClass → Bool
  | root, root => true
  | autowired, autowired => true
  | custom a _ _ _, custom b _ _ _ => a == b
  | _, _ => false

def derivesFrom (c target : MarkerClass) : Bool :=
  c.same target ||
    match c with
    | root => false
    | autowired => root.same target
    | custom _ _ base _ => base.derivesFrom target

def define (moduleName : String) (id : Nat) (name : String) (base : MarkerClass)
    (attributes : Entries Literal) : MarkerClass :=
  let given := [("__module__", .text moduleName), ("__doc__", .null)]
  custom id name base (attributes ++ given.filter (!attributes.names.contains ·.1))

def behaviour : List String :=
  ["__set_name__", "__get__", "__call__", "__annotations__", "__doc__", "__class__"] ++
    Builtin.object.operations ++ Builtin.object.routines ++ Builtin.object.makers

def read : MarkerClass → String → Option MarkerAttribute
  | custom _ _ base own, name => (own.lookup name).map .data <|> base.read name
  | _, name =>
    if name = "qualifier" then some (.data .null)
    else if name = "__module__" then some (.data (.text "autowire.markers"))
    else if behaviour.contains name then some .behaviour
    else none

def initial : MarkerClass → Entries Literal
  | root => []
  | autowired => [("required", .bool true), ("qualifier", .null)]
  | custom _ _ base _ => base.initial

end MarkerClass

structure Marker where
  cls : MarkerClass
  attributes : Entries Literal
deriving Repr, Inhabited

namespace Marker

def make (cls : MarkerClass) : Marker := ⟨cls, cls.initial⟩

def set (m : Marker) (name : String) (value : Literal) : Marker :=
  { m with attributes := m.attributes.set name value }

def read (m : Marker) (name : String) : Option MarkerAttribute :=
  if name = "__dict__" then some (.data (.dict m.attributes))
  else if name = "__weakref__" then some (.data .null)
  else (m.attributes.lookup name).map .data <|> m.cls.read name

def attribute? (m : Marker) (name : String) : Option Literal :=
  match m.read name with
  | some (.data v) => some v
  | _ => none

/-- The qualifier a marker asks for; an empty one asks for none. -/
def qualifier? (m : Marker) : Option Literal :=
  (m.attribute? "qualifier").filter Literal.truthy

def written (m : Marker) : String :=
  let qualifier := match m.attribute? "qualifier" with
    | some v => if v.truthy then ["qualifier=" ++ v.written] else []
    | none => []
  let required := match m.attribute? "required" with
    | some v => if v.truthy then [] else ["required=False"]
    | none => []
  "Autowired(" ++ ", ".intercalate (qualifier ++ required) ++ ")"

end Marker

structure Settings where
  /-- Collections are ordered by priority; otherwise they keep registration order. -/
  orderByPriority : Bool := true
  markerClasses : List MarkerClass := [.autowired]
  requiredAttribute : String := "required"
  requiredValue : Literal := .bool true
deriving Repr, Inhabited

namespace Settings

def recognises (s : Settings) (m : Marker) : Bool := s.markerClasses.any m.cls.derivesFrom

def find? (s : Settings) (markers : List Marker) : Option Marker := markers.find? s.recognises

/-- A marker without the deciding attribute is required. -/
def requires (s : Settings) (m : Marker) : Bool :=
  match m.read s.requiredAttribute with
  | some (.data v) => v.same s.requiredValue
  | some .behaviour => false
  | none => true

end Settings
end Wiring
