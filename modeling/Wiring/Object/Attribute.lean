import Wiring.Class.Layout
import Wiring.Object.Value
import Wiring.Error

/-! Reading attributes. A managed member of the class of an object goes before the object's own
attribute of the name, every other member after it. A property keeps its value in another attribute,
so a reading can pass through several properties before it ends. -/
namespace Wiring

namespace NativeKind

def onClass : NativeKind → String
  | operation => "wrapper_descriptor"
  | routine => "method_descriptor"
  | maker => "builtin_function_or_method"
  | function | loose => "function"
  | ofClass => "method"
  | computed => "getset_descriptor"
  | place => "member_descriptor"

def onObject : NativeKind → String
  | operation => "method-wrapper"
  | routine | maker => "builtin_function_or_method"
  | function | ofClass => "method"
  | loose => "function"
  | computed | place => "object"

end NativeKind

namespace Member

def plainValue : Member → Value
  | .value v => .data v
  | .classMethod _ => .other "method"
  | .hints items => .tuple (items.map .ofHint)
  | .annotations entries => .dict (entries.map fun (name, h) => (name, .ofHint h))
  | .kept kind => .other kind
  | _ => .other "function"

/-- The member read on an object. A marker stands for a value not injected yet. -/
def onObject : Member → Value
  | .marker _ => .null
  | .method _ => .other "method"
  | .native kind => .other kind.onObject
  | m => m.plainValue

def onClass : Member → Value
  | .marker m => .marker m
  | .property _ => .other "property"
  | .slot => .other "member_descriptor"
  | .native kind => .other kind.onClass
  | m => m.plainValue

end Member

inductive Found where
  | value (v : Value)
  | onObject (m : Member)
  | onClass (c : ClassRef) (m : Member)
  | missing
deriving Repr, Inhabited

namespace Literal

def numberPart? (v : Literal) (name : String) : Option Literal :=
  match v, name with
  | .bool b, "real" | .bool b, "numerator" => some (.int (if b then 1 else 0))
  | .int n, "real" | .int n, "numerator" => some (.int n)
  | .int _, "imag" | .bool _, "imag" => some (.int 0)
  | .int _, "denominator" | .bool _, "denominator" => some (.int 1)
  | .float x, "real" => some (.float x)
  | .float _, "imag" => some (.float (.ofInt 0))
  | _, _ => none

end Literal

namespace World

def workedOnClass (w : World) (c : ClassRef) (name : String) : Found :=
  let info := w.info c
  let own : Found := match w.ownMember? c name with
    | some m => .value m.onClass
    | none => .missing
  match name with
  | "__class__" => .value (.cls (w.metaclass c))
  | "__name__" => .value (.data (.text info.name))
  | "__qualname__" => .value (.data (.text info.qualifiedName))
  | "__bases__" => .value (.tuple (info.bases.map .cls))
  | "__mro__" => .value (.tuple (info.linearization.map .cls))
  | "__base__" => .value (if info.bases.isEmpty then .null else .cls info.mainBase)
  | "__dict__" => .value (.other "mappingproxy")
  | "__module__" =>
    match own with
    | .missing => .value (.data (.text (info.moduleName?.getD "builtins")))
    | found => found
  | "__doc__" | "__annotations__" =>
    match own, c with
    | .missing, .declared _ => .value (if name = "__doc__" then .null else .dict [])
    | found, _ => found
  | "__abstractmethods__" => own
  | _ => .value .null

def findOnClass (w : World) (c : ClassRef) (name : String) : Found :=
  match w.classAttribute? c name with
  | some .worked => w.workedOnClass c name
  | some (.member _ m) => .onClass c m
  | some (.lent m) => .onObject m
  | none => .missing

/-- Attributes that an alias in plain spelling has of its own; all others are those of its class. -/
def aliasAttributes : List String :=
  ["__class__", "__origin__", "__args__", "__unpacked__", "__parameters__",
   "__typing_unpacked_tuple_args__", "__mro_entries__", "__reduce_ex__", "__reduce__", "__copy__",
   "__deepcopy__"]

def isReserved (name : String) : Bool := name.startsWith "__" && name.endsWith "__"

/-- The attributes of a hint that is no class. Those it does not have are looked up on what it
parameterizes. -/
def findOnForm (w : World) (h : Hint) (name : String) : Found :=
  let own : Found := match w.member? (.builtin h.kind) name with
    | some (_, m) =>
      if name = "__class__" then .value (.cls (.builtin h.kind)) else .onObject m
    | none => .missing
  let beyond (found : Found) : Found :=
    match own with
    | .missing => if isReserved name then .missing else found
    | own => own
  match h with
  | .alias .plain origin _ | .alias .callable origin _ =>
    if aliasAttributes.contains name then own else w.findOnClass origin name
  | .alias .typing origin _ => beyond (w.findOnClass origin name)
  | .bare origin => beyond (w.findOnClass (.builtin origin) name)
  | .annotated inner _ =>
    beyond (match inner with
      | .cls c => w.findOnClass c name
      | inner => w.findOnForm inner name)
  | _ => own

def ownAttributes (h : Heap) : Value → Entries Value
  | .object id => (h[id]?.map (·.attributes)).getD []
  | .factory .. => [("_lookup", .other "function")]
  | _ => []

def numberOf (h : Heap) : Value → Literal
  | .data v => v
  | .object id => (h[id]?.bind (·.number)).getD .null
  | _ => .null

def workedOnObject (w : World) (h : Heap) (v : Value) (name : String) : Found :=
  let c := w.classOf h v
  match name with
  | "__class__" => .value (.cls c)
  | "__dict__" => if w.givesAttributes c then .value (.dict (ownAttributes h v)) else .missing
  | "__weakref__" => if w.givesWeakReference c then .value .null else .missing
  | name =>
    match (numberOf h v).numberPart? name with
    | some part => .value (.data part)
    | none => .missing

def placed (h : Heap) (v : Value) (owner : ClassRef) (name : String) : Found :=
  match v with
  | .object id =>
    match (h[id]?.map (·.places)).getD [] |>.lookup (owner, name) with
    | some v => .value v
    | none => .missing
  | _ => .missing

def findOnObject (w : World) (h : Heap) (v : Value) (name : String) : Found :=
  match w.member? (w.classOf h v) name, (ownAttributes h v).lookup name with
  | some (owner, .slot), _ => placed h v owner name
  | some (_, .property p), _ => .onObject (.property p)
  | some (_, .native .computed), _ | some (_, .native .place), _ => w.workedOnObject h v name
  | _, some own => .value own
  | some (_, m), none => .onObject m
  | none, none => .missing

def find (w : World) (h : Heap) (v : Value) (name : String) : Found :=
  match v with
  | .cls c => w.findOnClass c name
  | .form hint => w.findOnForm hint name
  | v => w.findOnObject h v name

def substituteMethod : String := "__getattr__"

def answersMissing (w : World) (c : ClassRef) : Bool :=
  match w.member? c substituteMethod with
  | some (.declared _, .method _) => true
  | _ => false

def propertyCount (w : World) : Nat :=
  (w.classes.flatMap (·.members)).countP fun
    | (_, .property _) => true
    | _ => false

/-- Reads an attribute through at most as many properties as the limit says. This is what a test for
its presence finds. Release 3.11 of the runtime finds it by reading, and runs the code that the class
of the value has for that, as `Run.readAttribute` does. Here no code runs: nothing is reported or
changed, and methods that answer for missing attributes give nothing. -/
def readThrough (w : World) (h : Heap) (v : Value) : Nat → String → Except AttributeFault Value
  | limit, name =>
    match w.find h v name, limit with
    | .value x, _ => .ok x
    | .onObject (.property p), limit + 1 => w.readThrough h v limit p.store
    | .onObject m, _ => .ok m.onObject
    | .onClass _ m, _ => .ok m.onClass
    | .missing, _ =>
      let c := w.classOf h v
      if w.answersMissing c then .ok .null else .error (.missing (w.name c) name)

def readValue (w : World) (h : Heap) (v : Value) (name : String) : Except AttributeFault Value :=
  w.readThrough h v w.propertyCount name

end World
end Wiring
