import Wiring.Request
import Wiring.Class.Subclass

/-! Values that components hold and pass around, and the objects some of them refer to. -/
namespace Wiring

inductive Value where
  | data (v : Literal)
  /-- An object, by its place in the heap. -/
  | object (id : Nat)
  | cls (c : ClassRef)
  /-- A hint that is no class. -/
  | form (h : Hint)
  | marker (m : Marker)
  | list (items : List Value)
  | tuple (items : List Value)
  | dict (entries : List (String × Value))
  /-- A lazy handle: the request is resolved in the named registry whenever it is used. -/
  | factory (request : Request) (registry : String)
  /-- Anything else, of which only the kind is known. -/
  | other (kind : String)
deriving Repr, Inhabited

namespace Value

def null : Value := .data .null

def isClass : Value → Bool
  | cls _ => true
  | _ => false

def truthy : Value → Bool
  | data v => v.truthy
  | list items | tuple items => !items.isEmpty
  | dict entries => !entries.isEmpty
  | _ => true

def ofHint : Hint → Value
  | .cls c => .cls c
  | .none => null
  | .text s => .data (.text s)
  | .literal v => .data v
  | .list items => .list (ofHints items)
  | .qualifier .. => .other "Qualifier"
  | .forward _ => .other "ForwardRef"
  | .value .. => .other "builtin_function_or_method"
  | h => .form h
where
  ofHints : List Hint → List Value
    | [] => []
    | h :: hs => ofHint h :: ofHints hs

end Value

/-- An object. The attributes it carries freely and those its class has places for are apart: the
same name can have several places, one for each class that asks for it. -/
structure Object where
  cls : ClassRef
  attributes : Entries Value := []
  places : List ((ClassRef × String) × Value) := []
  /-- What an object of a number class stands for. -/
  number : Option Literal := none
deriving Repr, Inhabited

abbrev Heap := List Object

namespace Literal

def cls : Literal → Builtin
  | null => .noneType
  | bool _ => .bool
  | int _ => .int
  | float _ => .float
  | text _ => .str
  | list _ => .list
  | dict _ => .dict

end Literal

namespace Hint

def kind : Hint → Builtin
  | .ellipsis => .ellipsis
  | .var .. => .typeVariable
  | .bare .tuple => .bareTuple
  | .bare .callable => .bareCallable
  | .bare _ => .bareAlias
  | .unionForm => .specialForm
  | .alias .plain .. => .plainAlias
  | .alias .callable .. => .callableAlias
  | .alias .typing (.builtin .callable) _ => .typingCallable
  | .alias .typing .. => .typingAlias
  | .union .typing _ => .typingUnion
  | .union .bar _ => .unionType
  | .annotated .. => .annotatedAlias
  | _ => .object

end Hint

namespace World

def classOf (w : World) (h : Heap) : Value → ClassRef
  | .data v => v.cls
  | .object id => (h[id]?.map (·.cls)).getD (.builtin .object)
  | .cls c => w.metaclass c
  | .form h => h.kind
  | .list _ => Builtin.list
  | .tuple _ => Builtin.tuple
  | .dict _ => Builtin.dict
  | .factory .. => Builtin.objectFactory
  | .other kind => if kind = Builtin.bytes.name then Builtin.bytes else Builtin.object
  | .marker _ => Builtin.object

end World
end Wiring
