import Wiring.Hint.Basic

/-! What the hint of a field or parameter asks for: an element type, how many of it and in what
container, a qualifier, and whether nothing will do as well. -/
namespace Wiring

inductive Cardinality where
  | single
  | array
  | orderedList
  | nameKeyedMap
  /-- A lazy handle that looks the candidate up when it is used. -/
  | factory
deriving DecidableEq, Repr, Inhabited

namespace Cardinality

def name : Cardinality → String
  | single => "single"
  | array => "array"
  | orderedList => "ordered-list"
  | nameKeyedMap => "name-keyed-map"
  | factory => "factory"

def isMultiple : Cardinality → Bool
  | array | orderedList | nameKeyedMap => true
  | single | factory => false

end Cardinality

structure Description where
  element : Hint
  cardinality : Cardinality
  qualifier : Option Literal := none
  nullable : Bool := false
deriving Repr, Inhabited

namespace Hint

def qualifierFrom : List Hint → Option Literal
  | [] => Option.none
  | .qualifier _ .null :: _ => Option.none
  | .qualifier _ name :: _ => some name
  | .text name :: _ => some (.text name)
  | _ :: rest => qualifierFrom rest

def peelMetadata : Hint → Hint × Option Literal
  | .annotated inner metadata => (inner, qualifierFrom metadata)
  | h => (h, Option.none)

def peelOptional : Hint → Hint × Bool
  | h@(.union _ members) =>
    match members.filter (!·.isNoneType) with
    | [member] => if members.length > 1 then (member, true) else (h, false)
    | _ => (h, false)
  | h => (h, false)

def listContainers : List Builtin := [.list, .sequence, .mutableSequence, .collection, .iterable]

def mapContainers : List Builtin := [.dict, .mapping, .mutableMapping]

def container (h : Hint) : Hint × Cardinality :=
  match h with
  | .cls (.builtin .objectFactory) => (any, .factory)
  | .alias _ (.builtin b) _ =>
    match b, h.arguments with
    | .objectFactory, element :: _ => (element, .factory)
    | .objectFactory, [] => (any, .factory)
    | .tuple, [element, .ellipsis] => (element, .array)
    | b, [element] => if listContainers.contains b then (element, .orderedList) else (h, .single)
    | b, [.cls (.builtin .str), element] =>
      if mapContainers.contains b then (element, .nameKeyedMap) else (h, .single)
    | _, _ => (h, .single)
  | _ => (h, .single)

/-- One annotation is taken off, then one empty alternative, then one container. -/
def describe (h : Hint) : Description :=
  let inner := h.peelMetadata
  let alternative := inner.1.peelOptional
  let content := alternative.1.container
  { element := content.1, cardinality := content.2
    qualifier := inner.2, nullable := alternative.2 }

end Hint
end Wiring
