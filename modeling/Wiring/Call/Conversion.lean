import Wiring.Call.Arguments
import Wiring.Number.Reading

/-! Making data from the arguments of a call: what the classes of data accept, and which number an
object of a number class stands for. -/
namespace Wiring

namespace Builtin

/-- Classes whose data is fixed when an object is made, not filled in afterwards. -/
def fixesData : Builtin → Bool
  | str | int | float | bytes | tuple => true
  | _ => false

def argumentNames : Builtin → List String
  | str => ["object", "encoding", "errors"]
  | bytes => ["source", "encoding", "errors"]
  | int => ["base"]
  | _ => []

end Builtin

namespace World

def dataClass? (w : World) (c : ClassRef) : Option Builtin :=
  (w.linearization c).findSome? fun
    | .builtin b => if b.holdsData && b != .type then some b else none
    | .declared _ => none

def isIterable (w : World) (h : Heap) : Value → Bool
  | .data (.text _) | .data (.list _) | .data (.dict _) | .list _ | .tuple _ | .dict _ => true
  | v => (w.dataClass? (w.classOf h v)).any fun b => b != .int && b != .float

end World

namespace Literal

def wholeNumber : Literal → Except Error Literal
  | .bool b => .ok (.int (if b then 1 else 0))
  | .int n => .ok (.int n)
  | .float x =>
    match x.truncated?, x with
    | some n, _ => .ok (.int n)
    | none, .infinite _ => .error (.badValue (.tooLarge "int"))
    | none, _ => .error (.badValue (.malformed "int"))
  | .text s =>
    match wholeNumber? s with
    | some n => .ok (.int n)
    | none => .error (.badValue (.malformed "int"))
  | _ => .error (.badType (.noArguments "int"))

def fractionalNumber : Literal → Except Error Literal
  | .bool b => .ok (.float (.ofInt (if b then 1 else 0)))
  | .int n =>
    match Binary.ofDecimal (n < 0) n.natAbs 0 with
    | .infinite _ => .error (.badValue (.tooLarge "float"))
    | x => .ok (.float x)
  | .float x => .ok (.float x)
  | .text s =>
    match Binary.ofText? s with
    | some x => .ok (.float x)
    | none => .error (.badValue (.malformed "float"))
  | _ => .error (.badType (.noArguments "float"))

def areBytes : Literal → Except Error Unit
  | .bool _ => .ok ()
  | .int n => if n < 0 then .error (.badValue (.malformed "bytes")) else .ok ()
  | .list items => items.forM fun
    | .bool _ => .ok ()
    | .int n =>
      if 0 ≤ n && n < 256 then .ok () else .error (.badValue (.malformed "bytes"))
    | _ => .error (.badType (.noArguments "bytes"))
  | .dict [] => .ok ()
  | _ => .error (.badType (.noArguments "bytes"))

end Literal

namespace Arguments

/-- What an object of a class of data stands for when it is made from the arguments, if it is a
number. Names the class does not know are accepted where an initialiser looks after them. -/
def content (a : Arguments) (w : World) (h : Heap) (b : Builtin) (initialised : Bool) :
    Except Error Literal :=
  let zero : Literal := if b = .float then .float (.ofInt 0) else .int 0
  let refused : Except Error Literal := .error (.badType (.noArguments b.name))
  let lenient := initialised && (b == .float || b == .tuple)
  if !lenient && a.named.any fun (name, _) => !b.argumentNames.contains name then refused
  else
    let named := if lenient then [] else a.named.map (·.2)
    match b, a.positional ++ named with
    | _, [] => .ok zero
    | .int, [v] =>
      if named.isEmpty then (World.numberOf h v).wholeNumber else refused
    | .float, [v] => (World.numberOf h v).fractionalNumber
    | .str, [_] => .ok zero
    | .bytes, [.data v] => v.areBytes.map fun _ => zero
    | .tuple, [v] => if w.isIterable h v then .ok zero else refused
    | _, _ => refused

end Arguments
end Wiring
