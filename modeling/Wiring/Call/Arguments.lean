import Wiring.Error
import Wiring.Object.Attribute

/-! Arguments of a call, and which parameter receives which argument. -/
namespace Wiring

structure Arguments where
  positional : List Value := []
  named : Entries Value := []
deriving Repr, Inhabited

namespace Arguments

def isEmpty (a : Arguments) : Bool := a.positional.isEmpty && a.named.isEmpty

/-- The value of each request, passed by position or by name as its parameter wants it. -/
def ofRequests (values : List (Request × Value)) : Arguments where
  positional := (values.filter (·.1.positionalOnly)).map (·.2)
  named := (values.filter (!·.1.positionalOnly)).map fun (q, v) => (q.parameterName, v)

end Arguments

namespace Parameter

def isPositional (p : Parameter) : Bool := p.kind = .positionalOnly || p.kind = .ordinary

def isNameable (p : Parameter) : Bool := p.kind = .ordinary || p.kind = .keywordOnly

end Parameter

namespace Arguments

def filled (a : Arguments) (params : List Parameter) : Entries Value :=
  ((params.filter (·.isPositional)).zip a.positional).map fun (p, v) => (p.name, v)

def surplus (a : Arguments) (params : List Parameter) : List Value :=
  a.positional.drop (params.filter (·.isPositional)).length

def unclaimed (a : Arguments) (params : List Parameter) : Entries Value :=
  a.named.filter fun (name, _) => !params.any fun p => p.isNameable && p.name == name

def valueOf (a : Arguments) (title : String) (params : List Parameter) (p : Parameter) :
    Except TypeFault Value :=
  match p.kind with
  | .variadic => .ok (.tuple (a.surplus params))
  | .variadicNamed => .ok (.dict (a.unclaimed params))
  | _ =>
    let byPosition := (a.filled params).lookup p.name
    let byName := if p.isNameable then a.named.lookup p.name else none
    match byPosition, byName with
    | some _, some _ => .error (.repeatedArgument title p.name)
    | some v, none | none, some v => .ok v
    | none, none =>
      match p.default with
      | some v => .ok (.data v)
      | none => .error (.missingArguments title [p.name])

/-- Gives every parameter its value, in the order of the signature. Arguments that no parameter
takes are an error. -/
def bind (a : Arguments) (title : String) (params : List Parameter) :
    Except TypeFault (Entries Value) :=
  if !(a.surplus params).isEmpty && !params.any (·.kind = .variadic) then
    .error (.tooManyArguments title a.positional.length)
  else
    match a.unclaimed params, params.any (·.kind = .variadicNamed) with
    | (name, _) :: _, false => .error (.unexpectedArgument title name)
    | _, _ => params.mapM fun p => do return (p.name, ← a.valueOf title params p)

end Arguments
end Wiring
