import Wiring.Class.Basic

/-! Looking up attributes of classes. A class is asked for a name in three steps: what the class of
the class works out goes first, then members along the linearization, then the remaining members of
the class of the class. -/
namespace Wiring

inductive ClassAttribute where
  /-- The class of the class works it out. -/
  | worked
  /-- A class of the linearization holds it. -/
  | member (owner : ClassRef) (m : Member)
  /-- The class of the class holds it and lends it to the class. -/
  | lent (m : Member)
deriving Repr, Inhabited

namespace World

def classAttribute? (w : World) (c : ClassRef) (name : String) : Option ClassAttribute :=
  let lent := (w.member? (.builtin (w.metaclass c)) name).map (·.2)
  if lent.any (·.isManaged) then some .worked
  else
    match w.member? c name with
    | some (owner, m) => some (.member owner m)
    | none => lent.map .lent

def callableAttribute (w : World) (c : ClassRef) (name : String) : Bool :=
  match w.classAttribute? c name with
  | some .worked => name == "__class__"
  | some (.member _ m) | some (.lent m) => m.callable
  | none => false

end World
end Wiring
