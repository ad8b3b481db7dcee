import Wiring.Hint.Formation

/-! The type variables of a hint and their replacement. -/
namespace Wiring

/-- What each type variable, known by its number, is bound to. -/
abbrev Bindings := List (Nat × Hint)

namespace Bindings

def get (σ : Bindings) : Hint → Hint
  | .var id name bound => (σ.lookup id).getD (.var id name bound)
  | h => h

def ofPairs (pairs : List (Nat × Hint)) : Bindings := pairs.reverse

def ofParameters : List Hint → List Hint → Bindings
  | .var id _ _ :: params, arg :: args => (id, arg) :: ofParameters params args
  | _ :: params, _ :: args => ofParameters params args
  | _, _ => []

end Bindings

namespace Hint

mutual

/-- The variables that a hint takes arguments for, in order of appearance. A bare variable and a
parameter list take none. -/
def parameters : Hint → List Hint
  | .alias _ _ args => argumentParameters args
  | .union _ members => argumentParameters members
  | .annotated (.var id name bound) _ => [.var id name bound]
  | .annotated inner _ => inner.parameters
  | _ => []

def argumentParameters : List Hint → List Hint
  | [] => []
  | .var id name bound :: hs =>
    .var id name bound :: (argumentParameters hs).filter (!(Hint.var id name bound).same ·)
  | h :: hs =>
    let own := h.parameters
    own ++ (argumentParameters hs).filter fun v => !own.any (·.same v)

end

def isOpen (h : Hint) : Bool := h.isVar || !h.parameters.isEmpty

/-- A parameterized class with new arguments. The parameter list of a callable can come from a
variable that stands where its first parameter is. -/
def withArguments (spelling : Spelling) (origin : ClassRef) (args : List Hint) :
    Except FormationFault Hint :=
  match spelling, args with
  | .callable, .list _ :: _ => callableOf .callable (.builtin .callable) args
  | .callable, _ => .ok (.alias .callable (.builtin .callable) args)
  | .typing, _ =>
    if isGenericForm origin then .error .takesNoArguments else .ok (.alias .typing origin args)
  | .plain, _ => .ok (.alias .plain origin args)

mutual

/-- Replaces variables at every depth and builds the hint anew, flattening unions and annotations
that meet. What has no variable stays as it was written. -/
def fill (σ : Bindings) : Hint → Except FormationFault Hint
  | .var id name bound => (σ.get (.var id name bound)).typeArgument
  | .alias spelling origin args => do withArguments spelling origin (← fillAll σ args)
  | .union .typing members => do unionOf (← fillAll σ members)
  | .union .bar members => do barAll (← fillAll σ members)
  | .annotated inner metadata => do annotate (← fill σ inner) metadata
  | h => .ok h

def fillAll (σ : Bindings) : List Hint → Except FormationFault (List Hint)
  | [] => .ok []
  | h :: hs => do
    let filled ← if h.isOpen then fill σ h else .ok h
    return filled :: (← fillAll σ hs)

end

mutual

def substitute (σ : Bindings) : Hint → Except FormationFault Hint
  | .var id name bound => .ok (σ.get (.var id name bound))
  | .list items => do return .list (← substituteAll σ items)
  | h => if σ.isEmpty || h.parameters.isEmpty then .ok h else h.fill σ

def substituteAll (σ : Bindings) : List Hint → Except FormationFault (List Hint)
  | [] => .ok []
  | h :: hs => do return (← substitute σ h) :: (← substituteAll σ hs)

end

end Hint

def Bindings.substitute (σ bindings : Bindings) : Except FormationFault Bindings :=
  bindings.mapM fun (id, h) => do return (id, ← h.substitute σ)

end Wiring
