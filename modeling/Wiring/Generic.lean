import Wiring.Class.Basic
import Wiring.Hint.Substitution

/-! The type arguments that a hint supplies to a generic class it derives from.

The bases of a class are followed as they were written. On the way, what a base fixes for its
parameters is carried along and replaces them. -/
namespace Wiring

namespace World

def ownArguments (w : World) (c : ClassRef) (σ : Bindings) : List Hint :=
  (w.info c).parameters.map σ.get

/-- Follows the bases of `c`, whose parameters are bound by `σ`, to `target`; the first base that
leads there decides. -/
def searchArguments (w : World) (target : ClassRef) (c : ClassRef) (σ : Bindings) :
    Except FormationFault (Option (List Hint)) :=
  if c = target then .ok (some (w.ownArguments c σ))
  else
    (w.info c).baseHints.findSomeM? fun base =>
      match base.origin?.getD base with
      | .cls k =>
        if Hint.isGenericForm k || !w.derives k target then .ok none
        else if k.rank < c.rank then do
          let own := Bindings.ofParameters (w.info k).parameters base.arguments
          w.searchArguments target k (← σ.substitute own)
        else .ok none
      | _ => .ok none
termination_by c.rank

/-- The arguments `h` supplies to the class `target`: none if `target` is no ancestor of its class,
and possibly unbound type variables. The members of a union in bar spelling are arguments of nothing
else. -/
def genericArguments (w : World) (target : ClassRef) :
    Hint → Except FormationFault (Option (List Hint))
  | .annotated inner _ => w.genericArguments target inner
  | .union .bar members =>
    if target = .builtin .unionType then .ok (some members) else .error .takesNoArguments
  | h =>
    match h.origin?.getD h with
    | .cls c =>
      if h.origin?.isSome && c == target then .ok (some h.arguments)
      else if !w.derives c target then .ok none
      else
        let σ : Bindings := match h.origin? with
          | some _ => .ofParameters (w.info c).parameters h.arguments
          | none => []
        w.searchArguments target c σ
    | _ => .ok none

def argumentsFor (w : World) (target h : Hint) : Except FormationFault (Option (List Hint)) :=
  match target, h.unannotated with
  | .cls c, _ => w.genericArguments c h
  | _, .union .bar _ => .error .takesNoArguments
  | _, _ => .ok none

/-- What a class binds the type variables of an ancestor to; variables left open are left out. -/
def typeVariables (w : World) (h : Hint) (owner : ClassRef) :
    Except FormationFault (List (Hint × Hint)) := do
  let parameters := (w.info owner).parameters
  if parameters.isEmpty || h.class? = some owner then return []
  let arguments := (← w.genericArguments owner h).getD []
  return (parameters.zip arguments).filter fun pair => !pair.2.isVar

def typeVariablesOf (w : World) (owner h : Hint) :
    Except FormationFault (List (Hint × Hint)) := do
  match owner with
  | .cls c => w.typeVariables h c
  | owner =>
    if !owner.parameters.isEmpty then let _ ← w.argumentsFor owner h
    return []

def bindingsFor (w : World) (h : Hint) (owner : ClassRef) : Except FormationFault Bindings := do
  return (← w.typeVariables h owner).filterMap fun
    | (.var id _ _, argument) => some (id, argument)
    | _ => none

end World
end Wiring
