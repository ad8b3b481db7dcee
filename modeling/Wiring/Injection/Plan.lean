import Wiring.Object.Creation
import Wiring.Class.Metadata

/-! Planning an injection: every point is resolved and its values are collected before the first is
applied. A point covered by an explicit value is left out, an optional one may be, and an ambiguous
one is always an error. -/
namespace Wiring

inductive Step where
  | assign (name : String) (value : Value)
  | call (method : String) (arguments : Arguments)
deriving Repr, Inhabited

structure Planned where
  title : String
  step : Step
  injected : List Candidate := []
deriving Repr, Inhabited

namespace Request

def isLazy (q : Request) : Bool := q.cardinality = .factory

def injected (q : Request) (result : Resolution) : List Candidate :=
  if q.isLazy then [] else result.found

def container (q : Request) (candidates : List Candidate) (components : List Value) : Value :=
  match q.cardinality with
  | .array => .tuple components
  | .nameKeyedMap => .dict (Entries.ofList ((candidates.map (·.name)).zip components))
  | _ => .list components

end Request

namespace Run

def resolveNow (registry : String) (q : Request) : Run Resolution :=
  if q.isLazy then return .empty else resolve registry q

def materialise (perform : Perform) (registry : String) (q : Request) (result : Resolution) :
    Run Value :=
  if q.isLazy then return .factory q registry
  else
    match result with
    | .value c => perform (.component registry c)
    | .values cs => do
      return q.container cs (← cs.mapM fun c => perform (.component registry c))
    | .empty | .failure _ => return .data (q.default.getD .null)

def planField (perform : Perform) (registry component : String) (p : InjectionPoint)
    (q : Request) : Run (Option Planned) := do
  match ← resolveNow registry q, q.isLazy with
  | .failure f, _ => throw (.injection component p.describe (f.toError p.describe))
  | .empty, false => return none
  | result, _ =>
    let value ← materialise perform registry q result
    return some { title := p.describe, step := .assign p.name value
                  injected := q.injected result }

/-- The values for the parameters of a method, or nothing if the method is optional and something
is missing. -/
def planParameters (perform : Perform) (registry component : String) (p : InjectionPoint) :
    List Request → Run (Option (List (Request × Value × List Candidate)))
  | [] => return some []
  | q :: qs => do
    match ← resolveNow registry q with
    | .failure f =>
      match f with
      | .notFound _ =>
        if p.required then throw (.injection component p.describe (f.toError p.describe))
        else return none
      | .ambiguous .. => throw (.injection component p.describe (f.toError p.describe))
    | result =>
      let value ← materialise perform registry q result
      let rest ← planParameters perform registry component p qs
      return rest.map ((q, value, q.injected result) :: ·)

def planMethod (perform : Perform) (registry component : String) (p : InjectionPoint) :
    Run (Option Planned) := do
  let values ← planParameters perform registry component p p.requests
  return values.map fun values => {
    title := p.describe
    step := .call p.name (.ofRequests (values.map fun (q, v, _) => (q, v)))
    injected := values.flatMap (·.2.2) }

def planPoint (perform : Perform) (registry component : String) (p : InjectionPoint) :
    Run (Option Planned) :=
  match p.kind, p.requests with
  | .field, q :: _ => planField perform registry component p q
  | .field, [] => return none
  | .method, _ => planMethod perform registry component p

def planPoints (perform : Perform) (registry component : String) (explicit : Entries Value) :
    List InjectionPoint → Run (List Planned)
  | [] => return []
  | p :: ps => do
    if (explicit.lookup p.propertyName).isSome then
      planPoints perform registry component explicit ps
    else
      let planned ← planPoint perform registry component p
      return planned.toList ++ (← planPoints perform registry component explicit ps)

end Run

/-- The method that sets a property, if there is one; of several the last. -/
def setter? (points : List InjectionPoint) (property : String) : Option String :=
  ((points.filter fun p => p.kind = .method && p.propertyName == property).getLast?).map (·.name)

/-- The steps for the explicit values: through a setter where a method is named for the property,
otherwise by assignment. -/
def planExplicit (points : List InjectionPoint) (explicit : Entries Value) : List Planned :=
  explicit.map fun (name, value) => {
    title := "explicit value '" ++ name ++ "'"
    step := match setter? points name with
      | some method => .call method { positional := [value] }
      | none => .assign name value }

end Wiring
