import Wiring.Registry.Resolution
import Wiring.Class.Constructors

/-! Selecting the constructor of a class. A required one is taken as it is; otherwise, of those that
the registry can satisfy, the one with the most parameters. -/
namespace Wiring

structure Selection where
  constructor : Constructor
  /-- What the parameters resolved to, if that decided the choice. -/
  results : Option (List Resolution) := none
deriving Repr, Inhabited

namespace Registry

/-- Resolves parameters in order and stops after the first failure. Lazy handles need nothing. -/
def resolveParameters (r : Registry) (s : Settings) (w : World) (h : Heap) :
    List Request → Except Error (List Resolution)
  | [] => .ok []
  | q :: qs =>
    if q.cardinality = .factory then do
      return .empty :: (← r.resolveParameters s w h qs)
    else do
      match ← r.resolve s w h q with
      | .failure f => return [.failure f]
      | result => return result :: (← r.resolveParameters s w h qs)

/-- The first constructor whose parameters all resolve; without one, the first failure is the
error. -/
def firstSatisfied (r : Registry) (s : Settings) (w : World) (h : Heap) (c : ClassRef) :
    Option Failure → List Constructor → Except Error Selection
  | none, [] => .error (.noCandidate (.noConstructor c) none)
  | some f, [] => .error (f.toError (some f.request.constructorPoint))
  | missing, k :: ks => do
    let results ← r.resolveParameters s w h k.requests
    match results.findSome? Resolution.failure? with
    | none => return { constructor := k, results := some results }
    | some f => r.firstSatisfied s w h c (missing <|> some f) ks

end Registry

namespace Constructor

/-- The constructors to choose from: the marked ones and the one without parameters, or all if none
is marked. -/
def pool (constructors : List Constructor) : List Constructor :=
  let marked := constructors.filter (·.marked)
  let plain := (constructors.find? (·.requests.isEmpty)).filter (!·.marked)
  if marked.isEmpty then constructors else marked ++ plain.toList

def byParameters (constructors : List Constructor) : List Constructor :=
  constructors.mergeSort fun a b => b.requests.length ≤ a.requests.length

/-- The constructor that needs no choice: the only one, if it has no parameters, or the required
one. -/
def settled? : List Constructor → Option Constructor
  | [k] => if k.requests.isEmpty || (k.marked && k.required) then some k else none
  | constructors => constructors.find? fun k => k.marked && k.required

end Constructor

namespace Registry

def select (r : Registry) (s : Settings) (w : World) (h : Heap) (c : ClassRef) :
    Except Error Selection := do
  let constructors ← w.constructors s c
  match Constructor.settled? constructors with
  | some k => return { constructor := k }
  | none =>
    r.firstSatisfied s w h c none (Constructor.byParameters (Constructor.pool constructors))

end Registry
end Wiring
