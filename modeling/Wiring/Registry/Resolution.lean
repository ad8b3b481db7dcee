import Wiring.Registry.Basic
import Wiring.Object.Instance
import Wiring.Matching

/-! Resolving requests. Eligible candidates have a fitting class; those whose type arguments agree
exactly are preferred, and only if there are none, candidates that leave them open are considered.
Among several candidates for a single value the one named like the request wins, then the primary
one; otherwise the request is ambiguous. -/
namespace Wiring

namespace Candidate

def before (a b : Candidate) : Bool :=
  match a.priority, b.priority with
  | some p, some q => p ≤ q
  | some _, none => true
  | none, some _ => false
  | none, none => true

end Candidate

namespace Request

def accepts (q : Request) (w : World) (mode : Mode) (c : Candidate) : Except Error Bool := do
  if !(← (w.matchesHint mode c.declaredType q.type).mapError .ofFormation) then return false
  match q.qualifier with
  | none => return true
  | some qualifier =>
    if qualifier.isHashable then return c.satisfies qualifier
    else throw (.badType .badQualifier)

def accepted (q : Request) (w : World) (mode : Mode) :
    List Candidate → Except Error (List Candidate)
  | [] => .ok []
  | c :: cs => do
    let fits ← q.accepts w mode c
    let rest ← q.accepted w mode cs
    return if fits then c :: rest else rest

def nothing (q : Request) : Resolution :=
  if q.required then .failure (.notFound q) else .empty

def single (q : Request) (candidates : List Candidate) : Resolution :=
  match candidates with
  | [] => q.nothing
  | [c] => .value c
  | candidates =>
    match candidates.filter fun c => some c.name == q.name with
    | [c] => .value c
    | _ =>
      match candidates.filter (·.primary) with
      | [c] => .value c
      | _ => .failure (.ambiguous q candidates)

def multiple (q : Request) (s : Settings) (candidates : List Candidate) : Resolution :=
  if candidates.isEmpty then q.nothing
  else .values (if s.orderByPriority then candidates.mergeSort Candidate.before else candidates)

end Request

namespace Registry

/-- An entry for a type takes part if the type is a subclass of the required class, or if the
required class is a subclass of the type and the value is an instance of it. -/
def takesPart (r : Registry) (w : World) (h : Heap) (required : Hint)
    (entry : Candidate × Hint) : Except CheckRefusal Bool :=
  if w.isSubclass entry.2 required then .ok true
  else if w.isSubclass required entry.2 then
    w.isInstance h ((r.instances.lookup entry.1.name).getD .null) required
  else .ok false

def participants (r : Registry) (w : World) (h : Heap) (required : Hint) :
    List (Candidate × Hint) → Except CheckRefusal (List Candidate)
  | [] => .ok []
  | entry :: rest => do
    if ← r.takesPart w h required entry then
      return entry.1 :: (← r.participants w h required rest)
    else r.participants w h required rest

/-- The candidates whose class fits the required type, in order of registration. -/
def eligible (r : Registry) (w : World) (h : Heap) (required : Hint) :
    Except CheckRefusal (List Candidate) := do
  let cls := required.raw
  let named := r.entries.filter fun c => c.injectable && w.assignable c.declaredType cls
  let others ← r.participants w h cls r.resolvable
  return (named ++ others).mergeSort fun a b => a.index ≤ b.index

/-- The eligible candidates that satisfy the request: strictly if possible. -/
def matching (r : Registry) (w : World) (h : Heap) (q : Request) :
    Except Error (List Candidate) := do
  let eligible ← (r.eligible w h q.type).mapError fun refusal => .badType (.refused refusal)
  let strict ← q.accepted w .strict eligible
  if strict.isEmpty then q.accepted w .fallback eligible else return strict

def resolve (r : Registry) (s : Settings) (w : World) (h : Heap) (q : Request) :
    Except Error Resolution := do
  let candidates ← r.matching w h q
  return if q.cardinality.isMultiple then q.multiple s candidates else q.single candidates

end Registry
end Wiring
