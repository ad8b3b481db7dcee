import Wiring.Class.Metadata

/-! The constructors of a class that values can be injected into. A parameter without annotation
keeps its default. One that has neither rules the constructor out, and is an error if the
constructor is marked. -/
namespace Wiring

namespace Constructor

inductive Usage where
  /-- A request for each parameter that is passed. -/
  | usable (requests : List Request)
  /-- The parameter can neither be injected nor left out. -/
  | blocked (parameter : String)
deriving Repr, Inhabited

namespace Usage

def cons (r : Request) : Usage → Usage
  | usable rs => usable (r :: rs)
  | blocked p => blocked p

end Usage

/-- Goes through the parameters in order. After a positional-only parameter that is left out, the
later positional-only ones are left out too: `skipping`. -/
def usage (σ : Bindings) (skipping : Bool) : List Parameter → Except FormationFault Usage
  | [] => .ok (.usable [])
  | p :: ps =>
    if p.kind = .positionalOnly && skipping then usage σ skipping ps
    else
      match p.type, p.default with
      | some h, _ => do
        let request ← Request.ofParameter σ p h
        return (← usage σ skipping ps).cons request
      | none, some _ => usage σ (p.kind = .positionalOnly) ps
      | none, none => .ok (.blocked p.name)

end Constructor

namespace World

def constructor (w : World) (s : Settings) (c : ClassRef) (d : ConstructorDeclaration) :
    Except Error (Option Constructor) := do
  let σ ← (w.bindingsFor (.cls c) d.owner).mapError .ofFormation
  match ← (Constructor.usage σ false d.parameters).mapError .ofFormation with
  | .usable requests =>
    return some { name := d.name, requests, marked := d.marker.isSome
                  required := d.marker.any s.requires }
  | .blocked p =>
    if d.marker.isSome then
      throw (.unsupportedShape
        (.constructorParameterNotAnnotated (w.info c).qualifiedName d.name p))
    else return none

/-- The usable constructors, the initialiser first. A constructor marked as required must be the
only marked one. -/
def constructors (w : World) (s : Settings) (c : ClassRef) : Except Error (List Constructor) := do
  let found ← (← w.constructorDeclarations s c).mapM (w.constructor s c)
  let usable := found.filterMap id
  let marked := usable.filter (·.marked)
  let required := marked.filter (·.required)
  if marked.length > 1 && !required.isEmpty then
    .error (.multipleRequired (w.info c).qualifiedName marked.length (required.map (·.name)))
  else return usable

end World
end Wiring
