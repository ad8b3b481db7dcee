import Wiring.Registry.Selection

/-! The state of a program that wires components: its classes and objects, the registries, what is
known about classes already, and a record of what happened. A failed run keeps the state it
reached. -/
namespace Wiring

inductive Event where
  | called (function : String) (receiver : Value) (arguments : Entries Value)
  | assigned (object : Value) (property : String) (value : Value)
  | built (provider : String)
  | made (object : Value)
deriving Repr, Inhabited

structure Store where
  settings : Settings := {}
  world : World
  heap : Heap := []
  registries : Entries Registry := []
  /-- The injection points of the classes looked at so far. -/
  metadata : List (ClassRef × Metadata) := []
  /-- The constructors chosen so far. -/
  constructors : List (ClassRef × Constructor) := []
  events : List Event := []
deriving Repr, Inhabited

namespace Store

/-- A registry that nothing was put into is empty. -/
def registry (st : Store) (name : String) : Registry := (st.registries.lookup name).getD {}

def setRegistry (st : Store) (name : String) (r : Registry) : Store :=
  { st with registries := st.registries.set name r }

def object? (st : Store) (id : Nat) : Option Object := st.heap[id]?

def classOf (st : Store) (v : Value) : ClassRef := st.world.classOf st.heap v

def resolve (st : Store) (registry : String) (q : Request) : Except Error Resolution :=
  (st.registry registry).resolve st.settings st.world st.heap q

end Store

abbrev Run := ExceptT Error (StateM Store)

namespace Run

def lift {α : Type} : Except Error α → Run α
  | .ok a => pure a
  | .error e => throw e

def emit (e : Event) : Run Unit := modify fun st => { st with events := st.events ++ [e] }

def modifyRegistry (name : String) (f : Registry → Registry) : Run Unit :=
  modify fun st => st.setRegistry name (f (st.registry name))

def resolve (registry : String) (q : Request) : Run Resolution := do
  lift ((← get).resolve registry q)

def eligible (registry : String) (q : Request) : Run (List Candidate) := do
  let st ← get
  lift (((st.registry registry).eligible st.world st.heap q.type).mapError fun refusal =>
    .badType (.refused refusal))

def matching (registry : String) (q : Request) : Run (List Candidate) := do
  let st ← get
  lift ((st.registry registry).matching st.world st.heap q)

def badType {α : Type} (fault : TypeFault) : Run α := throw (.badType fault)

def badAttribute {α : Type} (fault : AttributeFault) : Run α := throw (.badAttribute fault)

def allocate (o : Object) : Run Nat :=
  modifyGet fun st => (st.heap.length, { st with heap := st.heap ++ [o] })

end Run
end Wiring
