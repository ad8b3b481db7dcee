import Wiring.Error
import Wiring.Object.Attribute
import Wiring.Class.Definition

/-! Registries of components. A component is registered under a name, ready-made or with a provider
that builds it on first use, or it is registered for a type only. Each registration keeps its place
in the order of registration. -/
namespace Wiring

inductive Product where
  | value (v : Value)
  /-- A new object of the class, not initialised. -/
  | fresh (c : ClassRef)
  /-- A component of the class, created and injected from the named registry. -/
  | created (c : ClassRef) (registry : String)
deriving Repr, Inhabited

structure ProviderFunction where
  name : String
  returns : Option Hint := none
  /-- What the function complains about, if it does. -/
  complaint : Option String := none
  product : Product := .value .null
deriving Repr, Inhabited

inductive Provider where
  | cls (c : ClassRef)
  | form (h : Hint)
  | function (f : ProviderFunction)
deriving Repr, Inhabited

/-- How a component is registered. What is left open is taken from the component or its type. -/
structure Registration where
  declaredType : Option Hint := none
  qualifiers : List String := []
  priority : Option Int := none
  primary : Bool := false
  injectable : Bool := true
deriving Repr, Inhabited

structure Registry where
  entries : List Candidate := []
  /-- The entries for a type, each with that type. -/
  resolvable : List (Candidate × Hint) := []
  /-- The components at hand, of both kinds of entries. -/
  instances : Entries Value := []
  providers : Entries Provider := []
  /-- For a component the names of those it depends on. -/
  dependencies : Entries (List String) := []
  /-- The names whose providers have returned, in that order. Nothing that runs reads them; they
  tell how often a provider was successful. -/
  returned : List String := []
deriving Repr, Inhabited

namespace World

def attribute? (w : World) (h : Hint) (name : String) : Option Value :=
  (w.readValue [] (.ofHint h) name).toOption

def fixedPriority? (w : World) (h : Hint) : Option Int :=
  match w.attribute? h priorityMember with
  | some (.data (.int n)) => some n
  | _ => none

def isPrimary (w : World) (h : Hint) : Bool := (w.attribute? h primaryMember).any Value.truthy

end World

namespace Registry

def names (r : Registry) : List String := r.entries.map (·.name)

def find? (r : Registry) (name : String) : Option Candidate := r.entries.find? (·.name == name)

def nextIndex (r : Registry) : Nat := r.entries.length + r.resolvable.length

/-- Adds a named entry; a name can be used once. -/
def add (r : Registry) (name : String) (type : Hint) (o : Registration) :
    Except Error (Candidate × Registry) :=
  if (r.find? name).isSome then .error (.alreadyRegistered name)
  else
    let c : Candidate := {
      name, declaredType := type, qualifiers := o.qualifiers.eraseDups, priority := o.priority
      primary := o.primary, injectable := o.injectable, index := r.nextIndex }
    .ok (c, { r with entries := r.entries ++ [c] })

def keep (r : Registry) (name : String) (v : Value) : Registry :=
  { r with instances := r.instances.set name v }

/-- Keeps what the provider under the name has returned. -/
def keepReturned (r : Registry) (name : String) (v : Value) : Registry :=
  { r.keep name v with returned := r.returned ++ [name] }

def provide (r : Registry) (name : String) (p : Provider) : Registry :=
  { r with providers := r.providers.set name p }

/-- Registers a value for a type. The entry declares the class of the value. -/
def addResolvable (r : Registry) (title : String) (type : Hint) (cls : ClassRef) (v : Value) :
    Registry :=
  let c : Candidate := {
    name := title ++ "@resolvable", declaredType := .cls cls, index := r.nextIndex
    resolvable := true }
  { r with resolvable := r.resolvable ++ [(c, type)] }.keep c.name v

def dependenciesOf (r : Registry) (name : String) : List String :=
  (r.dependencies.lookup name).getD []

def addDependency (r : Registry) (dependency dependent : String) : Registry :=
  let known := r.dependenciesOf dependent
  let known := if known.contains dependency then known else known ++ [dependency]
  { r with dependencies := r.dependencies.set dependent known }

def record (r : Registry) (injected : List Candidate) (dependent : String) : Registry :=
  (injected.filter (!·.resolvable)).foldl (fun r c => r.addDependency c.name dependent) r

end Registry
end Wiring
