import Wiring.Store
import Wiring.Call.Arguments

/-! Calling functions. Code of components can ask for components, read and change attributes and
call what it was given; such a `Task` is handed to the caller, who says how it is performed. -/
namespace Wiring

inductive Task where
  /-- The component of a candidate of the named registry. -/
  | component (registry : String) (candidate : Candidate)
  | call (v : Value) (arguments : Arguments)
  | send (v : Value) (method : String) (arguments : Arguments)
  | read (v : Value) (name : String)
  | assign (v : Value) (name : String) (x : Value)
  | remove (v : Value) (name : String)
  /-- An object of a class, not initialised. -/
  | make (c : ClassRef)
deriving Repr, Inhabited

/-- How tasks are performed. Those that only change something give nothing. -/
abbrev Perform := Task → Run Value

/-- The attribute in which a lazy handle made by a component keeps its look-up. -/
def lookupAttribute : String := "_lookup"

def lookupMethod : String := "get_object"

def receiverName : String := "self"

namespace Run

def act (perform : Perform) (subject : Value) (arguments : Entries Value) : Action → Run Unit
  | .setParameter target p => do
    let _ ← perform (.assign subject target ((arguments.lookup p).getD .null))
  | .setValue target v => do
    let _ ← perform (.assign subject target (.data v))
  | .delete target => do
    let _ ← perform (.remove subject target)
  | .setLookup target p => do
    let x ← perform (.send ((arguments.lookup p).getD .null) lookupMethod {})
    let _ ← perform (.assign subject target x)
  | .fail text => throw (.component text)

def runBody (perform : Perform) (f : Function) (subject : Value) (arguments : Entries Value) :
    Run Value := do
  match f.body with
  | .steps actions =>
    emit (.called (f.owner ++ "." ++ f.name) subject arguments)
    actions.forM (act perform subject arguments)
    return .null
  | .order n => return .data (ClassDefinition.priorityLiteral n)
  | .orderFailure text => throw (.component text)
  | .handOver => badType .structuralClass
  | .keepLookup =>
    perform (.assign subject lookupAttribute ((arguments.lookup "lookup").getD .null))
  | .callLookup => perform (.send subject lookupAttribute {})

def bindArguments (f : Function) (a : Arguments) : Run (Entries Value) :=
  match a.bind (f.owner ++ "." ++ f.name) f.parameters with
  | .ok arguments => return arguments
  | .error fault => badType fault

def newSubject (perform : Perform) : Value → Run Value
  | .cls c => perform (.make c)
  | _ => badType (.notCallable "__new__")

/-- Calls a function. Unless it takes no receiver, its first argument is one. -/
def invoke (perform : Perform) (f : Function) (a : Arguments) : Run Value := do
  match f.subject, a.positional with
  | .nothing, _ => runBody perform f .null (← bindArguments f a)
  | _, [] => badType (.missingArguments (f.owner ++ "." ++ f.name) [receiverName])
  | .receiver, v :: rest =>
    runBody perform f v (← bindArguments f { a with positional := rest })
  | .newObject, v :: rest => do
    let arguments ← bindArguments f { a with positional := rest }
    let subject ← newSubject perform v
    let _ ← runBody perform f subject arguments
    return subject

def callMember (perform : Perform) (c : ClassRef) (receiver : Value) (a : Arguments) :
    Member → Run Value
  | .method f => invoke perform f { a with positional := receiver :: a.positional }
  | .classMethod f => invoke perform f { a with positional := .cls c :: a.positional }
  | .staticMethod f => invoke perform f a
  | .property p => do perform (.call (← perform (.read receiver p.store)) a)
  | _ => do badType (.notCallable ((← get).world.name c))

/-- Calls a member that was read on a class. A method gets no receiver that way. -/
def callClassMember (perform : Perform) (c : ClassRef) (a : Arguments) : Member → Run Value
  | .method f | .staticMethod f => invoke perform f a
  | .classMethod f => invoke perform f { a with positional := .cls c :: a.positional }
  | _ => do badType (.notCallable ((← get).world.name c))

/-- The member that a class body defines for a purpose of the system, if one does. -/
def hook? (w : World) (c : ClassRef) (name : String) : Option Member :=
  match w.member? c name with
  | some (.declared _, m) => some m
  | _ => none

end Run
end Wiring
