import Wiring.Object.Access
import Wiring.Call.Conversion

/-! Making objects, and calling classes, objects and hints. A class is called in two steps: an
object is made, then its initialiser is run with the same arguments. -/
namespace Wiring

namespace World

def missingMembers (w : World) (c : ClassRef) : List String :=
  let asked := (w.linearization c).flatMap fun
    | .builtin b => b.abstractMembers
    | .declared _ => []
  asked.eraseDups.filter fun name =>
    match w.member? c name with
    | some (.builtin b, _) => b.abstractMembers.contains name
    | _ => false

def isInitialised (w : World) (c : ClassRef) : Bool :=
  match w.member? c Constructor.initializer with
  | some (owner, _) => owner != .builtin .object
  | none => false

/-- The initialiser that a structural class hands over to: the first real one. -/
def realInitializer? (w : World) (c : ClassRef) : Option Member :=
  (w.linearization c).findSome? fun k =>
    match w.ownMember? k Constructor.initializer with
    | some (.method f) =>
      match f.body with
      | .handOver => none
      | _ => some (.method f)
    | m => m

end World

namespace Builtin

def newData? (b : Builtin) (number : Literal) : Option Value :=
  match b with
  | noneType => some .null
  | bool => some (.data (.bool number.truthy))
  | int | float => some (.data number)
  | str => some (.text "")
  | list => some (.list [])
  | dict => some (.dict [])
  | tuple => some (.tuple [])
  | bytes => some (.other bytes.name)
  | _ => none

end Builtin

def makerMethod : String := "__new__"

def formAttribute : String := "__orig_class__"

namespace Run

def make (c : ClassRef) (a : Arguments) : Run Value := do
  let st ← get
  let w := st.world
  let missing := w.missingMembers c
  match w.dataClass? c with
  | some b =>
    let number ←
      if b.fixesData then lift (a.content w st.heap b (w.isInitialised c)) else pure (.int 0)
    let fresh : Object :=
      { cls := c, number := if b = .int || b = .float then some number else none }
    match c with
    | .builtin own =>
      match own.newData? number with
      | some v => return v
      | none => return .object (← allocate fresh)
    | .declared _ => return .object (← allocate fresh)
  | none =>
    if w.derives c (.builtin .type) || c == .builtin .any then badType (.notMade (w.name c))
    else if !missing.isEmpty then badType (.abstractClass (w.name c) missing)
    else if !a.isEmpty && !w.isInitialised c then badType (.noArguments (w.name c))
    else if c = .builtin .noneType then return .null
    else return .object (← allocate { cls := c })

def newObject (perform : Perform) (c : ClassRef) (a : Arguments) : Run Value := do
  match hook? (← get).world c makerMethod with
  | some m => callClassMember perform c { a with positional := .cls c :: a.positional } m
  | none => make c a

/-- Runs an initialiser, which gives no result. The one that every object has takes no arguments. -/
def runInitializer (perform : Perform) (c : ClassRef) (receiver : Value) (a : Arguments) :
    Member → Run Unit
  | .native _ => do
    let st ← get
    match st.world.dataClass? c with
    | some .dict => pure ()
    | some b =>
      let accepted : Bool := b.fixesData || (a.named.isEmpty &&
        match a.positional with
        | [] => true
        | [v] => st.world.isIterable st.heap v
        | _ => false)
      if !accepted then badType (.noArguments (st.world.name c))
    | none => if !a.isEmpty then badType (.noArguments (st.world.name c))
  | .slot => do badAttribute (.missing ((← get).world.name c) Constructor.initializer)
  | m => do
    match ← callMember perform c receiver a m with
    | .data .null => pure ()
    | _ => badType (.resultOfInitializer ((← get).world.name c))

/-- Initialises a new object. Handing over is done once: afterwards the class has the initialiser
that was found. -/
def setUp (perform : Perform) (c : ClassRef) (receiver : Value) (a : Arguments) :
    Run Unit := do
  let w := (← get).world
  let found : Member := ((w.member? c Constructor.initializer).map (·.2)).getD (.native .operation)
  let handsOver : Bool := match found with
    | .method f => match f.body with
      | .handOver => true
      | _ => false
    | _ => false
  if !handsOver then runInitializer perform c receiver a found
  else if (w.info c).structural then badType .structuralClass
  else
    let real := (w.realInitializer? c).getD (.native .operation)
    modify fun st => { st with world := w.setMember c Constructor.initializer real }
    runInitializer perform c receiver a real

/-- Calls a class. What was made is initialised if it is an object of the class. -/
def instantiate (perform : Perform) (c : ClassRef) (a : Arguments) : Run Value := do
  let v ← newObject perform c a
  let st ← get
  let own := st.classOf v
  if st.world.derives own c then setUp perform own v a
  return v

def callForm (perform : Perform) (h : Hint) (a : Arguments) : Run Value := do
  let keep (v : Value) (forgiving : Error → Bool) : Run Value := do
    let _ ← tryCatch (perform (.assign v formAttribute (.form h))) fun e =>
      if forgiving e then return .null else throw e
    return v
  let isAttributeError (e : Error) : Bool := e matches .badAttribute _
  let isTypeError (e : Error) : Bool := e matches .badType _
  match h with
  | .alias .plain origin _ | .alias .callable origin _ =>
    keep (← instantiate perform origin a) fun e => isAttributeError e || isTypeError e
  | .alias .typing (.builtin b) _ =>
    if b.typingName?.isSome then badType (.notMade b.name)
    else keep (← instantiate perform (.builtin b) a) isAttributeError
  | .alias .typing origin _ => keep (← instantiate perform origin a) isAttributeError
  | .annotated inner _ => keep (← perform (.call (.ofHint inner) a)) isAttributeError
  | h => badType (.notCallable h.kind.name)

def callValue (perform : Perform) (v : Value) (a : Arguments) : Run Value := do
  let st ← get
  let c := st.classOf v
  match v with
  | .cls c => instantiate perform c a
  | .form h => callForm perform h a
  | v =>
    match hook? st.world c "__call__" with
    | some m => callMember perform c v a m
    | none => badType (.notCallable (st.world.name c))

def lookUp (perform : Perform) (q : Request) (registry : String) : Run Value := do
  match ← resolve registry q.immediate with
  | .value c => perform (.component registry c)
  | .failure f => throw (f.toError none)
  | .values _ => badAttribute (.missing "Values" "candidate")
  | .empty => badAttribute (.missing "Empty" "candidate")

def sendFound (perform : Perform) (v : Value) (name : String) (a : Arguments) : Run Value := do
  let st ← get
  let c := st.classOf v
  match hook? st.world c readMethod, st.world.find st.heap v name with
  | none, .onObject (.method f) => callMember perform c v a (.method f)
  | none, .onObject (.classMethod f) => callMember perform c v a (.classMethod f)
  | none, .onObject (.staticMethod f) => callMember perform c v a (.staticMethod f)
  | none, .onClass k m => callClassMember perform k a m
  | _, _ => do callValue perform (← readAttribute perform v name) a

def callAttribute (perform : Perform) (v : Value) (name : String) (a : Arguments) :
    Run Value :=
  match v with
  | .factory q registry =>
    if name = lookupMethod && a.isEmpty then lookUp perform q registry
    else sendFound perform v name a
  | v => sendFound perform v name a

end Run
end Wiring
