import Wiring.Injection.Apply
import Wiring.Text.Lowercase

/-! Creating components. What is known about a class is worked out once: its injection points, and
the constructor chosen for it. Lazy components are built on first use and kept; building one can
create others, and a component that needs itself is an error. -/
namespace Wiring

def defaultName (className : String) : String :=
  match className.toList with
  | [] => ""
  | c :: cs => String.ofList (Text.lower c ++ cs)

namespace Store

/-- How deep tasks can nest where they come to an end: a few for each component that is built, and
one for each property that a value passes through. -/
def depth (st : Store) : Nat :=
  let providers := (st.registries.flatMap fun (_, r) => r.providers).length
  6 * (providers + 2) + 2 * st.world.propertyCount

end Store

namespace Run

def nameFor (c : ClassRef) (name : Option String) : Run String := do
  match name with
  | some n => if n.isEmpty then return defaultName ((← get).world.name c) else return n
  | none => return defaultName ((← get).world.name c)

/-- The injection points of a class. Its constructors are checked at the same time. -/
def metadata (c : ClassRef) : Run Metadata := do
  let st ← get
  match st.metadata.lookup c with
  | some m => return m
  | none =>
    let _ ← lift (st.world.constructors st.settings c)
    let m ← lift (st.world.metadata st.settings c)
    modify fun st => { st with metadata := (c, m) :: st.metadata }
    return m

/-- The constructor of a class. Only the choice itself is kept, not what the parameters resolved
to. -/
def selectConstructor (registry : String) (c : ClassRef) : Run Selection := do
  let st ← get
  match st.constructors.lookup c with
  | some k => return { constructor := k }
  | none =>
    let selection ← lift ((st.registry registry).select st.settings st.world st.heap c)
    modify fun st => { st with constructors := (c, selection.constructor) :: st.constructors }
    return selection

def constructorValues (perform : Perform) (registry component : String) :
    List (Request × Resolution) → Run (List (Request × Value))
  | [] => return []
  | (q, result) :: rest => do
    match result with
    | .failure f =>
      throw (.injection component q.constructorPoint (f.toError q.constructorPoint))
    | result =>
      let value ← materialise perform registry q result
      return (q, value) :: (← constructorValues perform registry component rest)

def callConstructor (perform : Perform) (c : ClassRef) (name : String) (a : Arguments) :
    Run Value :=
  if name = Constructor.initializer then instantiate perform c a
  else callAttribute perform (.cls c) name a

def construct (perform : Perform) (registry component : String) (c : ClassRef)
    (selection : Selection) : Run Value := do
  let requests := selection.constructor.requests
  let results ← match selection.results with
    | some results => pure results
    | none => requests.mapM (resolveNow registry)
  let values ← constructorValues perform registry component (requests.zip results)
  let o ← callConstructor perform c selection.constructor.name (.ofRequests values)
  let injected := (requests.zip results).flatMap fun (q, result) => q.injected result
  modifyRegistry registry (·.record injected component)
  return o

/-- An error while the constructor is chosen, as an error of the component where the registry lacks
or has too many candidates. -/
def selectionError (component : String) (e : Error) : Error :=
  match e with
  | .noCandidate .. | .ambiguous .. =>
    .injection component (e.point?.getD "constructor") e
  | e => e

def createWith (perform : Perform) (registry : String) (c : ClassRef) (name : Option String)
    (explicit : Entries Value) : Run Value := do
  let component ← nameFor c name
  let m ← metadata c
  let selection ← tryCatch (selectConstructor registry c) fun e =>
    throw (selectionError component e)
  let o ← construct perform registry component c selection
  inject perform registry component m explicit o
  return o

def injectWith (perform : Perform) (registry : String) (target : Value) (name : Option String)
    (explicit : Entries Value) : Run Unit := do
  let c := (← get).classOf target
  let m ← metadata c
  let component ← nameFor c name
  inject perform registry component m explicit target

def build (perform : Perform) : Provider → Run Value
  | .cls c => instantiate perform c {}
  | .form h => callForm perform h {}
  | .function f => do
    emit (.built f.name)
    match f.complaint with
    | some text => throw (.component text)
    | none =>
      match f.product with
      | .value v => return v
      | .fresh c => do
        let v ← newObject perform c {}
        emit (.made v)
        return v
      | .created c registry => createWith perform registry c none []

def component (perform : Perform) (registry : String) (c : Candidate) : Run Value := do
  let r := (← get).registry registry
  match r.instances.lookup c.name with
  | some v => return v
  | none =>
    match r.providers.lookup c.name with
    | none => throw (.noCandidate (.notRegistered c) none)
    | some p =>
      let v ← build perform p
      modifyRegistry registry (·.keepReturned c.name v)
      return v

def performWithin : Nat → Perform
  | 0, _ => throw .circular
  | n + 1, .component registry c => component (performWithin n) registry c
  | n + 1, .call v a => callValue (performWithin n) v a
  | n + 1, .send v method a => callAttribute (performWithin n) v method a
  | n + 1, .read v name => readAttribute (performWithin n) v name
  | n + 1, .assign v name x => do
    setAttribute (performWithin n) v name x
    return .null
  | n + 1, .remove v name => do
    deleteAttribute (performWithin n) v name
    return .null
  | n + 1, .make c => newObject (performWithin n) c {}

def perform : Perform := fun task => do performWithin (← get).depth task

def create (registry : String) (c : ClassRef) (name : Option String) (explicit : Entries Value) :
    Run Value :=
  createWith perform registry c name explicit

def injectInto (registry : String) (target : Value) (name : Option String)
    (explicit : Entries Value) : Run Unit :=
  injectWith perform registry target name explicit

def getComponent (registry : String) (c : Candidate) : Run Value :=
  perform (.component registry c)

end Run
end Wiring
