import Wiring.Call.Invocation

/-! Reading, setting and deleting attributes of values at hand. Methods that a class defines for it
go first. A property passes the value on to the attribute in which it is kept; setting one is
reported and can be rejected. -/
namespace Wiring

def readMethod : String := "__getattribute__"

def assignMethod : String := "__setattr__"

def removeMethod : String := "__delattr__"

namespace Value

def entries? : Value → Option (Entries Value)
  | .dict es => some es
  | .data (.dict es) => some (es.map fun (name, v) => (name, .data v))
  | _ => none

def text (s : String) : Value := .data (.text s)

end Value

namespace Run

def modifyObject (v : Value) (f : Object → Object) : Run Unit :=
  match v with
  | .object id => modify fun st => { st with heap := st.heap.modify id f }
  | _ => pure ()

def readFound (perform : Perform) (v : Value) (name : String) : Run Value := do
  let st ← get
  match st.world.find st.heap v name with
  | .value x => return x
  | .onObject (.property p) => perform (.read v p.store)
  | .onObject m => return m.onObject
  | .onClass _ m => return m.onClass
  | .missing => badAttribute (.missing (st.world.name (st.classOf v)) name)

/-- Reads an attribute. If there is none, a method of the class can answer for it. -/
def readAttribute (perform : Perform) (v : Value) (name : String) : Run Value := do
  let st ← get
  let c := st.classOf v
  let asked : Arguments := { positional := [.text name] }
  match hook? st.world c readMethod, hook? st.world c World.substituteMethod with
  | some m, _ => callMember perform c v asked m
  | none, some substitute =>
    tryCatch (readFound perform v name) fun
      | .badAttribute _ => callMember perform c v asked substitute
      | e => throw e
  | none, none => readFound perform v name

def readOptional (perform : Perform) (v : Value) (name : String) : Run (Option Value) :=
  tryCatch (some <$> readAttribute perform v name) fun
    | .badAttribute _ => return none
    | e => throw e

def setProperty (perform : Perform) (v x : Value) (p : Property) : Run Unit := do
  let st ← get
  if p.readOnly then badAttribute (.noSetter (st.world.name (st.classOf v)) p.name)
  else
    emit (.assigned v p.name x)
    match p.rejection with
    | some text => throw (.component text)
    | none =>
      let _ ← perform (.assign v p.store x)

def changeClass (v : Value) : Value → Run Unit
  | .cls c => do
    let st ← get
    let w := st.world
    let old := st.classOf v
    if w.sameLayout old c then
      let rename (k : ClassRef) : ClassRef :=
        if k = w.layoutClass old then w.layoutClass c else k
      modifyObject v fun o =>
        { o with cls := c, places := o.places.map fun ((k, name), x) => ((rename k, name), x) }
    else badType (.otherLayout (w.name old) (w.name c))
  | _ => badType (.otherLayout "object" "object")

def setWorked (v : Value) (kind name : String) (x : Value) : Run Unit :=
  if name = "__class__" then changeClass v x
  else if name = "__dict__" then
    match x.entries? with
    | some es => modifyObject v fun o => { o with attributes := es }
    | none => badType .notADictionary
  else badAttribute (.readOnly kind name)

def setOnClass (c : ClassRef) (name : String) (x : Value) : Run Unit := do
  match c with
  | .builtin b => badType (.immutableClass b.name)
  | .declared _ =>
    let m : Member := match x with
      | .data v => .value v
      | _ => .kept "object"
    modify fun st => { st with world := st.world.setMember c name m }

/-- Sets an attribute, apart from methods the class defines for it. -/
def setFound (perform : Perform) (v : Value) (name : String) (x : Value) : Run Unit := do
  let st ← get
  let w := st.world
  let c := st.classOf v
  match v, w.member? c name with
  | .cls k, _ => setOnClass k name x
  | _, some (_, .property p) => setProperty perform v x p
  | _, some (owner, .slot) =>
    modifyObject v fun o =>
      { o with places := ((owner, name), x) :: o.places.filter (·.1 != (owner, name)) }
  | _, some (_, .native .computed) => setWorked v (w.name c) name x
  | _, some (_, .native .place) => badAttribute (.readOnly (w.name c) name)
  | _, found =>
    if w.givesAttributes c then
      modifyObject v fun o => { o with attributes := o.attributes.set name x }
    else if found.isSome then badAttribute (.readOnly (w.name c) name)
    else badAttribute (.missing (w.name c) name)

def setAttribute (perform : Perform) (v : Value) (name : String) (x : Value) : Run Unit := do
  let st ← get
  let c := st.classOf v
  match hook? st.world c assignMethod with
  | some m =>
    let _ ← callMember perform c v { positional := [.text name, x] } m
  | none => setFound perform v name x

def deleteFound (perform : Perform) (v : Value) (name : String) : Run Unit := do
  let st ← get
  let w := st.world
  let c := st.classOf v
  let missing : AttributeFault := .missing (w.name c) name
  match w.member? c name with
  | some (_, .property p) =>
    if p.deletable then
      let _ ← perform (.remove v p.store)
    else badAttribute (.noDeleter (w.name c) p.name)
  | some (owner, .slot) =>
    match World.placed st.heap v owner name with
    | .value _ =>
      modifyObject v fun o => { o with places := o.places.filter (·.1 != (owner, name)) }
    | _ => badAttribute missing
  | some (_, .native .computed) =>
    if name = "__class__" then badType (.otherLayout (w.name c) "object")
    else if name = "__dict__" then modifyObject v fun o => { o with attributes := [] }
    else badAttribute (.readOnly (w.name c) name)
  | some (_, .native .place) => badAttribute (.readOnly (w.name c) name)
  | _ =>
    if ((World.ownAttributes st.heap v).lookup name).isSome then
      modifyObject v fun o => { o with attributes := o.attributes.erase name }
    else badAttribute missing

def deleteAttribute (perform : Perform) (v : Value) (name : String) : Run Unit := do
  let st ← get
  let c := st.classOf v
  match hook? st.world c removeMethod with
  | some m =>
    let _ ← callMember perform c v { positional := [.text name] } m
  | none => deleteFound perform v name

end Run
end Wiring
