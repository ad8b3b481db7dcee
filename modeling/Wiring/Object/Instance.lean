import Wiring.Object.Attribute

/-! Instance tests. A value is an instance of its class and of the classes it is a subclass of; a
structural class also takes objects that have its members as attributes. -/
namespace Wiring.World

/-- The value has an attribute for the member of a structural class, which is not switched off
where the member can be called. -/
def presents (w : World) (h : Heap) (target : ClassRef) (v : Value) (name : String) : Bool :=
  match w.readValue h v name with
  | .error _ => false
  | .ok (.data .null) => !w.callableAttribute target name
  | .ok _ => true

/-- The test against a class. It reads the members of a structural class without running code of
the value's own class (`World.readThrough`). -/
def isInstanceOf (w : World) (h : Heap) (v : Value) (target : ClassRef) :
    Except CheckRefusal Bool :=
  let c := w.classOf h v
  if c = target then .ok true
  else if target = .builtin .any then .error (.noClass "typing.Any")
  else if target = .builtin .protocol then .error .notCheckable
  else if (w.info target).structural then
    if !w.allowsChecks target then .error .notCheckable
    else
      .ok ((w.routinesOnly target && w.fits c target) ||
        (w.outline target).all (w.presents h target v) || w.derives c target)
  else w.subclass? c target

/-- The first member that accepts decides, unless a test before it is refused. -/
def anyAccepts (accepts : Hint → Except CheckRefusal Bool) : List Hint → Except CheckRefusal Bool
  | [] => .ok false
  | m :: ms => do if ← accepts m then return true else anyAccepts accepts ms

def subclassOf? (w : World) (c : ClassRef) : Hint → Except CheckRefusal Bool
  | .cls target => w.subclass? c target
  | h => .error (.noClass (h.written w))

def isInstance (w : World) (h : Heap) (v : Value) (target : Hint) : Except CheckRefusal Bool :=
  match target with
  | .cls c => w.isInstanceOf h v c
  | .bare origin => w.subclass? (w.classOf h v) origin
  | .union .typing members => anyAccepts (w.subclassOf? (w.classOf h v)) members
  | .union .bar members =>
    if members.all (·.class?.isSome) then
      anyAccepts (fun
        | .cls c => w.isInstanceOf h v c
        | m => .error (.noClass (m.written w))) members
    else .error (.noClass (target.written w))
  | target => .error (.noClass (target.written w))

end Wiring.World
