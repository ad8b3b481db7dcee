import Wiring.Class.Lookup
import Wiring.Hint.Equality

/-! Subclass tests. Most classes go by ancestry; a structural class goes by its members, the
abstract containers by the members they ask for and by registration. A test against a structural
class can be refused, and then only ancestry counts. -/
namespace Wiring

inductive CheckRefusal where
  /-- The structural class allows no checks. -/
  | notCheckable
  | holdsData
  | noClass (written : String)
deriving DecidableEq, Repr

namespace CheckRefusal

def message : CheckRefusal → String
  | notCheckable =>
    "Instance and class checks can only be used with @runtime_checkable protocols"
  | holdsData => "Protocols with non-method members don't support issubclass()"
  | noClass written => written ++ " cannot be used with isinstance()"

end CheckRefusal

namespace World

def housekeeping : List String :=
  ["__parameters__", "__orig_bases__", "__orig_class__", "_is_protocol", "_is_runtime_protocol",
    "__abstractmethods__", "__annotations__", "__dict__", "__doc__", "__init__", "__module__",
    "__new__", "__slots__", "__subclasshook__", "__weakref__", "__class_getitem__",
    "_MutableMapping__marker"]

def outline (w : World) (c : ClassRef) : List String :=
  (w.linearization c).flatMap fun k =>
    if k == .builtin .object || ["Protocol", "Generic"].contains (w.name k) then []
    else
      let info := w.info k
      (info.members.names ++ info.annotations.map (·.1)).filter fun name =>
        !housekeeping.contains name && !name.startsWith "_abc_"

def routinesOnly (w : World) (c : ClassRef) : Bool := (w.outline c).all (w.callableAttribute c)

def allowsChecks (w : World) (c : ClassRef) : Bool :=
  (w.linearization c).any fun k => (w.info k).checkable

/-- The class offers the member: the first class to hold the name does not switch it off. In a
structural class an annotation is an offer too. -/
def offers (w : World) (c : ClassRef) (name : String) : Bool :=
  let structural := (w.info c).structural && w.derives c (.builtin .generic)
  go structural (w.linearization c)
where
  go (structural : Bool) : List ClassRef → Bool
    | [] => false
    | k :: ks =>
      match w.ownMember? k name with
      | some m => !m.switchedOff
      | none => (structural && ((w.info k).annotations.lookup name).isSome) || go structural ks

def fits (w : World) (c target : ClassRef) : Bool := (w.outline target).all (w.offers c)

def keeps (w : World) (c : ClassRef) (name : String) : Bool :=
  match w.member? c name with
  | some (_, m) => !m.switchedOff
  | none => false

def inContainer (w : World) (c : ClassRef) (b : Builtin) : Bool :=
  (b.structure?.any fun names => names.all (w.keeps c)) || w.derives c (.builtin b) ||
    (w.linearization c).any fun
      | .builtin data => data.registeredAs?.any fun r => r.linearization.contains b
      | _ => false

def conversions : List String :=
  ["__int__", "__float__", "__complex__", "__bytes__", "__index__", "__abs__", "__round__",
    "get_order"]

def fitsSome (w : World) (c : ClassRef) : Bool :=
  conversions.any (w.offers c) ||
    (List.range w.classes.length).any fun n =>
      let k := ClassRef.declared n
      (w.info k).structural && w.allowsChecks k && w.routinesOnly k && w.fits c k

def subclass? (w : World) (c target : ClassRef) : Except CheckRefusal Bool :=
  if (w.info target).structural then
    if !w.allowsChecks target then .error .notCheckable
    else if !w.routinesOnly target then .error .holdsData
    else .ok (w.fits c target || w.derives c target)
  else
    match target with
    | .builtin .protocol => .ok (w.derives c target || w.fitsSome c)
    | .builtin b => .ok (if b.isAbstract then w.inContainer c b else w.derives c target)
    | .declared _ => .ok (w.derives c target)

/-- The subclass test on hints: everything is a subclass of `object`, hints that are no classes
must be the same, and ancestry decides where the test between classes is refused. -/
def isSubclass (w : World) (candidate required : Hint) : Bool :=
  match required with
  | .cls (.builtin .any) | .cls (.builtin .object) => true
  | .cls target =>
    match candidate with
    | .cls c => (w.subclass? c target).toOption.getD (w.derives c target)
    | _ => candidate.same required
  | _ => candidate.same required

end World
end Wiring
