import Wiring.Class.Member

/-! Declared classes and the world they live in.

A class refers only to classes declared before it, so walks from a class to its bases end. Members
are looked up along the linearization of a class. -/
namespace Wiring

/-- What the objects of a class have beyond those of its main base. -/
structure Layout where
  /-- Attributes of their own, under any name. -/
  attributes : Bool := false
  /-- They can be referred to without being kept. -/
  weakReference : Bool := false
  places : List String := []
deriving DecidableEq, Repr, Inhabited

structure ClassInfo where
  name : String
  qualifiedName : String
  /-- The module the class is written with; the basic classes are written without one. -/
  moduleName? : Option String := none
  bases : List ClassRef
  /-- The base that decides how objects are laid out. -/
  mainBase : ClassRef := .builtin .object
  layout : Layout := {}
  /-- The bases as written, kept when one of them was more than a class. -/
  writtenBases : Option (List Hint) := none
  parameters : List Hint := []
  linearization : List ClassRef
  members : Namespace := []
  annotations : Entries Hint := []
  /-- A class that is known by its members. -/
  structural : Bool := false
  /-- Checks against the structural class are allowed. -/
  checkable : Bool := false
  slots : List String := []
deriving Repr, Inhabited

namespace ClassInfo

def baseHints (info : ClassInfo) : List Hint :=
  info.writtenBases.getD (info.bases.map .cls)

end ClassInfo

namespace Builtin

def everywhere : List Builtin :=
  [.object, .type, .str, .int, .bool, .float, .bytes, .list, .dict, .tuple, .set]

/-- The parameter of the lazy factory class. Its number is never given to another variable. -/
def factoryParameter : Hint := .var 0 "T" none

def given (moduleName : String) (doc : Literal) : Namespace :=
  [("__module__", .value (.text moduleName)), ("__doc__", .value doc)]

def access (layout : Layout) : Namespace :=
  (if layout.attributes then [("__dict__", .native .computed)] else []) ++
    if layout.weakReference then [("__weakref__", .native .computed)] else []

def abstractParts : Namespace :=
  [("__abstractmethods__", .kept "frozenset"), ("_abc_impl", .kept "_abc_data")]

def structuralParts (structural : Bool) : Namespace :=
  [("_is_protocol", .value (.bool structural)), ("__subclasshook__", .native .function)]

def nativeMembers (b : Builtin) : Namespace :=
  let all (kind : NativeKind) (names : List String) : Namespace := names.map (·, .native kind)
  all .operation b.operations ++ all .routine b.routines ++ all .maker b.makers ++
    all .function b.functions ++ all .ofClass b.classFunctions ++ all .loose b.looseFunctions ++
    all .computed b.computed ++ all .place b.places ++ b.switchedOff.map (·, .value .null) ++
    b.emptyLists.map (·, .hints []) ++ b.constants.map (fun (name, v) => (name, .value v)) ++
    b.kept.map fun (name, kind) => (name, .kept kind)

def members : Builtin → Namespace
  | objectFactory => given "autowire.markers" (.text
      "Lazy handle on a dependency, resolved each time :meth:\x60get_object\x60 is called.") ++
      access { attributes := true, weakReference := true } ++ [
      ("__orig_bases__", .hints [.alias .typing generic [factoryParameter]]),
      ("__parameters__", .hints [factoryParameter]),
      ("__init__", .method {
        name := "__init__", owner := "ObjectFactory"
        parameters := [{ name := "lookup",
                         type := some (.alias .typing callable [factoryParameter]) }]
        body := .keepLookup }),
      ("get_object", .method
        { name := "get_object", owner := "ObjectFactory", body := .callLookup })]
  | ordered => given "autowire.markers"
        (.text "Components whose priority is decided per instance.") ++
      access { attributes := true, weakReference := true } ++
      structuralParts true ++ abstractParts ++ [
      ("_is_runtime_protocol", .value (.bool true)), ("__parameters__", .hints []),
      ("get_order", .method { name := "get_order", owner := "Ordered", body := .order none }),
      ("__init__", .method { name := "__init__", owner := "Ordered", body := .handOver })]
  | b =>
    let own := match b, b.moduleName? with
      | unionType, _ | plainAlias, _ | _, none => []
      | _, some name => [("__module__", Member.value (.text name))]
    own ++ b.nativeMembers

def info (b : Builtin) : ClassInfo where
  name := b.name
  qualifiedName := b.name
  moduleName? := b.moduleName?
  bases := b.bases.map .builtin
  mainBase := (b.bases.head?.map .builtin).getD (.builtin .object)
  layout := { attributes := b.givesAttributes, weakReference := b.givesWeakReference }
  writtenBases := match b with
    | objectFactory => some [.alias .typing generic [factoryParameter]]
    | _ => none
  parameters := match b with
    | objectFactory => [factoryParameter]
    | _ => []
  linearization := b.linearization.map .builtin
  members := b.members
  structural := b == ordered
  checkable := b == ordered

end Builtin

structure World where
  moduleName : String
  classes : List ClassInfo := []
  /-- What a forward reference can name, latest first. -/
  globals : List (String × Hint) := []
deriving Repr, Inhabited

namespace World

def info (w : World) : ClassRef → ClassInfo
  | .builtin b => b.info
  | .declared n => w.classes[n]?.getD Builtin.object.info

def name (w : World) (c : ClassRef) : String := (w.info c).name

def linearization (w : World) (c : ClassRef) : List ClassRef := (w.info c).linearization

def derives (w : World) (c target : ClassRef) : Bool := (w.linearization c).contains target

def ownMember? (w : World) (c : ClassRef) (name : String) : Option Member :=
  (w.info c).members.lookup name

def member? (w : World) (c : ClassRef) (name : String) : Option (ClassRef × Member) :=
  (w.linearization c).findSome? fun k => (w.ownMember? k name).map (k, ·)

def givesAttributes (w : World) (c : ClassRef) : Bool :=
  (w.linearization c).any fun k => (w.info k).layout.attributes

def metaclass (w : World) (c : ClassRef) : Builtin :=
  let line := w.linearization c
  if line.contains (.builtin .protocol) then .protocolMeta
  else if line.any (fun | .builtin b => b.isAbstract | _ => false) then .abstractMeta
  else if line.contains (.builtin .any) then .anyMeta
  else .type

def qualifiedName (w : World) (c : ClassRef) : String :=
  let info := w.info c
  match info.moduleName? with
  | some m => m ++ "." ++ info.qualifiedName
  | none => info.qualifiedName

def bind (w : World) (name : String) (h : Hint) : World :=
  { w with globals := (name, h) :: w.globals }

def setMember (w : World) (c : ClassRef) (name : String) (m : Member) : World :=
  match c with
  | .builtin _ => w
  | .declared n =>
    { w with classes := w.classes.modify n fun info =>
        { info with members := Entries.set info.members name m } }

end World
end Wiring
