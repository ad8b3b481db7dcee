import Wiring.Class.Linearization
import Wiring.Class.Application
import Wiring.Class.Layout

/-! Declaring classes: from what stands in a class body to a class with bases, linearization,
parameters and members. -/
namespace Wiring

inductive MethodKind where
  | ordinary
  /-- Called on the class; it makes an object of its own. -/
  | ofClass
  | static
deriving DecidableEq, Repr, Inhabited

structure FieldDefinition where
  name : String
  type : Option Hint := none
  marker : Marker
deriving Repr, Inhabited

structure MethodDefinition where
  name : String
  kind : MethodKind := .ordinary
  parameters : List Parameter := []
  markers : List Marker := []
  constructs : Bool := false
  actions : List Action := []
deriving Repr, Inhabited

inductive OrderDefinition where
  | priority (n : Option Int)
  | failure (message : String)
deriving Repr, Inhabited

structure ClassDefinition where
  name : String
  qualifiedName : Option String := none
  bases : List Hint := []
  slots : Option (List String) := none
  annotations : List (String × Hint) := []
  fields : List FieldDefinition := []
  values : List (String × Literal) := []
  properties : List Property := []
  methods : List MethodDefinition := []
  order : Option OrderDefinition := none
  /-- A fixed priority for all instances. -/
  priority : Option (Option Int) := none
  /-- Wins ties between candidates. -/
  primary : Bool := false
  checkable : Bool := false
  /-- Unknown to forward references. -/
  isLocal : Bool := false
deriving Repr, Inhabited

def priorityMember : String := "__autowire_order__"

def primaryMember : String := "__autowire_primary__"

/-- Names with two leading underscores and not two trailing ones belong to their class. -/
def privateName (className name : String) : String :=
  let bare := className.toList.dropWhile (· == '_')
  if name.startsWith "__" && !name.endsWith "__" && !bare.isEmpty then
    "_" ++ String.ofList bare ++ name
  else name

namespace ClassDefinition

def isTyping : Hint → Bool
  | .alias .typing .. | .bare _ => true
  | _ => false

def resolveBase (w : World) (all later : List Hint) (base : Hint) : List ClassRef :=
  let named (origin : Builtin) : List ClassRef :=
    let covered := later.any fun b => isTyping b ||
      match b with
      | .cls c | .alias _ c _ => w.derives c (.builtin .generic)
      | _ => false
    let own := if all.any (·.same (.cls (.builtin origin))) then [] else [.builtin origin]
    own ++ if covered then [] else [.builtin .generic]
  match base with
  | .cls c => [c]
  | .bare origin => named origin
  | .alias .typing (.builtin .generic) _ =>
    if all.any (·.same (.cls (.builtin .protocol))) || later.any isTyping then []
    else [.builtin .generic]
  | .alias .typing (.builtin b) _ => if b.typingName?.isSome then named b else [.builtin b]
  | .alias _ origin _ => [origin]
  | _ => []

def resolveBases (w : World) (all : List Hint) : List Hint → List ClassRef
  | [] => []
  | base :: later => resolveBase w all later base ++ resolveBases w all later

def baseClasses (d : ClassDefinition) (w : World) : List ClassRef :=
  match resolveBases w d.bases d.bases with
  | [] => [.builtin .object]
  | bases => bases

/-- The parameters that written bases give a generic class: those of the generic form, else all
variables in order of appearance. -/
def parametersOf (bases : List Hint) : List Hint :=
  match bases.find? (fun | .alias .typing (.builtin .generic) _ => true | _ => false) with
  | some form => form.parameters
  | none => Hint.argumentParameters bases

def named (m : Marker) (name : String) : Marker := m.set "attribute_name" (.text name)

def subject : MethodKind → Subject
  | .ordinary => .receiver
  | .ofClass => .newObject
  | .static => .nothing

def function (d : ClassDefinition) (m : MethodDefinition) : Function where
  name := privateName d.name m.name
  owner := d.name
  subject := subject m.kind
  parameters := m.parameters
  markers := m.markers
  constructs := m.constructs
  body := .steps m.actions

def method (d : ClassDefinition) (m : MethodDefinition) : Member :=
  let f := d.function m
  match m.kind with
  | .ordinary =>
    if m.name = "__new__" then .staticMethod f
    else if ["__init_subclass__", "__class_getitem__"].contains m.name then .classMethod f
    else .method f
  | .ofClass => .classMethod f
  | .static => .staticMethod f

def writtenMembers (d : ClassDefinition) : List (String × Member) :=
  d.fields.map (fun f => (f.name, .marker (named f.marker (privateName d.name f.name)))) ++
  d.values.map (fun (name, v) => (name, .value v)) ++
  d.properties.map (fun p => (p.name, .property { p with name := privateName d.name p.name })) ++
  d.methods.map (fun m => (m.name, d.method m)) ++
  match d.order with
  | some (.priority n) =>
    [("get_order", .method { name := "get_order", owner := d.name, body := .order n })]
  | some (.failure text) =>
    [("get_order", .method { name := "get_order", owner := d.name, body := .orderFailure text })]
  | none => []

def priorityLiteral : Option Int → Literal
  | some n => .int n
  | none => .null

def accessNames : List String := ["__dict__", "__weakref__"]

def slotNames (d : ClassDefinition) : List String := (d.slots.getD []).map (privateName d.name)

/-- The members of the body. Defining equality switches hashing off. -/
def members (d : ClassDefinition) : Namespace :=
  let body := Entries.ofList
    (d.writtenMembers.map fun (name, m) => (privateName d.name name, m))
  let hashing :=
    if (body.lookup "__eq__").isSome && (body.lookup "__hash__").isNone then
      [("__hash__", .value .null)]
    else []
  (d.slotNames.filter (!accessNames.contains ·)).foldl (fun ns name => Entries.set ns name .slot)
    (body ++ hashing)

def decorate (d : ClassDefinition) (ns : Namespace) : Namespace :=
  let ns := match d.priority with
    | some n => Entries.set ns priorityMember (.value (priorityLiteral n))
    | none => ns
  if d.primary then Entries.set ns primaryMember (.value (.bool true)) else ns

def allAnnotations (d : ClassDefinition) : Entries Hint :=
  let written := d.annotations ++ d.fields.filterMap fun f => f.type.map (f.name, ·)
  Entries.ofList (written.map fun (name, h) => (privateName d.name name, h))

def linearize (bases : List ClassRef) (w : World) (self : ClassRef) : Option (List ClassRef) :=
  (Linearization.merge (bases.map w.linearization ++ [bases])).map (self :: ·)

end ClassDefinition

namespace World

/-- A structural class without an initialiser gets one that hands over to the first real one. -/
def handOver (w : World) (bases : List ClassRef) (line : List ClassRef) (d : ClassDefinition)
    (ns : Namespace) : Namespace :=
  let inherited := line.tail.find? fun k => (w.ownMember? k "__init__").isSome
  if bases.contains (.builtin .protocol) && (ns.lookup "__init__").isNone &&
      inherited == some (.builtin .object) then
    ns ++ [("__init__", .method { name := "__init__", owner := d.name, body := .handOver })]
  else ns

/-- What the body of a class adds to the layout of its main base. Without a list of attributes
objects get whatever is missing; with one only what is listed, or what a further base has. -/
def layoutOf (w : World) (main : ClassRef) (bases : List ClassRef) (d : ClassDefinition) :
    Layout :=
  let others := bases.filter (· != main)
  let adds (name : String) (has : ClassRef → Bool) : Bool :=
    d.slots.isNone || d.slotNames.contains name || others.any has
  { attributes := !w.givesAttributes main && adds "__dict__" w.givesAttributes
    weakReference := !w.givesWeakReference main && !w.hasItems main &&
      adds "__weakref__" w.givesWeakReference
    places := (d.slotNames.filter (!ClassDefinition.accessNames.contains ·)).mergeSort
      fun a b => decide (a ≤ b) }

def impliedMembers (w : World) (d : ClassDefinition) (info : ClassInfo) : Namespace :=
  let within (b : Builtin) : Bool := info.linearization.contains (.builtin b)
  let abstract : Bool := info.linearization.any fun
    | .builtin b => b.isAbstract || b == .protocol
    | _ => false
  Builtin.given w.moduleName .null ++ Builtin.access info.layout ++
    (if d.slots.isSome then [("__slots__", .hints ((d.slots.getD []).map .text))] else []) ++
    (if info.annotations.isEmpty then []
     else [("__annotations__", .annotations info.annotations)]) ++
    (info.writtenBases.toList.map fun bases => ("__orig_bases__", .hints bases)) ++
    (if within .generic then [("__parameters__", .hints info.parameters)] else []) ++
    (if within .protocol then Builtin.structuralParts info.structural else []) ++
    (if abstract then Builtin.abstractParts else []) ++
    if d.checkable && info.structural then [("_is_runtime_protocol", .value (.bool true))] else []

def isStructural (bases line : List ClassRef) (ns : Namespace) : Bool :=
  bases.contains (.builtin .protocol) ||
    (line.contains (.builtin .generic) &&
      match ns.lookup "_is_protocol" with
      | some (.value v) => v.truthy
      | some _ => true
      | none => false)

def declare? (w : World) (d : ClassDefinition) : Option World :=
  let self := ClassRef.declared w.classes.length
  let bases := d.baseClasses w
  match ClassDefinition.linearize bases w self with
  | none => none
  | some line =>
    let written := d.bases.any fun | .cls _ => false | _ => true
    let generic := line.contains (.builtin .generic)
    let main := w.mainBaseOf bases
    let body := d.decorate (w.handOver bases line d d.members)
    let info : ClassInfo := {
      name := d.name
      qualifiedName := d.qualifiedName.getD d.name
      moduleName? := some w.moduleName
      bases
      mainBase := main
      layout := w.layoutOf main bases d
      writtenBases := if written then some d.bases else none
      parameters :=
        if generic && written then ClassDefinition.parametersOf d.bases else []
      linearization := line
      annotations := d.allAnnotations
      structural := isStructural bases line body
      checkable := d.checkable
      slots := d.slotNames }
    let implied := (w.impliedMembers d info).filter fun (name, _) => (body.lookup name).isNone
    let w := { w with classes := w.classes ++ [{ info with members := body ++ implied }] }
    some (if d.isLocal then w else w.bind d.name (.cls self))

end World
end Wiring
