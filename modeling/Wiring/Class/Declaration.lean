import Wiring.Error

/-! What a class body declares for injection, and the ways a class can be constructed. Only the
body itself counts for fields and methods; constructors are inherited. -/
namespace Wiring

structure FieldDeclaration where
  name : String
  type : Hint
  marker : Marker
deriving Repr, Inhabited

structure MethodDeclaration where
  name : String
  parameters : List Parameter
  marker : Marker
deriving Repr, Inhabited

structure Declarations where
  owner : ClassRef
  /-- Marked fields, in the order of the body. -/
  fields : List FieldDeclaration := []
  /-- Marked methods, in the order of the body. -/
  methods : List MethodDeclaration := []
  /-- The names of all members, marked or not. -/
  members : List String := []
deriving Repr, Inhabited

structure ConstructorDeclaration where
  name : String
  owner : ClassRef
  parameters : List Parameter := []
  marker : Option Marker := none
deriving Repr, Inhabited

namespace Parameter

def isVariadic (p : Parameter) : Bool := p.kind = .variadic || p.kind = .variadicNamed

def evaluate (scope : Scope) (p : Parameter) : Except Error Parameter :=
  match p.type with
  | none => .ok p
  | some h =>
    match h.evaluateParameter scope with
    | .ok found => .ok { p with type := some found }
    | .error fault => .error (.ofLookup fault)

end Parameter

namespace World

/-- The parameters of a function that can be injected. The annotations of all parameters must be
known, those of variadic ones too. A function shows the parameters it is called with; one that
presents the signature of another, as a wrapper can, is not modelled. -/
def parametersOf (w : World) (owner : ClassRef) (f : Function) : Except Error (List Parameter) :=
  (·.filter (!·.isVariadic)) <$> f.parameters.mapM (·.evaluate (w.methodScope owner))

def annotationsOf (w : World) (c : ClassRef) : Except Error (List (String × Hint)) :=
  (w.info c).annotations.mapM fun (name, h) =>
    match h.evaluateField (w.fieldScope c) with
    | .ok found => .ok (name, found)
    | .error fault => .error (.ofLookup fault)

def markedFields (w : World) (s : Settings) (c : ClassRef) : List (String × Marker) :=
  (w.info c).members.filterMap fun
    | (name, .marker m) => if s.recognises m then some (name, m) else none
    | _ => none

/-- Annotations are looked up only if there is a marked field, and then all of them. -/
def declaredFields (w : World) (s : Settings) (c : ClassRef) :
    Except Error (List FieldDeclaration) := do
  let marked := w.markedFields s c
  if marked.isEmpty then return []
  let annotations ← w.annotationsOf c
  marked.mapM fun (name, marker) =>
    match annotations.lookup name with
    | some type => .ok { name, type, marker }
    | none => .error (.unsupportedShape (.fieldNotAnnotated (w.info c).qualifiedName name))

def declaredMethod (w : World) (s : Settings) (c : ClassRef) :
    String × Member → Except Error (Option MethodDeclaration)
  | (name, .staticMethod f) =>
    if (s.find? f.markers).isSome then
      .error (.unsupportedShape (.staticMethod (w.info c).qualifiedName name))
    else .ok none
  | (name, .method f) =>
    if name = Constructor.initializer then .ok none
    else
      match s.find? f.markers with
      | none => .ok none
      | some marker => do return some { name, parameters := ← w.parametersOf c f, marker }
  | _ => .ok none

def declaredMethods (w : World) (s : Settings) (c : ClassRef) :
    Except Error (List MethodDeclaration) :=
  (·.filterMap id) <$> (w.info c).members.mapM (w.declaredMethod s c)

/-- Fails if a marked field has no annotation, a static method is marked, or a name in an
annotation is unknown. -/
def declarations (w : World) (s : Settings) (c : ClassRef) : Except Error Declarations := do
  let fields ← w.declaredFields s c
  let methods ← w.declaredMethods s c
  return { owner := c, fields, methods, members := (w.info c).members.names }

/-- The initialiser of a class: the first in its linearization. Those that no class body declares
take no arguments. -/
def declaredInitializer (w : World) (s : Settings) (c : ClassRef) :
    Except Error ConstructorDeclaration :=
  let name := Constructor.initializer
  match w.member? c name with
  | some (owner, .method f) =>
    match f.body with
    | .handOver => .ok { name, owner }
    | _ => do
      return { name, owner, parameters := ← w.parametersOf owner f, marker := s.find? f.markers }
  | some (owner, _) => .ok { name, owner }
  | none => .ok { name, owner := .builtin .object }

/-- The class methods that a class can be constructed with: those declared as constructors and the
marked ones. The first member of a name in the linearization hides the others. -/
def alternateConstructors (w : World) (s : Settings) (c : ClassRef) :
    List (ClassRef × String × Function) :=
  let held := (w.linearization c).flatMap fun k => (w.info k).members.map (k, ·)
  held.filterMap fun
    | (k, name, .classMethod f) =>
      if (w.member? c name).any (·.1 == k) && (f.constructs || (s.find? f.markers).isSome) then
        some (k, name, f)
      else none
    | _ => none

def constructorDeclarations (w : World) (s : Settings) (c : ClassRef) :
    Except Error (List ConstructorDeclaration) := do
  let first ← w.declaredInitializer s c
  let others ← (w.alternateConstructors s c).mapM fun (owner, name, f) => do
    return { name, owner, parameters := ← w.parametersOf owner f
             marker := s.find? f.markers : ConstructorDeclaration }
  return first :: others

end World
end Wiring
