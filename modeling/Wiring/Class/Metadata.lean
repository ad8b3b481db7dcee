import Wiring.Class.Declaration
import Wiring.Generic

/-! The injection points of a class: those its body declares and those it inherits. A member is
injected only through the first class of the linearization that holds its name, so a redefinition
without a marker takes a point away. Points of ancestors come first, and within one class fields
come before methods. -/
namespace Wiring

namespace Request

/-- What a parameter asks for, with the type variables of its class bound. A parameter with a
default, or one that may be empty, is not required. -/
def ofParameter (σ : Bindings) (p : Parameter) (type : Hint) :
    Except FormationFault Request := do
  let d := (← type.substitute σ).describe
  let default := p.default <|> if d.nullable then some .null else none
  return { type := d.element, cardinality := d.cardinality, qualifier := d.qualifier
           required := default.isNone, name := some p.name, default
           positionalOnly := p.kind = .positionalOnly }

/-- What a field asks for; the qualifier of its marker goes before that of its annotation. -/
def ofField (s : Settings) (σ : Bindings) (f : FieldDeclaration) :
    Except FormationFault Request := do
  let d := (← f.type.substitute σ).describe
  return { type := d.element, cardinality := d.cardinality
           qualifier := f.marker.qualifier? <|> d.qualifier
           required := s.requires f.marker && !d.nullable, name := some f.name }

end Request

namespace InjectionPoint

def ofField (s : Settings) (σ : Bindings) (owner : ClassRef) (f : FieldDeclaration) :
    Except FormationFault InjectionPoint := do
  return { kind := .field, name := f.name, declaredBy := owner
           requests := [← Request.ofField s σ f], required := s.requires f.marker }

/-- Every parameter of a marked method needs an annotation, and there is at least one. -/
def ofMethod (w : World) (s : Settings) (σ : Bindings) (owner : ClassRef)
    (m : MethodDeclaration) : Except Error InjectionPoint := do
  let title := (w.info owner).qualifiedName
  if m.parameters.isEmpty then .error (.unsupportedShape (.noParameters title m.name))
  let requests ← m.parameters.mapM fun p =>
    match p.type with
    | some h => (Request.ofParameter σ p h).mapError .ofFormation
    | none => .error (.unsupportedShape (.parameterNotAnnotated title m.name p.name))
  return { kind := .method, name := m.name, declaredBy := owner, requests
           required := s.requires m.marker }

end InjectionPoint

namespace World

def hierarchy (w : World) (c : ClassRef) : List ClassRef :=
  (w.linearization c).filter (· != .builtin .object)

def definingClass? (w : World) (c : ClassRef) (name : String) : Option ClassRef :=
  (w.hierarchy c).find? fun k => (w.ownMember? k name).isSome

def pointsOf (w : World) (s : Settings) (c : ClassRef) (own : Declarations) :
    Except Error (List InjectionPoint) := do
  let σ ← (w.bindingsFor (.cls c) own.owner).mapError .ofFormation
  let fields := own.fields.filter fun f => w.definingClass? c f.name == some own.owner
  let methods := own.methods.filter fun m => w.definingClass? c m.name == some own.owner
  let fieldPoints ← fields.mapM fun f =>
    (InjectionPoint.ofField s σ own.owner f).mapError .ofFormation
  let methodPoints ← methods.mapM (InjectionPoint.ofMethod w s σ own.owner)
  return fieldPoints ++ methodPoints

/-- All bodies of the hierarchy are read before the first point is made. -/
def metadata (w : World) (s : Settings) (c : ClassRef) : Except Error Metadata := do
  let declarations ← (w.hierarchy c).mapM (w.declarations s)
  let points ← declarations.mapM (w.pointsOf s c)
  return { target := c, points := points.reverse.flatten }

end World
end Wiring
