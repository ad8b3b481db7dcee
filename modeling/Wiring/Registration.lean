import Wiring.Container
import Wiring.Hint.Evaluation

/-! Registering components. What a registration leaves open is read off the component: its class,
the priority it gives itself or its class gives it, and whether its class is primary. -/
namespace Wiring

def providedName (name : String) : String :=
  if name.startsWith "make_" then String.ofList (name.toList.drop 5) else name

/-- The annotations that a call of the hint shows: those of the class behind a plain alias, looked
up where nothing is declared. -/
def Hint.ownAnnotations? (w : World) : Hint → Option (Entries Hint)
  | .alias .plain (.declared n) _ => some (w.info (.declared n)).annotations
  | .alias .plain (.builtin b) _ | .alias .callable (.builtin b) _ =>
    if b.isAbstract then some [] else Option.none
  | _ => Option.none

namespace Provider

def name? (w : World) : Provider → Option String
  | cls c => some (w.name c)
  | form (.var _ name _) => some name
  | form h => (h.qualifiedName? w).map fun _ => h.name w
  | function f => some f.name

def resultOf (scope : Scope) (title : String) (annotations : Entries Hint) : Except Error Hint := do
  let evaluated : Except LookupFault (Entries Hint) := annotations.mapM fun (name, h) => do
    return (name, ← h.evaluateParameter scope)
  let found ← evaluated.mapError Error.ofLookup
  match found.lookup "return" with
  | some h => return h
  | none => throw (.noReturnType title)

/-- The type a provider declares: the class itself, or the result of a call. -/
def declaredType (w : World) : Provider → Except Error Hint
  | cls c => .ok (.cls c)
  | form h =>
    match h.ownAnnotations? w with
    | some annotations => resultOf (Scope.everywhere w) (h.name w) annotations
    | none => .error (.badType (.notCallable h.kind.name))
  | function f =>
    resultOf (Scope.global w) f.name (f.returns.toList.map fun h => ("return", h))

end Provider

def orderMethod : String := "get_order"

namespace Run

def presents (v : Value) (method : String) : Run Bool := do
  match ← readOptional perform v method with
  | none => return false
  | some _ =>
    match ← readOptional perform v method with
    | some (.data .null) => return false
    | _ => return true

def isOrdered (v : Value) : Run Bool := do
  let st ← get
  match st.world.subclass? (st.classOf v) (.builtin .ordered) with
  | .ok true => return true
  | _ => presents v orderMethod

/-- The priority of a component: its own, if it decides on one, else that of its class. A class
does not decide for itself. -/
def priorityOf (v : Value) : Run (Option Int) := do
  let fixed := (← get).world.fixedPriority? (.cls ((← get).classOf v))
  if (← isOrdered v) && !v.isClass then
    match ← callAttribute perform v orderMethod {} with
    | .data (.int n) => return some n
    | _ => return none
  else return fixed

def addEntry (registry name : String) (type : Hint) (o : Registration) : Run Candidate := do
  let (c, r) ← lift (((← get).registry registry).add name type o)
  modify fun st => st.setRegistry registry r
  return c

def register (registry name : String) (v : Value) (o : Registration) : Run Candidate := do
  let priority ← match o.priority with
    | some n => pure (some n)
    | none => priorityOf v
  let st ← get
  let cls := st.classOf v
  let primary := o.primary || st.world.isPrimary (.cls cls)
  let c ← addEntry registry name (o.declaredType.getD (.cls cls)) { o with priority, primary }
  modifyRegistry registry (·.keep name v)
  return c

/-- Registers a component that is built on first use. Priority and primary are those of the class
behind the declared type. -/
def registerProvider (registry name : String) (p : Provider) (o : Registration) :
    Run Candidate := do
  let w := (← get).world
  let type ← match o.declaredType with
    | some h => pure h
    | none => lift (p.declaredType w)
  let priority := o.priority <|> w.fixedPriority? type.raw
  let primary := o.primary || w.isPrimary type.raw
  let c ← addEntry registry name type { o with priority, primary }
  modifyRegistry registry (·.provide name p)
  return c

def provide (registry : String) (name : Option String) (p : Provider) (o : Registration) :
    Run Candidate := do
  match name.filter (!·.isEmpty), p.name? (← get).world with
  | some name, _ => registerProvider registry name p o
  | none, some own => registerProvider registry (providedName own) p o
  | none, none => badAttribute (.missing "object" "__name__")

def registerResolvable (registry : String) (type : Hint) (v : Value) : Run Unit := do
  let st ← get
  match type.qualifiedName? st.world with
  | some title => modifyRegistry registry (·.addResolvable title type (st.classOf v) v)
  | none => badAttribute (.missing (type.name st.world) "__qualname__")

end Run
end Wiring
