import Wiring.Class.Standard
import Wiring.Hint.Formation
import Wiring.Text.Compatible

/-! Looking up the names in a hint. A name is looked up where it was written: the annotations of a
method see the class the method stands in, the annotations of a class body see its own members.
The first name that is unknown is the error. -/
namespace Wiring

abbrev Scope := String → Option Hint

inductive LookupFault where
  | unknown (name : String)
  | formation (fault : FormationFault)
deriving DecidableEq, Repr

namespace Scope

def constant? : String → Option Hint
  | "None" => some .none
  | "True" | "__debug__" => some (.literal (.bool true))
  | "False" => some (.literal (.bool false))
  | _ => none

def everywhere (w : World) : Scope := fun name =>
  match w.everywhereClass? name with
  | some c => some (.cls c)
  | none =>
    if name = "Ellipsis" then some .ellipsis
    else if name = "NotImplemented" then some (.value 0 name name false)
    else if everywhereFunctions.contains name then
      some (.value 0 name ("<built-in function " ++ name ++ ">") true)
    else none

def ofModule (w : World) : Scope := fun name =>
  if name = "__name__" then some (.text w.moduleName)
  else if ["__doc__", "__loader__", "__package__", "__spec__"].contains name then some .none
  else none

def global (w : World) : Scope := fun name =>
  w.globals.lookup name <|> ofModule w name <|> everywhere w name

def find (scope : Scope) (name : String) : Option Hint :=
  let name := Text.plainSpelling name
  constant? name <|> scope name

end Scope

namespace Hint

def formed : Except FormationFault Hint → Except LookupFault Hint :=
  Except.mapError .formation

mutual

/-- Replaces every name in the arguments of a hint. A container whose arguments change is written
plainly afterwards, unions and annotations are built anew, and all else is kept. -/
def evaluate (scope : Scope) : Hint → Except LookupFault Hint
  | .forward name | .text name =>
    match scope.find name with
    | some (.text other) =>
      match scope.find other with
      | some h => .ok h.argument
      | .none => .error (.unknown other)
    | some h => .ok h.argument
    | .none => .error (.unknown name)
  | .alias spelling origin args => do
    let found ← evaluateAll scope args
    if sameAll found args then return .alias spelling origin args
    else return .alias (if spelling = .typing then .typing else .plain) origin found
  | .union spelling members => do
    let found ← evaluateAll scope members
    if sameAll found members then return .union spelling members
    else formed (match spelling with
      | .typing => unionOf found
      | .bar => barAll found)
  | .annotated inner metadata => do
    let found ← evaluate scope inner
    if found.same inner then return .annotated inner metadata
    else formed (annotate found metadata)
  | h => .ok h

def evaluateAll (scope : Scope) : List Hint → Except LookupFault (List Hint)
  | [] => .ok []
  | h :: hs => do return (← evaluate scope h) :: (← evaluateAll scope hs)

end

/-- An annotation of a function: an empty one stands for its class. -/
def evaluateParameter (scope : Scope) (h : Hint) : Except LookupFault Hint :=
  match h with
  | .none => .ok noneType
  | h => h.evaluate scope

/-- An annotation in a class body: only a name that stands alone is looked up, and what it names is
taken as it is. -/
def evaluateField (scope : Scope) (h : Hint) : Except LookupFault Hint :=
  match h with
  | .text name =>
    match scope.find name with
    | some found => .ok found
    | .none => .error (.unknown name)
  | h => .ok h

def ofMember (w : World) (owner : Nat) (name : String) : Member → Hint
  | .value .null => .none
  | .value (.text s) => .text s
  | .value v => .literal v
  | .marker m => .value owner name m.written false
  | .slot => placed "member"
  | .native _ => placed "attribute"
  | _ => .value owner name name false
where
  placed (kind : String) : Hint :=
    .value owner name ("<" ++ kind ++ " " ++ Text.quoted name ++ " of " ++
      Text.quoted (w.name (.declared owner)) ++ " objects>") true

end Hint

namespace World

def methodScope (w : World) (owner : ClassRef) : Scope := fun name =>
  if name = w.name owner then some (.cls owner) else Scope.global w name

def fieldScope (w : World) (owner : ClassRef) : Scope := fun name =>
  match owner, w.ownMember? owner name with
  | .declared n, some m => some (.ofMember w n name m)
  | _, _ => Scope.global w name

end World
end Wiring
