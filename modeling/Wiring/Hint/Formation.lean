import Wiring.Hint.Equality

/-! Building hints from hints: unions, optional and annotated hints. The results are flat: a union
is no member of a union, and annotations of an annotated hint are collected in one list. Not
everything that can stand in a hint is a type, so building one can fail. -/
namespace Wiring

inductive FormationFault where
  /-- A form that types are made with stands where a type is wanted. -/
  | notAType
  | noMembers
  /-- A parameter list, or other data that can change, as a member of a union. -/
  | unhashable
  | noMetadata
  /-- Data of the kind belongs to no module, as what is annotated has to. -/
  | noModule (kind : String)
  /-- Neither side of a bar can be joined to the other. -/
  | notJoinable
  /-- A generic form takes distinct type variables. -/
  | notVariables
  /-- A callable takes a parameter list and a result. -/
  | noParameterList
  | takesNoArguments
  | wrongCount (given expected : Nat)
deriving DecidableEq, Repr

namespace FormationFault

def message : FormationFault → String
  | notAType => "Plain form is not valid as type argument"
  | noMembers => "Cannot take a Union of no types."
  | unhashable => "unhashable type: 'list'"
  | noMetadata => "Annotated[...] should be used with at least two arguments"
  | noModule kind => "'" ++ kind ++ "' object has no attribute '__module__'"
  | notJoinable => "unsupported operand type(s) for |"
  | notVariables => "Parameters to Generic[...] must all be type variables"
  | noParameterList => "Callable must be used as Callable[[arg, ...], result]."
  | takesNoArguments => "not a generic class"
  | wrongCount given expected =>
    "wrong number of arguments; actual " ++ toString given ++ ", expected " ++ toString expected

end FormationFault

namespace Hint

/-- A hint as an argument: an empty one stands for its class, a name for a forward reference. -/
def argument : Hint → Hint
  | .none => noneType
  | .text name => .forward name
  | h => h

def isGenericForm : ClassRef → Bool
  | .builtin .generic | .builtin .protocol => true
  | _ => false

def typeArgument : Hint → Except FormationFault Hint
  | .unionForm => .error .notAType
  | h@(.cls c) | h@(.alias .typing c _) => if isGenericForm c then .error .notAType else .ok h
  | h => .ok h.argument

mutual

def isHashable : Hint → Bool
  | .list _ => false
  | .literal v => v.isHashable
  | .alias _ _ args => areHashable args
  | .union _ members => areHashable members
  | .annotated inner metadata => inner.isHashable && areHashable metadata
  | _ => true

def areHashable : List Hint → Bool
  | [] => true
  | h :: hs => h.isHashable && areHashable hs

end

def unionMembers : Hint → List Hint
  | .union _ members => members
  | h => [h]

def ofMembers (spelling : UnionSpelling) (members : List Hint) : Hint :=
  match dedup members with
  | [h] => h
  | members => .union spelling members

/-- A union in typing spelling. Annotations that cannot be hashed are refused, as up to release
3.11.7 of the runtime. -/
def unionOf (hs : List Hint) : Except FormationFault Hint := do
  if hs.isEmpty then throw .noMembers
  let members := (← hs.mapM typeArgument).flatMap unionMembers
  if areHashable members then return ofMembers .typing members else throw .unhashable

def optional (h : Hint) : Except FormationFault Hint := unionOf [h, noneType]

def joinsByBar : Hint → Bool
  | .none | .cls _ | .alias .plain .. | .alias .callable .. | .union .bar _ => true
  | _ => false

def joinsAnything : Hint → Bool
  | .var .. | .forward _ | .bare _ | .unionForm | .alias .typing .. | .union .typing _
  | .annotated .. => true
  | _ => false

/-- `a | b`: in bar spelling if both sides allow it, else in typing spelling if one side does. -/
def bar (a b : Hint) : Except FormationFault Hint :=
  if a.joinsByBar && b.joinsByBar then
    if a.isNone && b.isNone then .error .notJoinable
    else .ok (ofMembers .bar (([a, b].map argument).flatMap unionMembers))
  else if a.joinsAnything || b.joinsAnything then unionOf [a, b]
  else .error .notJoinable

def barAll : List Hint → Except FormationFault Hint
  | [] => .error .noMembers
  | h :: hs => hs.foldlM bar h

def annotate (h : Hint) (metadata : List Hint) : Except FormationFault Hint := do
  if metadata.isEmpty then throw .noMetadata
  match ← h.typeArgument with
  | .annotated inner own => return .annotated inner (own ++ metadata)
  | .list _ => throw (.noModule "list")
  | .ellipsis => throw (.noModule "ellipsis")
  | h => return .annotated h metadata

def variableOf (id : Nat) (name : String) (bound : Option Hint) : Except FormationFault Hint := do
  return .var id name (← bound.mapM typeArgument)

def callableOf (spelling : Spelling) (origin : ClassRef) :
    List Hint → Except FormationFault Hint
  | [.list params, result] => .ok (.alias spelling origin (params ++ [result]))
  | [.ellipsis, result] => .ok (.alias spelling origin [.ellipsis, result])
  | _ => .error .noParameterList

end Hint
end Wiring
