import Wiring.Class.Basic

/-! The written forms of hints: in full, as an item between brackets, and by name. -/
namespace Wiring.Hint

def commaSeparated (items : List String) : String := ", ".intercalate items

def bracketed (items : List String) : String :=
  if items.isEmpty then "[()]" else "[" ++ commaSeparated items ++ "]"

def callableBrackets (params : List String) (result : String) : String :=
  "[[" ++ commaSeparated params ++ "], " ++ result ++ "]"

def listsParameters : List Hint → Bool
  | [.ellipsis, _] | [.list _, _] => false
  | _ => true

def head (w : World) (spelling : Spelling) (origin : ClassRef) : String :=
  match spelling, origin with
  | .typing, .builtin b => match b.typingName? with
    | some name => "typing." ++ name
    | .none => w.qualifiedName origin
  | _, _ => w.qualifiedName origin

def classText (w : World) : ClassRef → String
  | .builtin .any => "typing.Any"
  | c => "<class '" ++ w.qualifiedName c ++ "'>"

def itemForm (w : World) (h : Hint) (alone : String) : String :=
  match h with
  | .cls c => w.qualifiedName c
  | .ellipsis => "..."
  | _ => alone

mutual

def written (w : World) : Hint → String
  | .cls c => classText w c
  | .var _ name _ => "~" ++ name
  | .none => "None"
  | .ellipsis => "Ellipsis"
  | .text name => Text.quoted name
  | .forward name => "ForwardRef(" ++ Text.quoted name ++ ")"
  | .bare origin => "typing." ++ origin.typingName?.getD origin.name
  | .unionForm => "typing.Union"
  | .literal v => v.written
  | .qualifier _ name => "Qualifier(" ++ name.written ++ ")"
  | .list items => "[" ++ commaSeparated (writtenAll w items) ++ "]"
  | .alias spelling origin args =>
    let items := writtenItems w args
    let callable := match spelling, origin with
      | .callable, _ => true
      | .typing, .builtin .callable => true
      | _, _ => false
    if callable && listsParameters args then
      let head := if spelling = .callable then w.qualifiedName (.builtin .callable)
        else head w spelling origin
      head ++ callableBrackets items.dropLast (items.getLast?.getD "")
    else head w spelling origin ++ bracketed items
  | .union .bar members => " | ".intercalate (writtenMembers w members)
  | .union .typing members =>
    match members with
    | [.cls (.builtin .noneType), h] => "typing.Optional[" ++ itemForm w h (written w h) ++ "]"
    | [h, .cls (.builtin .noneType)] => "typing.Optional[" ++ itemForm w h (written w h) ++ "]"
    | members => "typing.Union" ++ bracketed (writtenItems w members)
  | .annotated inner metadata =>
    let items := itemForm w inner (written w inner) :: writtenAll w metadata
    "typing.Annotated[" ++ commaSeparated items ++ "]"
  | .value _ _ shown _ => shown

def writtenAll (w : World) : List Hint → List String
  | [] => []
  | h :: hs => written w h :: writtenAll w hs

def writtenItems (w : World) : List Hint → List String
  | [] => []
  | h :: hs => itemForm w h (written w h) :: writtenItems w hs

def writtenMembers (w : World) : List Hint → List String
  | [] => []
  | h :: hs =>
    (if h.isNoneType then "None" else itemForm w h (written w h)) :: writtenMembers w hs

end

/-- The name a hint goes by in messages: a class is known by its name, a parameterized class by the
name of the class, all else by its written form. -/
def name (w : World) : Hint → String
  | .cls c => w.name c
  | .var _ name _ => name
  | .bare origin => origin.typingName?.getD origin.name
  | .unionForm => "Union"
  | .alias .typing (.builtin b) _ => b.typingName?.getD b.name
  | .alias _ origin _ => w.name origin
  | .union .typing members =>
    if members.length == 2 && members.any isNoneType then "Optional" else "Union"
  | .annotated .. => "Annotated"
  | .value _ name _ true => name
  | h => h.written w

def qualifiedName? (w : World) : Hint → Option String
  | .cls c => some (w.info c).qualifiedName
  | .alias .plain origin _ | .alias .callable origin _ => some (w.info origin).qualifiedName
  | h@(.alias ..) | h@(.bare _) | h@.unionForm | h@(.union .typing _) | h@(.annotated ..) =>
    some (h.name w)
  | _ => .none

end Wiring.Hint
