import Wiring.Number.Shortest
import Wiring.Text.Quoted

/-! Plain data written in a class body or passed from outside: defaults, marker attributes,
explicit values. Equality is the equality of data: a truth value counts as the number 0 or 1, and a
dictionary does not remember the order of its keys. -/
namespace Wiring

inductive Literal where
  | null
  | bool (b : Bool)
  | int (n : Int)
  | float (x : Binary)
  | text (s : String)
  | list (items : List Literal)
  | dict (entries : List (String × Literal))
deriving Repr, Inhabited

namespace Literal

def number? : Literal → Option Binary
  | .bool b => some (.ofInt (if b then 1 else 0))
  | .int n => some (.ofInt n)
  | .float x => some x
  | _ => none

mutual

def same : Literal → Literal → Bool
  | .null, .null => true
  | .text s, .text t => s == t
  | .list xs, .list ys => sameItems xs ys
  | .dict xs, .dict ys => xs.length == ys.length && sameEntries xs ys
  | a, b =>
    match a.number?, b.number? with
    | some x, some y => x.same y
    | _, _ => false

def sameItems : List Literal → List Literal → Bool
  | [], [] => true
  | x :: xs, y :: ys => same x y && sameItems xs ys
  | _, _ => false

def sameEntries : List (String × Literal) → List (String × Literal) → Bool
  | [], _ => true
  | (key, x) :: xs, ys => (ys.lookup key).any (same x) && sameEntries xs ys

end

def truthy : Literal → Bool
  | .null => false
  | .bool b => b
  | .int n => n != 0
  | .float x => !x.isZero
  | .text s => !s.isEmpty
  | .list xs => !xs.isEmpty
  | .dict xs => !xs.isEmpty

def isHashable : Literal → Bool
  | .list _ | .dict _ => false
  | _ => true

mutual

def written : Literal → String
  | .null => "None"
  | .bool b => if b then "True" else "False"
  | .int n => toString n
  | .float x => x.written
  | .text s => Text.quoted s
  | .list items => "[" ++ ", ".intercalate (writtenItems items) ++ "]"
  | .dict entries => "\x7b" ++ ", ".intercalate (writtenEntries entries) ++ "\x7d"

def writtenItems : List Literal → List String
  | [] => []
  | x :: xs => x.written :: writtenItems xs

def writtenEntries : List (String × Literal) → List String
  | [] => []
  | (key, x) :: xs => (Text.quoted key ++ ": " ++ x.written) :: writtenEntries xs

end

def shown : Literal → String
  | .text s => s
  | v => v.written

end Literal
end Wiring
