import Wiring.Hint.Basic

/-! When two hints are the same type. Unions are compared as sets of members, however they are
spelled; a parameterized container written in brackets on the class differs from its second
spelling. -/
namespace Wiring

namespace Spelling

def comparable : Spelling → Spelling → Bool
  | .typing, .typing => true
  | .typing, _ | _, .typing => false
  | _, _ => true

end Spelling

namespace Hint

mutual

def same : Hint → Hint → Bool
  | .cls a, .cls b => a == b
  | .var a _ _, .var b _ _ => a == b
  | .none, .none => true
  | .ellipsis, .ellipsis => true
  | .text a, .text b => a == b
  | .forward a, .forward b => a == b
  | .bare a, .bare b => a == b
  | .unionForm, .unionForm => true
  | .literal a, .literal b => a.same b
  | .qualifier a _, .qualifier b _ => a == b
  | .list xs, .list ys => sameAll xs ys
  | .alias s a xs, .alias t b ys => s.comparable t && a == b && sameAll xs ys
  | .union _ xs, .union _ ys => coveredBy xs ys && ys.all (covers xs)
  | .annotated a xs, .annotated b ys => same a b && sameAll xs ys
  | .value a m _ _, .value b n _ _ => a == b && m == n
  | _, _ => false

def sameAll : List Hint → List Hint → Bool
  | [], [] => true
  | x :: xs, y :: ys => same x y && sameAll xs ys
  | _, _ => false

def coveredBy : List Hint → List Hint → Bool
  | [], _ => true
  | x :: xs, ys => ys.any (same x) && coveredBy xs ys

def covers : List Hint → Hint → Bool
  | [], _ => false
  | x :: xs, y => same x y || covers xs y

end

def dedup (hs : List Hint) : List Hint :=
  hs.foldl (fun kept h => if kept.any (·.same h) then kept else kept ++ [h]) []

end Hint
end Wiring
