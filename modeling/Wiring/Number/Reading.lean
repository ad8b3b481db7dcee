import Wiring.Number.Binary

/-! Numbers written by hand: digits may be grouped by underscores, and blanks around a number do not
count. -/
namespace Wiring

def withoutBlanks (cs : List Char) : List Char :=
  let front := cs.dropWhile Char.isWhitespace
  (front.reverse.dropWhile Char.isWhitespace).reverse

def groupedDigits? (cs : List Char) : Option (List Char) :=
  let digits := cs.filter (· != '_')
  let groups := cs.splitOn '_'
  if digits.all Char.isDigit && groups.all (!·.isEmpty) then some digits else none

def digitsValue (cs : List Char) : Nat :=
  cs.foldl (fun n c => 10 * n + (c.toNat - '0'.toNat)) 0

def signed : List Char → Bool × List Char
  | '-' :: cs => (true, cs)
  | '+' :: cs => (false, cs)
  | cs => (false, cs)

def wholeNumber? (s : String) : Option Int :=
  let (negative, cs) := signed (withoutBlanks s.toList)
  (groupedDigits? cs).map fun digits =>
    let n : Int := digitsValue digits
    if negative then -n else n

namespace Binary

def named? (negative : Bool) (s : String) : Option Binary :=
  if ["inf", "infinity"].contains s then some (infinite negative)
  else if s = "nan" then some undefined
  else none

def optionalDigits? (cs : List Char) : Option (List Char) :=
  if cs.isEmpty then some [] else groupedDigits? cs

def ofText? (s : String) : Option Binary := do
  let (negative, cs) := signed ((withoutBlanks s.toList).map Char.toLower)
  match named? negative (String.ofList cs) with
  | some x => return x
  | none =>
    let body := cs.takeWhile (· != 'e')
    let power ← match cs.drop body.length with
      | [] => some 0
      | _ :: power => wholeNumber? (String.ofList power)
    let whole := body.takeWhile (· != '.')
    let whole ← optionalDigits? whole
    let fraction ← optionalDigits? ((body.dropWhile (· != '.')).drop 1)
    if whole.isEmpty && fraction.isEmpty then none
    else return ofDecimal negative (digitsValue (whole ++ fraction)) (power - fraction.length)

end Binary
end Wiring
