import Wiring.Number.Binary

/-! The decimal text of a number in binary floating point: the fewest digits that read back as the
number, and of those the digits nearest to it. Texts are positional from `0.0001` to below
`10 ^ 16`, and have an exponent of at least two digits outside. -/
namespace Wiring

structure Decimal where
  digits : Nat
  power : Int
deriving DecidableEq, Repr, Inhabited

/-- Places before the point: a quotient with `p` of them is below `10 ^ p`, and at least
`10 ^ (p - 1)`. -/
def places (num den : Nat) : Int :=
  let count (n : Nat) : Int := (Nat.toDigits 10 n).length
  if den ≤ num then count (num / den) else 1 - count ((den - 1) / num)

namespace Decimal

def readsBack (num den : Nat) (d : Decimal) : Bool :=
  Binary.ofDecimal false d.digits d.power == Binary.nearest false num den

/-- The decimal of the given length nearest to the quotient that reads back; a tie goes to the even
one. -/
def ofLength? (num den : Nat) (length : Nat) : Option Decimal :=
  let power := places num den - length
  let (n, d) := dividedByPower 10 num den power
  let below : Decimal := ⟨n / d, power⟩
  let above : Decimal := ⟨n / d + 1, power⟩
  let first := if nearestQuotient n d = n / d then below else above
  let second := if nearestQuotient n d = n / d then above else below
  [first, second].find? (·.readsBack num den)

def shortest? (num den : Nat) : Option Decimal :=
  (List.range 17).findSome? fun n => ofLength? num den (n + 1)

theorem readsBack_of_ofLength? {num den length : Nat} {d : Decimal}
    (h : ofLength? num den length = some d) : d.readsBack num den := by
  unfold ofLength? at h
  exact List.find?_some h

theorem readsBack_of_shortest? {num den : Nat} {d : Decimal} (h : shortest? num den = some d) :
    d.readsBack num den := by
  obtain ⟨n, _, found⟩ := List.exists_of_findSome?_eq_some h
  exact readsBack_of_ofLength? found

def significant (d : Decimal) : List Char :=
  ((Nat.toDigits 10 d.digits).reverse.dropWhile (· == '0')).reverse

def point (d : Decimal) : Int := (Nat.toDigits 10 d.digits).length + d.power

def positional (digits : List Char) (point : Int) : String :=
  let whole := digits.take point.toNat
  let fraction := List.replicate (-point).toNat '0' ++ digits.drop point.toNat
  let whole := whole ++ List.replicate (point.toNat - whole.length) '0'
  String.ofList ((if whole.isEmpty then ['0'] else whole) ++ '.' ::
    (if fraction.isEmpty then ['0'] else fraction))

def scientific (digits : List Char) (exponent : Int) : String :=
  let fraction := digits.drop 1
  let power := Nat.toDigits 10 exponent.natAbs
  String.ofList (digits.take 1 ++ (if fraction.isEmpty then [] else '.' :: fraction) ++
    'e' :: (if exponent < 0 then '-' else '+') ::
      (List.replicate (2 - power.length) '0' ++ power))

def written (d : Decimal) : String :=
  if -4 < d.point && d.point ≤ 16 then positional d.significant d.point
  else scientific d.significant (d.point - 1)

end Decimal

namespace Binary

def signed (negative : Bool) (text : String) : String := if negative then "-" ++ text else text

def written : Binary → String
  | finite negative significand exponent =>
    if significand = 0 then signed negative "0.0"
    else
      let (num, den) := dividedByPower 2 significand 1 (-exponent)
      let exact : Decimal := ⟨num, 0⟩
      signed negative ((Decimal.shortest? num den).getD exact).written
  | infinite negative => signed negative "inf"
  | undefined => "nan"

end Binary
end Wiring
