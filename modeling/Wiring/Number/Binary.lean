/-! Numbers in binary floating point. A finite number is a whole number of units `2 ^ exponent`.
What is read from a decimal text is rounded to 53 binary digits: to the nearest number, a half to
the even one. -/
namespace Wiring

inductive Binary where
  /-- The number `significand · 2 ^ exponent`, with its sign; zero has a sign too. -/
  | finite (negative : Bool) (significand : Nat) (exponent : Int)
  | infinite (negative : Bool)
  | undefined
deriving DecidableEq, Repr, Inhabited

/-- The whole number nearest to a quotient, a half going to the even one. -/
def nearestQuotient (num den : Nat) : Nat :=
  let below := num / den
  let twice := 2 * (num % den)
  if twice < den || (twice == den && below % 2 == 0) then below else below + 1

theorem nearestQuotient_near (num : Nat) {den : Nat} (h : 0 < den) :
    2 * num ≤ 2 * den * nearestQuotient num den + den ∧
      2 * den * nearestQuotient num den ≤ 2 * num + den := by
  have split := Nat.div_add_mod num den
  have small := Nat.mod_lt num h
  unfold nearestQuotient
  by_cases less : 2 * (num % den) < den
  · simp only [less, decide_true, Bool.true_or, if_true]
    rw [Nat.mul_assoc]
    omega
  · by_cases half : 2 * (num % den) = den ∧ num / den % 2 = 0
    · have : decide (2 * (num % den) < den) || (2 * (num % den) == den && num / den % 2 == 0) := by
        simp [half]
      rw [if_pos this, Nat.mul_assoc]
      omega
    · have : ¬ (decide (2 * (num % den) < den) ||
          (2 * (num % den) == den && num / den % 2 == 0)) := by
        simpa [less] using half
      rw [if_neg this, Nat.mul_assoc, Nat.mul_add]
      omega

def dividedByPower (base num den : Nat) (power : Int) : Nat × Nat :=
  (num * base.pow (-power).toNat, den * base.pow power.toNat)

namespace Binary

def precision : Nat := 53

def leastExponent : Int := -1074

def greatestExponent : Int := 971

def ofInt (n : Int) : Binary := finite (n < 0) n.natAbs 0

def zero (negative : Bool) : Binary := finite negative 0 leastExponent

def nearest (negative : Bool) (num den : Nat) : Binary :=
  if num = 0 then zero negative
  else
    -- in these units the quotient has at most one digit too many
    let coarse : Int := max leastExponent (num.log2 - den.log2 - precision)
    let (n, d) := dividedByPower 2 num den coarse
    let exponent := if n / d < 1 <<< precision then coarse else coarse + 1
    let (n, d) := dividedByPower 2 num den exponent
    let significand := nearestQuotient n d
    let (significand, exponent) :=
      if significand = 1 <<< precision then (1 <<< (precision - 1), exponent + 1)
      else (significand, exponent)
    if exponent > greatestExponent then infinite negative
    else finite negative significand exponent

def ofDecimal (negative : Bool) (digits : Nat) (power : Int) : Binary :=
  let leading : Int := (Nat.toDigits 10 digits).length + power
  if digits = 0 || leading < -330 then zero negative
  else if leading > 310 then infinite negative
  else
    let (num, den) := dividedByPower 10 digits 1 (-power)
    nearest negative num den

/-- The same number: both zeros are, and an undefined number is not even itself. -/
def same : Binary → Binary → Bool
  | finite s m e, finite t n f =>
    let unit := min e f
    let a := m <<< (e - unit).toNat
    let b := n <<< (f - unit).toNat
    a == b && (s == t || a == 0)
  | infinite s, infinite t => s == t
  | _, _ => false

def isZero : Binary → Bool
  | finite _ m _ => m == 0
  | _ => false

def truncated? : Binary → Option Int
  | finite negative m e =>
    let size := m <<< e.toNat >>> (-e).toNat
    some (if negative then -size else size)
  | _ => none

end Binary
end Wiring
