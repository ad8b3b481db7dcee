import Mathlib.Data.Nat.Basic
import Wiring.Literal

/-! Equality of data. Numbers are compared as numbers, whatever their form, so equality of data that
can be hashed is symmetric and transitive. An undefined number is not equal to itself. -/
namespace Wiring

namespace Binary

theorem shiftLeft_eq_iff {m n : Nat} {e f u : Int} (le : u ≤ min e f) :
    m <<< (e - min e f).toNat = n <<< (f - min e f).toNat ↔
      m <<< (e - u).toNat = n <<< (f - u).toNat := by
  have left : (e - u).toNat = (e - min e f).toNat + (min e f - u).toNat := by omega
  have right : (f - u).toNat = (f - min e f).toNat + (min e f - u).toNat := by omega
  rw [left, right, Nat.shiftLeft_add, Nat.shiftLeft_add]
  constructor
  · intro equal
    rw [equal]
  · intro equal
    simp only [Nat.shiftLeft_eq] at equal ⊢
    exact Nat.eq_of_mul_eq_mul_right (Nat.two_pow_pos _) equal

theorem same_finite {s t : Bool} {m n : Nat} {e f u : Int} (le : u ≤ min e f) :
    (finite s m e).same (finite t n f) ↔
      m <<< (e - u).toNat = n <<< (f - u).toNat ∧ (s = t ∨ m = 0) := by
  simp [same, shiftLeft_eq_iff le, Nat.shiftLeft_eq_zero_iff]

theorem same_symm {x y : Binary} (equal : x.same y) : y.same x := by
  cases x with
  | finite s m e =>
    cases y with
    | finite t n f =>
      rw [same_finite (u := min e f) (by omega)] at equal ⊢
      obtain ⟨amount, sign⟩ := equal
      refine ⟨amount.symm, sign.imp Eq.symm fun none => ?_⟩
      rw [none, Nat.zero_shiftLeft, eq_comm] at amount
      exact Nat.shiftLeft_eq_zero_iff.mp amount
    | _ => simp [same] at equal
  | infinite s => cases y <;> simp_all [same]
  | undefined => simp [same] at equal

theorem same_trans {x y z : Binary} (first : x.same y) (second : y.same z) : x.same z := by
  cases x with
  | finite s m e =>
    cases y with
    | finite t n f =>
      cases z with
      | finite u k g =>
        -- All three are whole in the least of the three units.
        rw [same_finite (u := min e (min f g)) (by omega)] at first second ⊢
        obtain ⟨left, signs⟩ := first
        obtain ⟨right, signs'⟩ := second
        refine ⟨left.trans right, ?_⟩
        rcases signs with rfl | none
        · refine signs'.imp_right fun none => ?_
          rw [none, Nat.zero_shiftLeft] at left
          exact Nat.shiftLeft_eq_zero_iff.mp left
        · exact .inr none
      | _ => simp [same] at second
    | _ => simp [same] at first
  | infinite s => cases y <;> cases z <;> simp_all [same]
  | undefined => simp [same] at first

end Binary

namespace Literal

theorem same_iff {a b : Literal} (hashable : a.isHashable) : a.same b ↔
    (a = .null ∧ b = .null) ∨ (∃ s, a = .text s ∧ b = .text s) ∨
      ∃ x y, a.number? = some x ∧ b.number? = some y ∧ x.same y := by
  cases a <;> cases b <;> simp_all [same, number?, isHashable]
  case text.text => exact eq_comm

theorem isHashable_of_same {a b : Literal} (hashable : a.isHashable) (equal : a.same b) :
    b.isHashable := by
  cases a <;> cases b <;> simp_all [same, number?, isHashable]

theorem same_symm {a b : Literal} (hashable : a.isHashable) (equal : a.same b) : b.same a := by
  have back := isHashable_of_same hashable equal
  rw [same_iff back]
  rcases (same_iff hashable).mp equal with ⟨rfl, rfl⟩ | ⟨s, rfl, rfl⟩ | ⟨x, y, left, right, numbers⟩
  · exact .inl ⟨rfl, rfl⟩
  · exact .inr (.inl ⟨s, rfl, rfl⟩)
  · exact .inr (.inr ⟨y, x, right, left, Binary.same_symm numbers⟩)

theorem same_trans {a b c : Literal} (hashable : a.isHashable) (first : a.same b)
    (second : b.same c) : a.same c := by
  have between := isHashable_of_same hashable first
  rcases (same_iff hashable).mp first with ⟨rfl, rfl⟩ | ⟨s, rfl, rfl⟩ | ⟨x, y, left, right, numbers⟩
  · exact second
  · exact second
  · rcases (same_iff between).mp second with ⟨rfl, -⟩ | ⟨s, rfl, -⟩ | ⟨y', z, again, last, others⟩
    · cases right
    · cases right
    · cases right.symm.trans again
      exact (same_iff hashable).mpr (.inr (.inr ⟨x, z, left, last,
        Binary.same_trans numbers others⟩))

end Literal
end Wiring
