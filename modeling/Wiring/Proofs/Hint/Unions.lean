import Mathlib
import Wiring.Proofs.Hint.Equivalence
import Wiring.Proofs.Outcome

/-! The members of unions. Of equal hints a union keeps the first, so its members differ from each
other, and it has no others than it was built from. -/
namespace Wiring.Hint

def Distinct (hs : List Hint) : Prop := hs.Pairwise fun x y => ¬ x.same y

def United (h : Hint) : Prop := ∀ spelling members, h = .union spelling members →
  1 < members.length ∧ Distinct members ∧ areHashable members

theorem dedup_concat (hs : List Hint) (h : Hint) :
    dedup (hs ++ [h]) = if (dedup hs).any (·.same h) then dedup hs else dedup hs ++ [h] := by
  simp [dedup, List.foldl_append]

theorem mem_of_mem_dedup {hs : List Hint} {x : Hint} (mem : x ∈ dedup hs) : x ∈ hs := by
  induction hs using List.reverseRecOn with
  | nil => contradiction
  | append_singleton hs h ih =>
    rw [dedup_concat] at mem
    split at mem
    · exact List.mem_append_left _ (ih mem)
    · exact (List.mem_append.mp mem).elim (fun old => List.mem_append_left _ (ih old))
        (List.mem_append_right _)

theorem distinct_dedup (hs : List Hint) : Distinct (dedup hs) := by
  induction hs using List.reverseRecOn with
  | nil => exact .nil
  | append_singleton hs h ih =>
    rw [dedup_concat]
    split
    · exact ih
    · rename_i new
      refine List.pairwise_append.mpr ⟨ih, List.pairwise_singleton _ _, ?_⟩
      intro x kept y last equal
      cases List.mem_singleton.mp last
      exact new (List.any_eq_true.mpr ⟨x, kept, equal⟩)

theorem exists_mem_dedup {hs : List Hint} {h : Hint} (mem : h ∈ hs) :
    h ∈ dedup hs ∨ ∃ x ∈ dedup hs, x.same h := by
  induction hs using List.reverseRecOn with
  | nil => contradiction
  | append_singleton hs last ih =>
    rw [dedup_concat]
    split
    · rename_i old
      rcases List.mem_append.mp mem with before | isLast
      · exact ih before
      · cases List.mem_singleton.mp isLast
        exact .inr (List.any_eq_true.mp old)
    · rcases List.mem_append.mp mem with before | isLast
      · exact (ih before).imp (List.mem_append_left _)
          fun ⟨x, kept, equal⟩ => ⟨x, List.mem_append_left _ kept, equal⟩
      · exact .inl (List.mem_append_right _ isLast)

theorem dedup_eq_self {hs : List Hint} (distinct : Distinct hs) : dedup hs = hs := by
  induction hs using List.reverseRecOn with
  | nil => rfl
  | append_singleton hs h ih =>
    obtain ⟨before, -, apart⟩ := List.pairwise_append.mp distinct
    have new : ¬ hs.any (·.same h) := by
      intro old
      obtain ⟨x, mem, equal⟩ := List.any_eq_true.mp old
      exact apart x mem h (List.mem_singleton_self _) equal
    rw [dedup_concat, ih before, if_neg new]

theorem ofMembers_eq (spelling : UnionSpelling) {hs : List Hint} (several : (dedup hs).length ≠ 1) :
    ofMembers spelling hs = .union spelling (dedup hs) := by
  unfold ofMembers
  split
  · rename_i only
    simp [only] at several
  · rfl

theorem typeArgument_eq_ok {h t : Hint} (made : h.typeArgument = .ok t) : t = h.argument := by
  unfold typeArgument at made
  split at made
  · cases made
  · split at made
    · cases made
    · cases made
      rfl
  · split at made
    · cases made
    · cases made
      rfl
  · cases made
    rfl

theorem unionOf_eq_ok {hs : List Hint} {u : Hint} : unionOf hs = .ok u ↔ hs ≠ [] ∧
    ∃ ts, List.Forall₂ (fun h t => typeArgument h = .ok t) hs ts ∧
      areHashable (ts.flatMap unionMembers) ∧ ofMembers .typing (ts.flatMap unionMembers) = u := by
  cases hs with
  | nil => simp [unionOf, throw, throwThe, MonadExceptOf.throw, bind, Except.bind]
  | cons h hs =>
    have nonempty : (h :: hs).isEmpty = false := rfl
    simp only [unionOf, nonempty, Bool.false_eq_true, if_false, ne_eq, reduceCtorEq,
      not_false_eq_true, true_and]
    change ((h :: hs).mapM typeArgument >>= _) = _ ↔ _
    rw [Outcome.bind_eq_ok]
    refine exists_congr fun ts => and_congr Outcome.mapM_eq_ok ?_
    split
    · rename_i hashable
      simp [hashable, Outcome.pure_eq_ok]
    · rename_i unhashable
      simp [unhashable, throw, throwThe, MonadExceptOf.throw]

end Wiring.Hint
