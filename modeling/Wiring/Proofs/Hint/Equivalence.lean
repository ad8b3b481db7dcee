import Mathlib
import Wiring.Proofs.Hint.Reflexivity
import Wiring.Proofs.Literal

/-! Equality of hints that can be hashed is symmetric and transitive. Together with reflexivity,
which fails only for data that is not equal to itself, it is an equivalence. -/
namespace Wiring

namespace Spelling

theorem comparable_symm {s t : Spelling} (equal : s.comparable t) : t.comparable s := by
  cases s <;> cases t <;> simp_all [comparable]

theorem comparable_trans {s t u : Spelling} (first : s.comparable t) (second : t.comparable u) :
    s.comparable u := by
  cases s <;> cases t <;> cases u <;> simp_all [comparable]

end Spelling

theorem exists_right_of_mem {α β : Type} {R : α → β → Prop} {xs : List α} {ys : List β} {x : α}
    (all : List.Forall₂ R xs ys) (mem : x ∈ xs) : ∃ y ∈ ys, R x y := by
  induction all with
  | nil => contradiction
  | cons here _ ih =>
    rcases List.mem_cons.mp mem with rfl | later
    · exact ⟨_, List.mem_cons_self, here⟩
    · obtain ⟨y, listed, related⟩ := ih later
      exact ⟨y, List.mem_cons_of_mem _ listed, related⟩

namespace Hint

@[elab_as_elim]
theorem inductionOnChildren {motive : Hint → Prop}
    (step : ∀ h, (∀ x ∈ h.children, motive x) → motive h) (h : Hint) : motive h := by
  induction size : h.size using Nat.strong_induction_on generalizing h with
  | h n ih =>
    subst size
    exact step h fun x child => ih x.size (size_lt_of_mem_children child) x rfl

section Inversion
variable {y : Hint}

theorem sameAll_iff {xs ys : List Hint} :
    sameAll xs ys ↔ List.Forall₂ (fun x y => x.same y) xs ys := by
  induction xs generalizing ys with
  | nil => cases ys <;> simp [sameAll]
  | cons x xs ih => cases ys <;> simp [sameAll, ih]

theorem coveredBy_iff {xs ys : List Hint} : coveredBy xs ys ↔ ∀ x ∈ xs, ∃ y ∈ ys, x.same y := by
  induction xs with
  | nil => simp [coveredBy]
  | cons x xs ih => simp [coveredBy, ih]

theorem covers_iff {xs : List Hint} : covers xs y ↔ ∃ x ∈ xs, x.same y := by
  induction xs with
  | nil => simp [covers]
  | cons x xs ih => simp [covers, ih]

def isAnnotated : Hint → Bool
  | .annotated .. => true
  | _ => false

def isAtomic : Hint → Bool
  | .cls _ | .none | .ellipsis | .text _ | .forward _ | .bare _ | .unionForm => true
  | _ => false

theorem same_atomic {x : Hint} (atomic : x.isAtomic) : x.same y ↔ y = x := by
  cases x <;> simp [isAtomic] at atomic <;> cases y <;> simp [same] <;> exact eq_comm

theorem same_var {id : Nat} {name : String} {bound : Option Hint} :
    (var id name bound).same y ↔ ∃ name' bound', y = var id name' bound' := by
  cases y <;> simp [same]
  exact eq_comm

theorem same_literal {v : Literal} : (literal v).same y ↔ ∃ u, y = literal u ∧ v.same u := by
  cases y <;> simp [same]

theorem same_qualifier {id : Nat} {name : Literal} :
    (qualifier id name).same y ↔ ∃ name', y = qualifier id name' := by
  cases y <;> simp [same]
  exact eq_comm

theorem same_value {owner : Nat} {name written : String} {named : Bool} :
    (value owner name written named).same y ↔
      ∃ written' named', y = value owner name written' named' := by
  cases y <;> simp [same, @eq_comm _ owner, @eq_comm _ name]

theorem same_list {xs : List Hint} : (list xs).same y ↔ ∃ ys, y = list ys ∧ sameAll xs ys := by
  cases y <;> simp [same]

theorem same_alias {s : Spelling} {k : ClassRef} {xs : List Hint} : («alias» s k xs).same y ↔
    ∃ t ys, y = «alias» t k ys ∧ s.comparable t ∧ sameAll xs ys := by
  cases y <;> simp [same]
  grind

theorem same_union {s : UnionSpelling} {xs : List Hint} : (union s xs).same y ↔
    ∃ t ys, y = union t ys ∧ (∀ x ∈ xs, ∃ y ∈ ys, x.same y) ∧ ∀ y ∈ ys, ∃ x ∈ xs, x.same y := by
  cases y <;> simp [same, coveredBy_iff, covers_iff]

theorem same_annotated {inner : Hint} {metadata : List Hint} : (annotated inner metadata).same y ↔
    ∃ inner' metadata', y = annotated inner' metadata' ∧ inner.same inner' ∧
      sameAll metadata metadata' := by
  cases y <;> simp [same]

end Inversion

theorem areHashable_iff {hs : List Hint} : areHashable hs ↔ ∀ h ∈ hs, h.isHashable := by
  induction hs with
  | nil => simp [areHashable]
  | cons h hs ih => simp [areHashable, ih]

theorem isHashable_child {h x : Hint} (hashable : h.isHashable) (child : x ∈ h.children) :
    x.isHashable := by
  cases h with
  | list items => simp [isHashable] at hashable
  | «alias» spelling origin args => exact areHashable_iff.mp hashable x child
  | union spelling members => exact areHashable_iff.mp hashable x child
  | annotated inner metadata =>
    simp only [isHashable, Bool.and_eq_true, areHashable_iff] at hashable
    rcases List.mem_cons.mp child with rfl | mem
    · exact hashable.1
    · exact hashable.2 x mem
  | _ => contradiction

theorem sameAll_symm {xs ys : List Hint} (each : ∀ x ∈ xs, ∀ y, x.same y → y.same x)
    (equal : sameAll xs ys) : sameAll ys xs := by
  rw [sameAll_iff] at equal ⊢
  induction equal with
  | nil => exact .nil
  | cons here _ ih =>
    exact .cons (each _ List.mem_cons_self _ here)
      (ih fun x mem => each x (List.mem_cons_of_mem _ mem))

theorem sameAll_trans {xs ys zs : List Hint}
    (each : ∀ x ∈ xs, ∀ y z, x.same y → y.same z → x.same z)
    (first : sameAll xs ys) (second : sameAll ys zs) : sameAll xs zs := by
  rw [sameAll_iff] at first second ⊢
  induction first generalizing zs with
  | nil => exact second
  | cons here _ ih =>
    cases second with
    | cons there rest =>
      exact .cons (each _ List.mem_cons_self _ _ here there)
        (ih (fun x mem => each x (List.mem_cons_of_mem _ mem)) rest)

theorem same_symm {x y : Hint} (hashable : x.isHashable) (equal : x.same y) : y.same x := by
  induction x using inductionOnChildren generalizing y with
  | step x ih =>
    have each (a : Hint) (child : a ∈ x.children) (b : Hint) : a.same b → b.same a :=
      ih a child (isHashable_child hashable child)
    cases x with
    | list items => simp [isHashable] at hashable
    | var id name bound =>
      obtain ⟨_, _, rfl⟩ := same_var.mp equal
      exact same_var.mpr ⟨_, _, rfl⟩
    | qualifier id name =>
      obtain ⟨_, rfl⟩ := same_qualifier.mp equal
      exact same_qualifier.mpr ⟨_, rfl⟩
    | value owner name written named =>
      obtain ⟨_, _, rfl⟩ := same_value.mp equal
      exact same_value.mpr ⟨_, _, rfl⟩
    | literal v =>
      obtain ⟨u, rfl, data⟩ := same_literal.mp equal
      exact same_literal.mpr ⟨v, rfl, Literal.same_symm hashable data⟩
    | «alias» spelling origin args =>
      obtain ⟨spelling', args', rfl, spelled, args⟩ := same_alias.mp equal
      exact same_alias.mpr
        ⟨spelling, _, rfl, Spelling.comparable_symm spelled, sameAll_symm each args⟩
    | union spelling members =>
      obtain ⟨spelling', members', rfl, forth, back⟩ := same_union.mp equal
      refine same_union.mpr ⟨spelling, members, rfl, fun b mem => ?_, fun a mem => ?_⟩
      · obtain ⟨a, listed, equal⟩ := back b mem
        exact ⟨a, listed, each a listed b equal⟩
      · obtain ⟨b, listed, equal⟩ := forth a mem
        exact ⟨b, listed, each a mem b equal⟩
    | annotated inner metadata =>
      obtain ⟨inner', metadata', rfl, inside, data⟩ := same_annotated.mp equal
      exact same_annotated.mpr ⟨inner, metadata, rfl, each inner List.mem_cons_self _ inside,
        sameAll_symm (fun a mem => each a (List.mem_cons_of_mem _ mem)) data⟩
    | _ =>
      rw [(same_atomic rfl).mp equal]
      exact (same_atomic rfl).mpr rfl

theorem same_trans {x y z : Hint} (hashable : x.isHashable) (first : x.same y)
    (second : y.same z) : x.same z := by
  induction x using inductionOnChildren generalizing y z with
  | step x ih =>
    have each (a : Hint) (child : a ∈ x.children) (b c : Hint) : a.same b → b.same c → a.same c :=
      ih a child (isHashable_child hashable child)
    cases x with
    | list items => simp [isHashable] at hashable
    | var id name bound =>
      obtain ⟨_, _, rfl⟩ := same_var.mp first
      exact same_var.mpr (same_var.mp second)
    | qualifier id name =>
      obtain ⟨_, rfl⟩ := same_qualifier.mp first
      exact same_qualifier.mpr (same_qualifier.mp second)
    | value owner name written named =>
      obtain ⟨_, _, rfl⟩ := same_value.mp first
      exact same_value.mpr (same_value.mp second)
    | literal v =>
      obtain ⟨u, rfl, here⟩ := same_literal.mp first
      obtain ⟨t, rfl, there⟩ := same_literal.mp second
      exact same_literal.mpr ⟨t, rfl, Literal.same_trans hashable here there⟩
    | «alias» spelling origin args =>
      obtain ⟨_, _, rfl, spelled, here⟩ := same_alias.mp first
      obtain ⟨_, _, rfl, spelled', there⟩ := same_alias.mp second
      exact same_alias.mpr
        ⟨_, _, rfl, Spelling.comparable_trans spelled spelled', sameAll_trans each here there⟩
    | union spelling members =>
      obtain ⟨_, _, rfl, forth, back⟩ := same_union.mp first
      obtain ⟨_, _, rfl, forth', back'⟩ := same_union.mp second
      refine same_union.mpr ⟨_, _, rfl, fun a mem => ?_, fun c mem => ?_⟩
      · obtain ⟨b, listed, here⟩ := forth a mem
        obtain ⟨c, last, there⟩ := forth' b listed
        exact ⟨c, last, each a mem b c here there⟩
      · obtain ⟨b, listed, there⟩ := back' c mem
        obtain ⟨a, last, here⟩ := back b listed
        exact ⟨a, last, each a last b c here there⟩
    | annotated inner metadata =>
      obtain ⟨_, _, rfl, inside, here⟩ := same_annotated.mp first
      obtain ⟨_, _, rfl, inside', there⟩ := same_annotated.mp second
      exact same_annotated.mpr ⟨_, _, rfl, each inner List.mem_cons_self _ _ inside inside',
        sameAll_trans (fun a mem => each a (List.mem_cons_of_mem _ mem)) here there⟩
    | _ =>
      rw [(same_atomic rfl).mp first] at second
      exact second

end Hint
end Wiring
