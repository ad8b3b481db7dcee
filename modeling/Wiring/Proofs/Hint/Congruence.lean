import Mathlib
import Wiring.Proofs.Hint.Equivalence

/-! Hints that are the same type place by place. Where no place agrees with everything, arguments
agree strictly exactly if they are. -/
namespace Wiring.Hint

/-- What stands side by side in a hint: the items of a list, the arguments of any other. -/
def places : Hint → List Hint
  | .list items => items
  | h => h.arguments

/-- The same head and the same places in the same order, down to places that are equal. -/
inductive Congruent : Hint → Hint → Prop
  | intro {c r : Hint} (head : SameHead c r) (equal : r.places = [] → c.same r)
      (count : SameCount c r) (each : ∀ a b, (a, b) ∈ pairs c r → Congruent a b) : Congruent c r

section
variable {c r x : Hint}

theorem places_eq (noList : ∀ items, r ≠ .list items) : r.places = r.arguments := by
  cases r with
  | list items => exact absurd rfl (noList items)
  | _ => rfl

theorem pairs_eq (noList : ∀ items, r ≠ .list items) : pairs c r =
    if c.arguments.length = r.arguments.length then c.arguments.zip r.arguments else [] := by
  cases r with
  | list items => exact absurd rfl (noList items)
  | _ => cases c <;> rfl

theorem sameHead_iff (noList : ∀ items, r ≠ .list items) : SameHead c r ↔
    if r.arguments.isEmpty then c.same r ∨ c.raw.same r else c.raw.same r.raw := by
  cases r with
  | list items => exact absurd rfl (noList items)
  | _ => rfl

theorem part_of_places (mem : x ∈ c.places) : Part x c := by
  by_cases noList : ∀ items, c ≠ .list items
  · exact .argument (places_eq noList ▸ mem) .self
  · obtain ⟨items, rfl⟩ := not_forall_not.mp noList
    exact .item mem .self

theorem mem_places (mem : x ∈ c.arguments) : x ∈ c.places := by
  rw [places_eq]
  · exact mem
  · rintro items rfl
    contradiction

theorem Part.trans {y : Hint} (part : Part x y) (outer : Part y c) : Part x c := by
  induction outer with
  | self => exact part
  | item mem _ ih => exact .item mem ih
  | argument mem _ ih => exact .argument mem ih

theorem callableArguments_eq_nil {args : List Hint} : callableArguments args = [] ↔ args = [] := by
  unfold callableArguments
  split
  · simp
  · simp
  · split
    · rename_i last
      simp only [reduceCtorEq, false_iff]
      rintro rfl
      contradiction
    · rename_i none
      simpa using none

theorem arguments_alias_eq_nil {spelling : Spelling} {origin : ClassRef} {args : List Hint} :
    («alias» spelling origin args).arguments = [] ↔ args = [] := by
  by_cases callable : origin = .builtin .callable
  · rw [callable]
    exact callableArguments_eq_nil
  · rw [arguments_alias callable]

theorem places_eq_nil_of_same (equal : c.same r) (none : r.places = []) : c.places = [] := by
  cases c with
  | list items =>
    obtain ⟨_, rfl, all⟩ := same_list.mp equal
    cases none
    exact List.forall₂_nil_right_iff.mp (sameAll_iff.mp all)
  | «alias» spelling origin args =>
    obtain ⟨_, args', rfl, -, all⟩ := same_alias.mp equal
    cases arguments_alias_eq_nil.mp none
    exact arguments_alias_eq_nil.mpr (List.forall₂_nil_right_iff.mp (sameAll_iff.mp all))
  | union spelling members =>
    obtain ⟨_, _, rfl, covered, -⟩ := same_union.mp equal
    cases none
    refine List.eq_nil_iff_forall_not_mem.mpr fun x mem => ?_
    obtain ⟨_, listed, -⟩ := covered x mem
    contradiction
  | annotated inner metadata =>
    obtain ⟨_, _, rfl, -, -⟩ := same_annotated.mp equal
    contradiction
  | _ => rfl

theorem pairs_eq_places (head : SameHead c r) (equal : r.places = [] → c.same r)
    (count : SameCount c r) :
    c.places.length = r.places.length ∧ pairs c r = c.places.zip r.places := by
  by_cases noList : ∀ items, r ≠ .list items
  · rw [pairs_eq noList]
    rw [places_eq noList] at equal ⊢
    by_cases none : r.arguments = []
    · rw [none, places_eq_nil_of_same (equal none) (places_eq noList ▸ none)]
      simp
    · have count := count.resolve_left (by simpa using none)
      have noList' : ∀ items, c ≠ .list items := by
        rintro items rfl
        exact none (List.length_eq_zero_iff.mp count.symm)
      rw [if_pos count, places_eq noList']
      exact ⟨count, rfl⟩
  · obtain ⟨items, rfl⟩ := not_forall_not.mp noList
    obtain ⟨items', rfl, sameLength⟩ := head
    exact ⟨sameLength, rfl⟩

namespace Congruent

theorem places (congruent : Congruent c r) : List.Forall₂ Congruent c.places r.places := by
  obtain ⟨head, equal, count, each⟩ := congruent
  obtain ⟨sameLength, paired⟩ := pairs_eq_places head equal count
  rw [paired] at each
  exact List.forall₂_iff_zip.mpr ⟨sameLength, fun {a b} place => each a b place⟩

theorem not_isVar (congruent : Congruent c r) (bound : ¬ r.isVar) : ¬ c.isVar := by
  intro isVar
  obtain ⟨head, equal, -, -⟩ := id congruent
  cases c with
  | var id name bound' =>
    have none : r.places = [] := List.forall₂_nil_left_iff.mp congruent.places
    obtain ⟨_, _, rfl⟩ := same_var.mp (equal none)
    exact bound rfl
  | _ => cases isVar

theorem closed (congruent : Congruent c r) (closed : r.Closed) : c.Closed := by
  intro x part
  induction part generalizing r with
  | self => exact congruent.not_isVar (closed r .self)
  | item mem _ ih =>
    obtain ⟨b, listed, congruent⟩ := exists_right_of_mem congruent.places mem
    exact ih congruent fun y part => closed y (part.trans (part_of_places listed))
  | argument mem _ ih =>
    obtain ⟨b, listed, congruent⟩ := exists_right_of_mem congruent.places (mem_places mem)
    exact ih congruent fun y part => closed y (part.trans (part_of_places listed))

end Congruent

/-- Strict agreement is congruence, where no required place agrees with everything and no supplied
place agrees with a place that is just its class. -/
theorem agrees_strict_iff (fixed : ∀ b, Part b r → ¬ b.isWildcard)
    (exact : ∀ a b, Part a c → Part b r → ¬ a.isVar → a.raw.same b → a.same b) :
    agrees .strict c r ↔ Congruent c r := by
  induction size : r.size using Nat.strong_induction_on generalizing c r with
  | h n ih =>
    subst size
    have inner (a b : Hint) (place : (a, b) ∈ pairs c r) : agrees .strict a b ↔ Congruent a b := by
      obtain ⟨left, right⟩ := parts_of_mem_pairs place
      exact ih b.size (size_lt_of_mem_pairs place) (fun y part => fixed y (right y part))
        (fun x y part part' => exact x y (left x part) (right y part')) rfl
    have bound : ¬ r.isVar := by
      have here := fixed r .self
      simp only [isWildcard, Bool.or_eq_true, not_or] at here
      exact here.2
    rw [agrees_iff]
    constructor
    · intro agree
      have step := agree.resolve_left (fixed r .self)
      split at step
      · cases step
      rename_i bound
      obtain ⟨head, count, all⟩ := step
      have count := count.resolve_right Bool.false_ne_true
      refine .intro head (fun none => ?_) count fun a b place =>
        (inner a b place).mp (all a b place)
      by_cases noList : ∀ items, r ≠ .list items
      · rw [places_eq noList] at none
        rw [sameHead_iff noList, none] at head
        exact head.elim id (exact c r .self .self bound)
      · obtain ⟨items, rfl⟩ := not_forall_not.mp noList
        obtain ⟨items', rfl, sameLength⟩ := head
        cases none
        cases List.length_eq_zero_iff.mp sameLength
        simp [same, sameAll]
    · intro congruent
      rw [if_neg (congruent.not_isVar bound)]
      obtain ⟨head, -, count, each⟩ := congruent
      exact .inr ⟨head, .inl count, fun a b place => (inner a b place).mpr (each a b place)⟩

end

end Wiring.Hint
