/-! Merging the linearizations of several bases into one order: every class before its own bases,
and the order within each merged list kept. -/
namespace Wiring.Linearization

variable {α : Type} [DecidableEq α]

/-- A class that heads a list and stands in no tail: the next in the order. -/
def next? (lists : List (List α)) : Option α :=
  (lists.filterMap List.head?).find? fun c => lists.all fun l => !l.tail.contains c

def advance (c : α) (lists : List (List α)) : List (List α) :=
  lists.map fun l => if l.head? = some c then l.tail else l

def remaining (lists : List (List α)) : Nat := lists.flatten.length

theorem remaining_advance_le (c : α) (lists : List (List α)) :
    remaining (advance c lists) ≤ remaining lists := by
  induction lists with
  | nil => simp [remaining, advance]
  | cons l ls ih =>
    simp only [remaining, advance, List.map_cons, List.flatten_cons, List.length_append] at ih ⊢
    split
    · simp only [List.length_tail]; omega
    · omega

theorem remaining_advance_lt {c : α} {lists : List (List α)} (h : c ∈ lists.filterMap List.head?) :
    remaining (advance c lists) < remaining lists := by
  induction lists with
  | nil => simp at h
  | cons l ls ih =>
    have le := remaining_advance_le c ls
    simp only [remaining, advance, List.map_cons, List.flatten_cons, List.length_append]
      at ih le ⊢
    cases l with
    | nil =>
      simp only [List.filterMap_cons, List.head?_nil] at h
      have := ih h
      simp only [List.head?_nil, reduceCtorEq, if_false, List.length_nil]
      omega
    | cons x xs =>
      by_cases hx : x = c
      · subst hx
        simp only [List.head?_cons, if_true, List.tail_cons, List.length_cons]
        omega
      · have hc : c ∈ ls.filterMap List.head? := by
          simp only [List.filterMap_cons, List.head?_cons, List.mem_cons] at h
          rcases h with h | h
          · exact absurd h.symm hx
          · exact h
        have := ih hc
        simp only [List.head?_cons, Option.some.injEq, hx, if_false]
        omega

def merge (lists : List (List α)) : Option (List α) :=
  if lists.all List.isEmpty then some []
  else
    match _h : next? lists with
    | none => none
    | some c => (merge (advance c lists)).map (c :: ·)
termination_by remaining lists
decreasing_by exact remaining_advance_lt (List.mem_of_find?_eq_some _h)

end Wiring.Linearization
