import Mathlib.Data.List.Forall2
import Wiring.Matching

/-! When type arguments agree. Two hints clash if they differ at a place that both of them fix and
that has as many arguments in the one as in the other. Arguments that clash never agree; where
open places and missing arguments count as agreeing, all others do. -/
namespace Wiring.Hint

/-- The hints are the same apart from their arguments. -/
def SameHead (c : Hint) : Hint → Prop
  | .list rs => ∃ cs, c = .list cs ∧ cs.length = rs.length
  | r => if r.arguments.isEmpty then c.same r ∨ c.raw.same r else c.raw.same r.raw

def SameCount (c r : Hint) : Prop :=
  r.arguments.isEmpty ∨ c.arguments.length = r.arguments.length

def pairs : Hint → Hint → List (Hint × Hint)
  | .list cs, .list rs => cs.zip rs
  | c, r => if c.arguments.length = r.arguments.length then c.arguments.zip r.arguments else []

inductive Clash : Hint → Hint → Prop
  | head {c r : Hint} (fixed : ¬ r.isWildcard) (bound : ¬ c.isVar) (differ : ¬ SameHead c r) :
      Clash c r
  | inside {c r a b : Hint} (fixed : ¬ r.isWildcard) (bound : ¬ c.isVar)
      (place : (a, b) ∈ pairs c r) (clash : Clash a b) : Clash c r

theorem size_lt_sizeAll {h : Hint} {hs : List Hint} (mem : h ∈ hs) : h.size < sizeAll hs := by
  induction hs with
  | nil => contradiction
  | cons x xs ih =>
    rw [sizeAll]
    rcases List.mem_cons.mp mem with rfl | later
    · omega
    · have smaller := ih later
      omega

theorem size_lt_of_mem_pairs {c r a b : Hint} (place : (a, b) ∈ pairs c r) : b.size < r.size := by
  unfold pairs at place
  split at place
  · rename_i cs rs
    have inside := size_lt_sizeAll (List.of_mem_zip place).2
    rw [size]
    omega
  · split at place
    · have inside := size_lt_sizeAll (List.of_mem_zip place).2
      have arguments := sizeAll_arguments_le r
      omega
    · contradiction

theorem agreesAll_eq_true {mode : Mode} {cs rs : List Hint} :
    agreesAll mode cs rs = true ↔ ∀ a b, (a, b) ∈ cs.zip rs → agrees mode a b = true := by
  induction cs generalizing rs with
  | nil => simp [agreesAll]
  | cons c cs ih =>
    cases rs with
    | nil => simp [agreesAll]
    | cons r rs =>
      rw [agreesAll, Bool.and_eq_true, ih, List.zip_cons_cons]
      constructor
      · rintro ⟨here, rest⟩ a b mem
        rcases List.mem_cons.mp mem with same | later
        · cases same
          exact here
        · exact rest a b later
      · intro all
        exact ⟨all c r List.mem_cons_self, fun a b later => all a b (List.mem_cons_of_mem _ later)⟩

theorem agrees_list {mode : Mode} {c : Hint} {rs : List Hint} : agrees mode c (.list rs) = true ↔
    if c.isVar then mode.accepts = true else
      SameHead c (.list rs) ∧ ∀ a b, (a, b) ∈ pairs c (.list rs) → agrees mode a b = true := by
  have fixed : ¬ (Hint.list rs).isWildcard := by simp [isWildcard, isAny, isVar]
  rw [agrees.eq_def, if_neg fixed]
  cases c with
  | list cs => simp [isVar, SameHead, pairs, agreesAll_eq_true]
  | var id name bound => simp [isVar]
  | _ => simp [isVar, SameHead]

theorem agrees_of_noList {mode : Mode} {c r : Hint} (noList : ∀ rs, r ≠ .list rs)
    (fixed : ¬ r.isWildcard) (bound : ¬ c.isVar) : agrees mode c r = true ↔
      SameHead c r ∧ (SameCount c r ∨ mode.accepts) ∧
        ∀ a b, (a, b) ∈ pairs c r → agrees mode a b = true := by
  have head : SameHead c r ↔
      if r.arguments.isEmpty then c.same r ∨ c.raw.same r else c.raw.same r.raw := by
    cases r with
    | list rs => exact absurd rfl (noList rs)
    | _ => rfl
  have places : pairs c r =
      if c.arguments.length = r.arguments.length then c.arguments.zip r.arguments else [] := by
    cases r with
    | list rs => exact absurd rfl (noList rs)
    | _ => cases c <;> rfl
  rw [agrees, if_neg fixed, if_neg bound, head, places]
  · unfold SameCount
    by_cases empty : r.arguments.isEmpty
    · have none : r.arguments = [] := List.isEmpty_iff.mp empty
      simp [none]
    · by_cases sameRaw : c.raw.same r.raw
      · by_cases count : c.arguments.length = r.arguments.length
        · simp [empty, sameRaw, count, agreesAll_eq_true]
        · simp [empty, sameRaw, count]
      · simp [empty, sameRaw]
  · exact noList

theorem agrees_iff {mode : Mode} {c r : Hint} : agrees mode c r = true ↔
    r.isWildcard ∨ if c.isVar then mode.accepts = true else
      SameHead c r ∧ (SameCount c r ∨ mode.accepts) ∧
        ∀ a b, (a, b) ∈ pairs c r → agrees mode a b = true := by
  by_cases fixed : r.isWildcard
  · rw [agrees.eq_def, if_pos fixed]
    simp [fixed]
  by_cases noList : ∀ rs, r ≠ .list rs
  · by_cases bound : c.isVar
    · rw [agrees, if_neg fixed, if_pos bound]
      · simp [fixed, bound]
      · exact noList
    · rw [agrees_of_noList noList fixed bound]
      simp [fixed, bound]
  · simp only [not_forall, not_not] at noList
    obtain ⟨rs, rfl⟩ := noList
    have count : SameCount c (.list rs) := .inl rfl
    simp only [agrees_list, fixed, count, Bool.false_eq_true, false_or, true_or, true_and]

theorem not_agrees_of_clash {mode : Mode} {c r : Hint} (clash : Clash c r) :
    agrees mode c r = false := by
  rw [← Bool.not_eq_true]
  intro agree
  induction clash with
  | head fixed bound differ =>
    have step := (agrees_iff.mp agree).resolve_left fixed
    rw [if_neg bound] at step
    exact differ step.1
  | inside fixed bound place _ ih =>
    have step := (agrees_iff.mp agree).resolve_left fixed
    rw [if_neg bound] at step
    exact ih (step.2.2 _ _ place)

/-- With open places and missing arguments allowed, hints agree unless they clash. -/
theorem agrees_fallback_iff {c r : Hint} : agrees .fallback c r = true ↔ ¬ Clash c r := by
  constructor
  · intro agree clash
    rw [not_agrees_of_clash clash] at agree
    contradiction
  · intro free
    -- Hints are compared part by part, on the required side from larger to smaller.
    induction size : r.size using Nat.strongRecOn generalizing c r with
    | ind n ih =>
      rw [agrees_iff]
      by_cases fixed : r.isWildcard
      · exact .inl fixed
      · refine .inr ?_
        split
        · rfl
        · rename_i bound
          refine ⟨?_, .inr rfl, ?_⟩
          · by_contra differ
            exact free (.head fixed bound differ)
          · intro a b place
            have smaller := size_lt_of_mem_pairs place
            rw [size] at smaller
            exact ih b.size smaller (fun clash => free (.inside fixed bound place clash)) rfl

inductive Part (p : Hint) : Hint → Prop
  | self : Part p p
  | item {items : List Hint} {h : Hint} (mem : h ∈ items) (part : Part p h) : Part p (.list items)
  | argument {h a : Hint} (mem : a ∈ h.arguments) (part : Part p a) : Part p h

/-- The same type, whichever way it is spelled. -/
inductive Alike : Hint → Hint → Prop
  | intro {c r : Hint} (head : SameHead c r) (count : SameCount c r)
      (places : ∀ a b, (a, b) ∈ pairs c r → Alike a b) : Alike c r

/-- Where the hints have the same head they have as many arguments. -/
inductive Aligned : Hint → Hint → Prop
  | intro {c r : Hint} (count : SameHead c r → SameCount c r)
      (places : ∀ a b, (a, b) ∈ pairs c r → Aligned a b) : Aligned c r

theorem parts_of_mem_pairs {c r a b : Hint} (place : (a, b) ∈ pairs c r) :
    (∀ p, Part p a → Part p c) ∧ ∀ p, Part p b → Part p r := by
  unfold pairs at place
  split at place
  · obtain ⟨left, right⟩ := List.of_mem_zip place
    exact ⟨fun _ part => .item left part, fun _ part => .item right part⟩
  · split at place
    · obtain ⟨left, right⟩ := List.of_mem_zip place
      exact ⟨fun _ part => .argument left part, fun _ part => .argument right part⟩
    · contradiction

theorem clash_of_not_alike {c r : Hint} (bound : ∀ p, Part p c → ¬ p.isVar)
    (fixed : ∀ p, Part p r → ¬ p.isWildcard) (aligned : Aligned c r) (differ : ¬ Alike c r) :
    Clash c r := by
  by_contra free
  -- Without a clash the hints agree in fallback mode, which is taken apart along the alignment.
  refine differ ?_
  clear differ
  induction aligned with
  | @intro c r count places ih =>
    have agree := (agrees_iff.mp (agrees_fallback_iff.mpr free)).resolve_left (fixed r .self)
    rw [if_neg (bound c .self)] at agree
    obtain ⟨head, _, inner⟩ := agree
    refine .intro head (count head) fun a b place => ?_
    obtain ⟨left, right⟩ := parts_of_mem_pairs place
    exact ih a b place (fun p part => bound p (left p part)) (fun p part => fixed p (right p part))
      (agrees_fallback_iff.mp (inner a b place))

end Wiring.Hint
