import Mathlib.Data.List.Forall2

/-! Results that can be errors. A computation that succeeds has passed through each of its parts,
and a walk along a list succeeds exactly if every step does. -/
namespace Wiring.Outcome

variable {ε ε' α β γ : Type}

theorem bind_eq_ok {x : Except ε α} {f : α → Except ε β} {b : β} :
    x >>= f = .ok b ↔ ∃ a, x = .ok a ∧ f a = .ok b := by
  cases x <;> simp [bind, Except.bind]

theorem bind_eq_error {x : Except ε α} {f : α → Except ε β} {e : ε} :
    x >>= f = .error e ↔ x = .error e ∨ ∃ a, x = .ok a ∧ f a = .error e := by
  cases x <;> simp [bind, Except.bind]

theorem map_eq_ok {x : Except ε α} {f : α → β} {b : β} :
    f <$> x = .ok b ↔ ∃ a, x = .ok a ∧ f a = b := by
  cases x <;> simp [Functor.map, Except.map]

theorem pure_eq_ok {a b : α} : (pure a : Except ε α) = .ok b ↔ a = b := by
  simp [pure, Except.pure]

theorem mapError_eq_ok {x : Except ε α} {f : ε → ε'} {a : α} :
    x.mapError f = .ok a ↔ x = .ok a := by
  cases x <;> simp [Except.mapError]

theorem mapM_eq_ok {f : α → Except ε β} {xs : List α} {ys : List β} :
    xs.mapM f = .ok ys ↔ List.Forall₂ (fun x y => f x = .ok y) xs ys := by
  induction xs generalizing ys with
  | nil => cases ys <;> simp [pure_eq_ok]
  | cons x xs ih =>
    rw [List.mapM_cons, List.forall₂_cons_left_iff]
    simp only [bind_eq_ok, pure_eq_ok]
    constructor
    · rintro ⟨y, hy, rest, walked, rfl⟩
      exact ⟨y, rest, hy, ih.mp walked, rfl⟩
    · rintro ⟨y, rest, hy, walked, rfl⟩
      exact ⟨y, hy, rest, ih.mpr walked, rfl⟩

theorem exists_of_mem_mapM {f : α → Except ε β} {xs : List α} {ys : List β} {y : β}
    (walked : xs.mapM f = .ok ys) (mem : y ∈ ys) : ∃ x ∈ xs, f x = .ok y := by
  have steps := mapM_eq_ok.mp walked
  clear walked
  induction steps with
  | nil => contradiction
  | @cons x first xs ys made _ ih =>
    rcases List.mem_cons.mp mem with rfl | mem
    · exact ⟨x, List.mem_cons_self, made⟩
    · obtain ⟨x, listed, made⟩ := ih mem
      exact ⟨x, List.mem_cons_of_mem _ listed, made⟩

theorem exists_mem_of_mapM {f : α → Except ε β} {xs : List α} {ys : List β} {x : α}
    (walked : xs.mapM f = .ok ys) (mem : x ∈ xs) : ∃ y ∈ ys, f x = .ok y := by
  have steps := mapM_eq_ok.mp walked
  clear walked
  induction steps with
  | nil => contradiction
  | @cons first y xs ys made _ ih =>
    rcases List.mem_cons.mp mem with rfl | mem
    · exact ⟨y, List.mem_cons_self, made⟩
    · obtain ⟨y, listed, made⟩ := ih mem
      exact ⟨y, List.mem_cons_of_mem _ listed, made⟩

theorem map_eq_of_mapM {f : α → Except ε β} {before : α → γ} {after : β → γ} {xs : List α}
    {ys : List β} (walked : xs.mapM f = .ok ys)
    (kept : ∀ x y, f x = .ok y → after y = before x) : ys.map after = xs.map before := by
  have steps := mapM_eq_ok.mp walked
  induction steps with
  | nil => rfl
  | @cons x y xs ys made steps ih =>
    rw [List.map_cons, List.map_cons, kept x y made, ih (mapM_eq_ok.mpr steps)]

theorem mapM_congr {f g : α → Except ε β} {xs : List α} (same : ∀ x ∈ xs, f x = g x) :
    xs.mapM f = xs.mapM g := by
  induction xs with
  | nil => rfl
  | cons x xs ih =>
    rw [List.mapM_cons, List.mapM_cons, same x List.mem_cons_self,
      ih fun x' mem => same x' (List.mem_cons_of_mem x mem)]

theorem map_mapM (t : β → γ) (f : α → Except ε β) (xs : List α) :
    List.map t <$> xs.mapM f = xs.mapM fun x => t <$> f x := by
  induction xs with
  | nil => rfl
  | cons x xs ih =>
    rw [List.mapM_cons, List.mapM_cons, ← ih]
    cases f x with
    | error e => rfl
    | ok y => cases xs.mapM f <;> rfl

/-- Of two walks, the second may read less of the results of the first than these hold. -/
theorem mapM_mapM_congr {f g : α → Except ε β} {p : β → Except ε γ} {t : β → β} {xs : List α}
    (same : ∀ x ∈ xs, t <$> f x = t <$> g x) (reads : ∀ y, p (t y) = p y) :
    (xs.mapM f >>= List.mapM p) = (xs.mapM g >>= List.mapM p) := by
  have read (walked : Except ε (List β)) :
      (walked >>= List.mapM p) = (List.map t <$> walked) >>= List.mapM p := by
    cases walked with
    | error e => rfl
    | ok ys =>
      change ys.mapM p = (ys.map t).mapM p
      rw [List.mapM_map]
      exact mapM_congr fun y _ => (reads y).symm
  rw [read, read (xs.mapM g), map_mapM, map_mapM, mapM_congr same]

/-- A walk may leave out steps that succeed, if their results are dropped afterwards. -/
theorem filterMap_mapM {f : α → Except ε β} {u : β → Option γ} {p : α → Bool} {xs : List α}
    (dropped : ∀ x ∈ xs, ¬ p x → ∃ y, f x = .ok y ∧ u y = none) :
    List.filterMap u <$> xs.mapM f = List.filterMap u <$> (xs.filter p).mapM f := by
  induction xs with
  | nil => rfl
  | cons x xs ih =>
    have ih := ih fun x' mem => dropped x' (List.mem_cons_of_mem x mem)
    rw [List.mapM_cons, List.filter_cons]
    by_cases kept : p x
    · rw [if_pos kept, List.mapM_cons]
      cases f x with
      | error e => rfl
      | ok y =>
        change List.filterMap u <$> (List.cons y <$> xs.mapM f) =
          List.filterMap u <$> (List.cons y <$> (xs.filter p).mapM f)
        have split (walked : Except ε (List β)) : List.filterMap u <$> (List.cons y <$> walked) =
            ((u y).toList ++ ·) <$> (List.filterMap u <$> walked) := by
          cases walked with
          | error e => rfl
          | ok ys => cases made : u y <;> simp [Functor.map, Except.map, made]
        rw [split, split, ih]
    · obtain ⟨y, made, none⟩ := dropped x List.mem_cons_self kept
      rw [if_neg kept, ← ih, made]
      cases xs.mapM f with
      | error e => rfl
      | ok ys => exact congrArg Except.ok (List.filterMap_cons_none none)

def Agree (R : α → β → Prop) : Except ε α → Except ε' β → Prop
  | .ok a, .ok b => R a b
  | .error _, .error _ => True
  | _, _ => False

namespace Agree
variable {R : α → β → Prop} {x : Except ε α} {y : Except ε' β}

theorem of_ok (forth : ∀ a, x = .ok a → ∃ b, y = .ok b ∧ R a b)
    (back : ∀ b, y = .ok b → ∃ a, x = .ok a ∧ R a b) : Agree R x y := by
  cases x with
  | ok a =>
    obtain ⟨b, rfl, related⟩ := forth a rfl
    exact related
  | error e =>
    cases y with
    | ok b =>
      obtain ⟨a, same, -⟩ := back b rfl
      cases same
    | error e' => trivial

theorem ok_right {a : α} (agree : Agree R (.ok a : Except ε α) y) : ∃ b, y = .ok b ∧ R a b := by
  cases y with
  | ok b => exact ⟨b, rfl, agree⟩
  | error e => exact agree.elim

theorem error_right {e : ε} (agree : Agree R (.error e) y) : ∃ e', y = .error e' := by
  cases y with
  | ok b => exact agree.elim
  | error e' => exact ⟨e', rfl⟩

end Agree

end Wiring.Outcome
