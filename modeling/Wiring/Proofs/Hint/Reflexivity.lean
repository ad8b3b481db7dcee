import Mathlib
import Wiring.Proofs.Hint.Agreement

/-! Hints that equal and agree with themselves. A hint equals itself if the data in it does, and
without variables it also agrees with itself as an argument. -/
namespace Wiring.Hint

def children : Hint → List Hint
  | .list items => items
  | .alias _ _ args => args
  | .union _ members => members
  | .annotated inner metadata => inner :: metadata
  | _ => []

def Closed (h : Hint) : Prop := ∀ x, Part x h → ¬ x.isVar

/-- Data in the hint equals itself, as all data does in which a number is a number. -/
def Regular (h : Hint) : Prop := ∀ v, Part (.literal v) h → v.same v

theorem closed_cls (k : ClassRef) : (cls k).Closed := by
  intro x part
  cases part with
  | self => exact Bool.false_ne_true
  | argument mem _ => contradiction

theorem size_lt_of_mem_children {x h : Hint} (child : x ∈ h.children) : x.size < h.size := by
  unfold children at child
  split at child
  · have inside := size_lt_sizeAll child
    rw [size]
    omega
  · have inside := size_lt_sizeAll child
    rw [size]
    omega
  · have inside := size_lt_sizeAll child
    rw [size]
    omega
  · have inside := size_lt_sizeAll child
    rw [sizeAll] at inside
    rw [size]
    omega
  · contradiction

theorem arguments_alias {spelling : Spelling} {origin : ClassRef} {args : List Hint}
    (noCallable : origin ≠ .builtin .callable) :
    (Hint.alias spelling origin args).arguments = args := by
  cases origin with
  | declared n => rfl
  | builtin b => cases b <;> first | rfl | exact absurd rfl noCallable

theorem part_of_callable {x y : Hint} {spelling : Spelling} {args : List Hint} (mem : y ∈ args)
    (part : Part x y) : Part x (.alias spelling (.builtin .callable) args) := by
  have listed {z : Hint} (mem : z ∈ callableArguments args) (part : Part x z) :
      Part x (.alias spelling (.builtin .callable) args) := .argument mem part
  unfold callableArguments at listed
  split at listed
  · exact listed mem part
  · exact listed mem part
  · split at listed
    · rename_i result last
      obtain ⟨params, rfl⟩ := List.getLast?_eq_some_iff.mp last
      rw [List.dropLast_concat] at listed
      rcases List.mem_append.mp mem with among | isResult
      · exact listed List.mem_cons_self (.item among part)
      · exact listed (List.mem_cons_of_mem _ isResult) part
    · rename_i none
      rw [List.getLast?_eq_none_iff.mp none] at mem
      contradiction

theorem part_of_children {x y h : Hint} (child : y ∈ h.children) (part : Part x y) : Part x h := by
  cases h with
  | list items => exact .item child part
  | «alias» spelling origin args =>
    by_cases callable : origin = .builtin .callable
    · rw [callable]
      exact part_of_callable child part
    · exact .argument (by rw [arguments_alias callable]; exact child) part
  | union spelling members => exact .argument child part
  | annotated inner metadata => exact .argument child part
  | _ => contradiction

theorem Regular.child {x h : Hint} (regular : h.Regular) (child : x ∈ h.children) : x.Regular :=
  fun v part => regular v (part_of_children child part)

theorem Closed.child {x h : Hint} (closed : h.Closed) (child : x ∈ h.children) : x.Closed :=
  fun y part => closed y (part_of_children child part)

theorem sameAll_self {hs : List Hint} (each : ∀ h ∈ hs, h.same h) : sameAll hs hs := by
  induction hs with
  | nil => rw [sameAll]
  | cons h hs ih =>
    rw [sameAll, each h List.mem_cons_self, Bool.true_and]
    exact ih fun h' mem => each h' (List.mem_cons_of_mem _ mem)

theorem coveredBy_of_mem {xs ys : List Hint} (each : ∀ x ∈ xs, x ∈ ys ∧ x.same x) :
    coveredBy xs ys := by
  induction xs with
  | nil => rw [coveredBy]
  | cons x xs ih =>
    obtain ⟨mem, self⟩ := each x List.mem_cons_self
    rw [coveredBy, List.any_eq_true.mpr ⟨x, mem, self⟩, Bool.true_and]
    exact ih fun x' mem => each x' (List.mem_cons_of_mem _ mem)

theorem covers_of_mem {xs : List Hint} {y : Hint} (mem : y ∈ xs) (self : y.same y) :
    covers xs y := by
  induction xs with
  | nil => contradiction
  | cons x xs ih =>
    rw [covers, Bool.or_eq_true]
    rcases List.mem_cons.mp mem with rfl | later
    · exact .inl self
    · exact .inr (ih later)

theorem same_self {h : Hint} (regular : h.Regular) : h.same h := by
  induction size : h.size using Nat.strong_induction_on generalizing h with
  | h n ih =>
    subst size
    have each : ∀ x ∈ h.children, x.same x := fun x child =>
      ih x.size (size_lt_of_mem_children child) (regular.child child) rfl
    cases h with
    | list items =>
      rw [same]
      exact sameAll_self each
    | «alias» spelling origin args =>
      have comparable : spelling.comparable spelling := by cases spelling <;> rfl
      simp only [same, comparable, beq_self_eq_true, Bool.true_and]
      exact sameAll_self each
    | union spelling members =>
      have covered : coveredBy members members := coveredBy_of_mem fun x mem => ⟨mem, each x mem⟩
      rw [same, covered, Bool.true_and]
      exact List.all_eq_true.mpr fun x mem => covers_of_mem mem (each x mem)
    | annotated inner metadata =>
      rw [same, each inner List.mem_cons_self, Bool.true_and]
      exact sameAll_self fun x mem => each x (List.mem_cons_of_mem _ mem)
    | literal v =>
      rw [same]
      exact regular v .self
    | _ => simp [same]

theorem raw_same_self {h : Hint} (closed : h.Closed) (regular : h.Regular) : h.raw.same h.raw := by
  induction size : h.size using Nat.strong_induction_on generalizing h with
  | h n ih =>
    subst size
    cases h with
    | var id name bound => exact absurd rfl (closed _ .self)
    | annotated inner metadata =>
      have child : inner ∈ (annotated inner metadata).children := List.mem_cons_self
      rw [raw]
      exact ih inner.size (size_lt_of_mem_children child) (closed.child child)
        (regular.child child) rfl
    | union spelling members => cases spelling <;> simp [raw, same]
    | «alias» spelling origin args => simp [raw, same]
    | bare origin => simp [raw, same]
    | _ => exact same_self regular

theorem Closed.argument {x h : Hint} (closed : h.Closed) (mem : x ∈ h.arguments) : x.Closed :=
  fun y part => closed y (.argument mem part)

theorem Regular.argument {x h : Hint} (regular : h.Regular) (mem : x ∈ h.arguments) : x.Regular :=
  fun v part => regular v (.argument mem part)

theorem eq_of_mem_zip_self {α : Type} {as : List α} {a b : α} (mem : (a, b) ∈ as.zip as) :
    a = b ∧ a ∈ as := by
  obtain ⟨i, found⟩ := List.mem_iff_getElem?.mp mem
  obtain ⟨first, second⟩ := List.getElem?_zip_eq_some.mp found
  cases first.symm.trans second
  exact ⟨rfl, List.mem_of_getElem? first⟩

theorem pairs_self (h : Hint) :
    pairs h h = h.children.zip h.children ∨ pairs h h = h.arguments.zip h.arguments := by
  cases h with
  | list items => exact .inl rfl
  | _ => exact .inr (by simp [pairs])

theorem agrees_self {mode : Mode} {h : Hint} (closed : h.Closed) (regular : h.Regular) :
    agrees mode h h := by
  induction size : h.size using Nat.strong_induction_on generalizing h with
  | h n ih =>
    subst size
    have bound : ¬ h.isVar := closed h .self
    have head : SameHead h h := by
      unfold SameHead
      split
      · exact ⟨_, rfl, rfl⟩
      · split
        · exact .inl (same_self regular)
        · exact raw_same_self closed regular
    refine agrees_iff.mpr (.inr ?_)
    rw [if_neg bound]
    refine ⟨head, .inl (.inr rfl), fun a b place => ?_⟩
    have smaller := size_lt_of_mem_pairs place
    rcases pairs_self h with items | arguments
    · rw [items] at place
      obtain ⟨rfl, mem⟩ := eq_of_mem_zip_self place
      exact ih a.size smaller (closed.child mem) (regular.child mem) rfl
    · rw [arguments] at place
      obtain ⟨rfl, mem⟩ := eq_of_mem_zip_self place
      exact ih a.size smaller (closed.argument mem) (regular.argument mem) rfl

end Wiring.Hint
