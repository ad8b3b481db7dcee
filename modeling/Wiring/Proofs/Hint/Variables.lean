import Mathlib
import Wiring.Hint.Substitution
import Wiring.Proofs.Hint.Unions

/-! The variables of hints: those that are collected as parameters, and where they stand. -/
namespace Wiring.Hint

def freeVariables (h : Hint) : List Hint := if h.isVar then [h] else h.parameters

/-- The variable stands in the hint where something can be put in. The data of an annotation stay as
they are. -/
inductive Occurs (v : Hint) : Hint → Prop
  | self (isVar : v.isVar) : Occurs v v
  | argument {spelling : Spelling} {origin : ClassRef} {args : List Hint} {a : Hint}
      (mem : a ∈ args) (inside : Occurs v a) : Occurs v (.alias spelling origin args)
  | member {spelling : UnionSpelling} {members : List Hint} {m : Hint}
      (mem : m ∈ members) (inside : Occurs v m) : Occurs v (.union spelling members)
  | inner {inner : Hint} {metadata : List Hint} (inside : Occurs v inner) :
      Occurs v (.annotated inner metadata)

section
variable {h : Hint}

theorem exists_of_isVar (isVar : h.isVar) : ∃ id name bound, h = .var id name bound := by
  cases h <;> first | exact ⟨_, _, _, rfl⟩ | cases isVar

theorem argumentParameters_cons (h : Hint) (hs : List Hint) : argumentParameters (h :: hs) =
    h.freeVariables ++ (argumentParameters hs).filter fun v => !h.freeVariables.any (·.same v) := by
  cases h <;> simp [argumentParameters, freeVariables, isVar]

theorem collected_argumentParameters {hs : List Hint}
    (each : ∀ h ∈ hs, (∀ v ∈ h.parameters, v.isVar) ∧ Distinct h.parameters) :
    (∀ v ∈ argumentParameters hs, v.isVar) ∧ Distinct (argumentParameters hs) := by
  induction hs with
  | nil => exact ⟨by simp [argumentParameters], List.Pairwise.nil⟩
  | cons h hs ih =>
    obtain ⟨own, rest⟩ := List.forall_mem_cons.mp each
    obtain ⟨vars, distinct⟩ := ih rest
    have first : (∀ v ∈ h.freeVariables, v.isVar) ∧ Distinct h.freeVariables := by
      unfold freeVariables
      split
      · rename_i isVar
        exact ⟨List.forall_mem_singleton.mpr isVar, List.pairwise_singleton _ _⟩
      · exact own
    rw [argumentParameters_cons]
    constructor
    · intro v mem
      rcases List.mem_append.mp mem with here | later
      · exact first.1 v here
      · exact vars v (List.mem_of_mem_filter later)
    · refine List.pairwise_append.mpr ⟨first.2, distinct.filter _, fun u mem v kept => ?_⟩
      have new := (List.mem_filter.mp kept).2
      simp only [Bool.not_eq_true', List.any_eq_false] at new
      exact new u mem

theorem collected_parameters (h : Hint) :
    (∀ v ∈ h.parameters, v.isVar) ∧ Distinct h.parameters := by
  induction h using inductionOnChildren with
  | step h ih =>
    cases h with
    | «alias» spelling origin args => exact collected_argumentParameters ih
    | union spelling members => exact collected_argumentParameters ih
    | annotated inner metadata =>
      have own := ih inner List.mem_cons_self
      cases inner with
      | var id name bound => simp [parameters, isVar, Distinct]
      | _ => exact own
    | _ => exact ⟨by simp [parameters], List.Pairwise.nil⟩

theorem isOpen_iff : h.isOpen ↔ h.freeVariables ≠ [] := by
  unfold isOpen freeVariables
  by_cases isVar : h.isVar <;> simp [isVar]

theorem argumentParameters_ne_nil {hs : List Hint} :
    argumentParameters hs ≠ [] ↔ ∃ h ∈ hs, h.isOpen := by
  induction hs with
  | nil => simp [argumentParameters]
  | cons h hs ih =>
    rw [List.exists_mem_cons_iff, ← ih, isOpen_iff, argumentParameters_cons]
    by_cases own : h.freeVariables = []
    · simp [own]
    · simp [own]

theorem isOpen_alias {spelling : Spelling} {origin : ClassRef} {args : List Hint} :
    («alias» spelling origin args).isOpen ↔ ∃ a ∈ args, a.isOpen := by
  rw [← argumentParameters_ne_nil]
  simp [isOpen, isVar, parameters]

theorem isOpen_union {spelling : UnionSpelling} {members : List Hint} :
    (union spelling members).isOpen ↔ ∃ m ∈ members, m.isOpen := by
  rw [← argumentParameters_ne_nil]
  simp [isOpen, isVar, parameters]

theorem isOpen_annotated {inner : Hint} {metadata : List Hint} :
    (annotated inner metadata).isOpen ↔ inner.isOpen := by
  cases inner <;> simp [isOpen, isVar, parameters]

theorem Occurs.isVar {v : Hint} (occurs : Occurs v h) : v.isVar := by
  induction occurs with
  | self isVar => exact isVar
  | argument _ _ ih => exact ih
  | member _ _ ih => exact ih
  | inner _ ih => exact ih

theorem exists_occurs (free : h.isOpen) : ∃ v, Occurs v h := by
  induction h using inductionOnChildren with
  | step h ih =>
    cases h with
    | var id name bound => exact ⟨_, .self rfl⟩
    | «alias» spelling origin args =>
      obtain ⟨a, mem, free⟩ := isOpen_alias.mp free
      obtain ⟨v, inside⟩ := ih a mem free
      exact ⟨v, .argument mem inside⟩
    | union spelling members =>
      obtain ⟨m, mem, free⟩ := isOpen_union.mp free
      obtain ⟨v, inside⟩ := ih m mem free
      exact ⟨v, .member mem inside⟩
    | annotated inner metadata =>
      obtain ⟨v, inside⟩ := ih inner List.mem_cons_self (isOpen_annotated.mp free)
      exact ⟨v, .inner inside⟩
    | _ => cases free

end

end Wiring.Hint
