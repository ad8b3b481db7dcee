import Mathlib
import Wiring.Class.Application
import Wiring.Proofs.Class.Ancestry
import Wiring.Proofs.Hint.Congruence
import Wiring.Proofs.Registry.Separation

/-! Strict matching is invariant. The arguments a candidate supplies to the required class have to
be the required ones, at every depth; only a requirement that has no arguments is satisfied by any. -/
namespace Wiring

namespace World
variable {w : World} {G : ClassRef} {candidate required : Hint} {arguments : List Hint}

/-- A class or form that stands without the arguments it can take. Unions in bar spelling are the
arguments of a class of their own. -/
def RawGeneric (w : World) (h : Hint) : Prop :=
  h = .cls (.builtin .unionType) ∨ ∃ args made, w.parameterize h args = .ok made

/-- What is parameterized somewhere in the hint can take arguments, and nothing is annotated. -/
def Ordinary (w : World) (h : Hint) : Prop :=
  ∀ p, Hint.Part p h → ¬ p.isAnnotated ∧ ∀ o ∈ p.origin?, w.RawGeneric o

/-- Nowhere in the hint stands a wildcard, a generic class without arguments, or an annotation. -/
def Exact (w : World) (h : Hint) : Prop :=
  ∀ p, Hint.Part p h → ¬ p.isWildcard ∧ ¬ p.isAnnotated ∧ ¬ w.RawGeneric p

theorem part_cls {p : Hint} {k : ClassRef} (part : Hint.Part p (.cls k)) : p = .cls k := by
  cases part with
  | self => rfl
  | argument mem _ => contradiction

theorem exact_cls {k : ClassRef} (fixed : k ≠ .builtin .any) (other : k ≠ .builtin .unionType)
    (whole : w.brackets? k = none) : w.Exact (.cls k) := by
  intro p part
  rw [part_cls part]
  refine ⟨?_, Bool.false_ne_true, ?_⟩
  · unfold Hint.isWildcard Hint.isAny Hint.isVar
    split <;> simp_all
  · rintro (same | ⟨args, made, applied⟩)
    · cases same
      exact other rfl
    · simp [parameterize, applyClass, whole] at applied

theorem raw_eq {h : Hint} (bound : ¬ h.isVar) (plain : ¬ h.isAnnotated) :
    h.raw = h ∨ h.origin? = some h.raw := by
  cases h with
  | var id name bound' => exact absurd rfl bound
  | annotated inner metadata => exact absurd rfl plain
  | union spelling members => cases spelling <;> exact .inr rfl
  | «alias» spelling origin args => exact .inr rfl
  | bare origin => exact .inr rfl
  | _ => exact .inl rfl

theorem same_of_raw_same {a b : Hint} (bound : ¬ a.isVar) (ordinary : w.Ordinary a)
    (exact : w.Exact b) (equal : a.raw.same b) : a.same b := by
  obtain ⟨unwrapped, generic⟩ := ordinary a .self
  rcases raw_eq bound unwrapped with whole | origin
  · rw [whole] at equal
    exact equal
  · have atomic : a.raw.isAtomic := by
      cases a with
      | var id name bound' => exact absurd rfl bound
      | annotated inner metadata => exact absurd rfl unwrapped
      | union spelling members => cases spelling <;> rfl
      | cls k => rfl
      | «alias» spelling k args => rfl
      | bare k => rfl
      | _ => cases origin
    rw [Hint.same_atomic atomic] at equal
    exact absurd (generic a.raw origin) (equal ▸ (exact b .self).2.2)

theorem agrees_strict_iff_of_exact {c r : Hint} (ordinary : w.Ordinary c) (exact : w.Exact r) :
    Hint.agrees .strict c r ↔ Hint.Congruent c r := by
  refine Hint.agrees_strict_iff (fun b part => (exact b part).1) fun a b left right bound => ?_
  exact same_of_raw_same bound (fun p part => ordinary p (part.trans left))
    fun p part => exact p (part.trans right)

theorem agreesAll_strict_iff {cs rs : List Hint} (count : cs.length = rs.length)
    (ordinary : ∀ c ∈ cs, w.Ordinary c) (exact : ∀ r ∈ rs, w.Exact r) :
    Hint.agreesAll .strict cs rs ↔ List.Forall₂ Hint.Congruent cs rs := by
  rw [Hint.agreesAll_eq_true, List.forall₂_iff_zip]
  have each (a b : Hint) (place : (a, b) ∈ cs.zip rs) :
      Hint.agrees .strict a b ↔ Hint.Congruent a b := by
    obtain ⟨left, right⟩ := List.of_mem_zip place
    exact agrees_strict_iff_of_exact (ordinary a left) (exact b right)
  exact ⟨fun all => ⟨count, fun {a b} place => (each a b place).mp (all a b place)⟩,
    fun ⟨_, all⟩ a b place => (each a b place).mpr (all place)⟩

theorem derives_of_supplied (inherits : w.Inherits) (known : w.Knows G)
    (supplied : w.genericArguments G candidate = .ok (some arguments)) :
    ∃ K, candidate.raw = .cls K ∧ w.derives K G := by
  have own : w.derives G G := List.contains_iff_mem.mpr (inherits G known).own
  induction candidate using Hint.inductionOnChildren with
  | step h ih =>
    unfold genericArguments at supplied
    split at supplied
    · rename_i inner metadata
      exact ih inner List.mem_cons_self supplied
    · split at supplied
      · rename_i isUnion
        rw [isUnion] at own
        exact ⟨.builtin .unionType, rfl, isUnion ▸ own⟩
      · cases supplied
    · rename_i unwrapped noBar
      split at supplied
      · rename_i c found
        refine ⟨c, ?_, ?_⟩
        · cases h with
          | annotated inner metadata => exact absurd rfl (unwrapped inner metadata)
          | union spelling members =>
            cases spelling with
            | typing => cases found
            | bar => exact absurd rfl (noBar members)
          | cls k => cases k with
            | declared n => exact found
            | builtin b => cases b <;> exact found
          | «alias» spelling origin args => exact found
          | bare origin => exact found
          | _ => cases found
        · by_contra apart
          split at supplied
          · rename_i here
            simp only [Bool.and_eq_true, beq_iff_eq] at here
            exact apart (here.2 ▸ own)
          · rw [Bool.not_eq_true] at apart
            simp [apart] at supplied
      · cases supplied

/-- A candidate matches strictly just if it is assignable and, unless no arguments are required,
supplies arguments that are the same types, place by place. Then its class derives the required one,
and its arguments have no variables. -/
theorem matchesHint_strict (inherits : w.Inherits) (known : w.Knows G)
    (wants : required.raw = .cls G) (exact : ∀ r ∈ required.arguments, w.Exact r)
    (ordinary : ∀ arguments, w.genericArguments G candidate = .ok (some arguments) →
      ∀ a ∈ arguments, w.Ordinary a) :
    (w.matchesHint .strict candidate required = .ok true ↔
      ¬ candidate.isVar ∧ w.assignable candidate required ∧
        (required.arguments = [] ∨ ∃ arguments,
          w.genericArguments G candidate = .ok (some arguments) ∧
          List.Forall₂ Hint.Congruent arguments required.arguments)) ∧
    (required.arguments ≠ [] → w.matchesHint .strict candidate required = .ok true →
      ∃ K arguments, candidate.raw = .cls K ∧ w.derives K G ∧
        w.genericArguments G candidate = .ok (some arguments) ∧ (∀ a ∈ arguments, a.Closed) ∧
        List.Forall₂ Hint.Congruent arguments required.arguments) := by
  have strict : w.matchesHint .strict candidate required = .ok true ↔
      ¬ candidate.isVar ∧ w.assignable candidate required ∧
        (required.arguments = [] ∨ ∃ arguments,
          w.genericArguments G candidate = .ok (some arguments) ∧
          List.Forall₂ Hint.Congruent arguments required.arguments) := by
    by_cases bound : candidate.isVar
    · simp [matchesHint, bound, Mode.accepts, pure, Except.pure]
    by_cases assignable : w.assignable candidate required
    · by_cases none : required.arguments = []
      · simp [matchesHint, bound, assignable, none, pure, Except.pure]
      have fixed : required.arguments.all Hint.isWildcard = false := by
        obtain ⟨r, mem⟩ := List.exists_mem_of_ne_nil _ none
        exact List.all_eq_false.mpr ⟨r, mem, (exact r mem r .self).1⟩
      simp only [bound, assignable, none, false_or, not_false_eq_true, true_and,
        Bool.false_eq_true]
      cases searched : w.genericArguments G candidate with
      | error fault =>
        have refused : w.argumentsFor required.raw candidate = .error fault := by
          rw [wants]
          exact searched
        simp [matchesHint, bound, assignable, fixed, refused, Bind.bind, Except.bind]
      | ok supplied =>
        rw [matchesHint_eq wants searched bound assignable, fixed, Bool.false_or]
        cases supplied with
        | none => simp [Mode.accepts]
        | some arguments =>
          by_cases count : arguments.length = required.arguments.length
          · simp [count, agreesAll_strict_iff count (ordinary arguments searched) exact]
          · have differ : ¬ List.Forall₂ Hint.Congruent arguments required.arguments :=
              fun congruent => count congruent.length_eq
            simp [count, differ, Mode.accepts]
    · simp [matchesHint, bound, assignable, pure, Except.pure]
  refine ⟨strict, fun some matched => ?_⟩
  obtain ⟨-, -, found⟩ := strict.mp matched
  obtain ⟨arguments, supplied, congruent⟩ := found.resolve_left some
  obtain ⟨K, cls, derives⟩ := derives_of_supplied inherits known supplied
  refine ⟨K, arguments, cls, derives, supplied, fun a mem => ?_, congruent⟩
  obtain ⟨r, listed, congruent⟩ := exists_right_of_mem congruent mem
  refine congruent.closed fun p part isVar => (exact r listed p part).1 ?_
  simp [Hint.isWildcard, isVar]

end World

/-! Tuples. One of numbers and texts is no candidate for any other such tuple, but the requirement
of an empty tuple is taken for one of any tuple. -/
namespace Tuples

def int : Hint := .cls (.builtin .int)

def str : Hint := .cls (.builtin .str)

def tuple (items : List Hint) : Hint := .alias .plain (.builtin .tuple) items

def plain : World where
  moduleName := "tuples"

theorem supplied (items : List Hint) :
    plain.genericArguments (.builtin .tuple) (tuple items) = .ok (some items) := rfl

theorem exact_data : ∀ h ∈ [int, str], plain.Exact h := by
  simp only [List.forall_mem_cons, List.not_mem_nil, false_implies, implies_true, and_true]
  exact ⟨World.exact_cls (by decide) (by decide) (by decide),
    World.exact_cls (by decide) (by decide) (by decide)⟩

theorem ordinary_data : ∀ h ∈ [int, str], plain.Ordinary h := by
  simp only [List.forall_mem_cons, List.not_mem_nil, false_implies, implies_true, and_true]
  constructor
  · rintro p part
    rw [World.part_cls part]
    exact ⟨by decide, by rintro o ⟨⟩⟩
  · rintro p part
    rw [World.part_cls part]
    exact ⟨by decide, by rintro o ⟨⟩⟩

theorem congruent_cls (k : ClassRef) : Hint.Congruent (.cls k) (.cls k) :=
  .intro (.inl (by simp [Hint.same])) (fun _ => by simp [Hint.same]) (.inl rfl) fun a b place => by
    cases place

theorem pair_matched :
    plain.matchesHint .strict (tuple [int, str]) (tuple [int, str]) = .ok true ∧
    plain.matchesHint .strict (tuple [int, str]) (tuple [str, int]) ≠ .ok true := by
  have ordinary (arguments : List Hint)
      (given : plain.genericArguments (.builtin .tuple) (tuple [int, str]) = .ok (some arguments)) :
      ∀ a ∈ arguments, plain.Ordinary a := by
    cases (supplied [int, str]).symm.trans given
    exact ordinary_data
  have turned : ∀ h ∈ [str, int], plain.Exact h := by simpa [and_comm] using exact_data
  have tuples (items : List Hint) : (tuple items).raw = .cls (.builtin .tuple) := rfl
  have inherits : plain.Inherits := World.inherits_new _
  have known : plain.Knows (.builtin .tuple) := trivial
  have alike := World.matchesHint_strict inherits known (tuples [int, str]) exact_data ordinary
  have apart := World.matchesHint_strict inherits known (tuples [str, int]) turned ordinary
  constructor
  · refine alike.1.mpr ⟨by decide, by cbv, .inr ⟨_, supplied _, ?_⟩⟩
    exact .cons (congruent_cls _) (.cons (congruent_cls _) .nil)
  · intro matched
    obtain ⟨K, arguments, -, -, given, -, congruent⟩ := apart.2 (by rintro ⟨⟩) matched
    cases (supplied [int, str]).symm.trans given
    cases congruent with
    | cons first _ =>
      obtain ⟨-, equal, -, -⟩ := first
      exact absurd (equal rfl) (by simp [int, str, Hint.same])

theorem empty_matched : plain.matchesHint .strict (tuple [int]) (tuple []) = .ok true ∧
    plain.genericArguments (.builtin .tuple) (tuple [int]) = .ok (some [int]) ∧
    ¬ List.Forall₂ Hint.Congruent [int] (tuple []).arguments := by
  have matched : plain.matchesHint .strict (tuple [int]) (tuple []) = .ok true := by cbv
  exact ⟨matched, rfl, by rintro ⟨⟩⟩

end Tuples
end Wiring
