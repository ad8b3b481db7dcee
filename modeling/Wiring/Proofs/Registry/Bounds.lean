import Wiring.Proofs.Registry.Fallback
import Wiring.Proofs.Registry.Packaging
import Wiring.Proofs.Registry.Reception

/-! What a request for a type variable with a bound asks for. Looking candidates up takes the bound
apart down to its class, but comparing them with the request takes off the variable only, so the
two agree exactly if the bound is a class. A bound with type arguments is then no class, and no
candidate that declares a class compares with it. -/
namespace Wiring

namespace Hint

theorem eq_cls_of_raw {B : Hint} {k j : ClassRef} (raw : B.raw = .cls k) (cls : B = .cls j) :
    B = .cls k := by
  rw [cls] at raw ⊢
  exact raw

theorem not_same_cls {B : Hint} (noClass : ∀ j, B ≠ .cls j) (k : ClassRef) :
    (Hint.cls k).same B = false := by
  cases B with
  | cls j => exact absurd rfl (noClass j)
  | _ => simp [same]

end Hint

namespace World
variable {w : World} {B : Hint} {k : ClassRef} {id : Nat} {name : String}

theorem isSubclass_of_noClass (noClass : ∀ j, B ≠ .cls j) (candidate : Hint) :
    w.isSubclass candidate B = candidate.same B := by
  unfold isSubclass
  split
  · exact absurd rfl (noClass _)
  · exact absurd rfl (noClass _)
  · exact absurd rfl (noClass _)
  · rfl

/-- A variable takes no arguments, so what is compared with it is the class alone. -/
theorem matchesHint_var (mode : Mode) (candidate : Hint) :
    w.matchesHint mode candidate (.var id name (some B)) = .ok
      (if candidate.isVar then mode.accepts else w.isSubclass candidate.raw B) := by
  have assignable : w.assignable candidate (.var id name (some B)) =
      (candidate.isVar || w.isSubclass candidate.raw B) := rfl
  unfold matchesHint
  rw [assignable]
  by_cases bound : candidate.isVar
  · simp [bound, pure, Except.pure]
  · simp [bound, Hint.arguments, pure, Except.pure]
    grind

theorem open_or_same_of_matchesHint (noClass : ∀ j, B ≠ .cls j) {mode : Mode} {candidate : Hint}
    (matched : w.matchesHint mode candidate (.var id name (some B)) = .ok true) :
    candidate.isVar ∨ candidate.raw.same B := by
  rw [matchesHint_var, Except.ok.injEq] at matched
  by_cases bound : candidate.isVar
  · exact .inl bound
  · rw [if_neg bound, isSubclass_of_noClass noClass] at matched
    exact .inr matched

theorem assignable_bound_iff (raw : B.raw = .cls k) (own : w.derives k k) :
    (∀ candidate, w.assignable candidate (Hint.raw (.var id name (some B))) =
      w.assignable candidate (.var id name (some B))) ↔ B = .cls k := by
  constructor
  · intro agree
    by_contra differ
    have noClass (j : ClassRef) : B ≠ .cls j := mt (Hint.eq_cls_of_raw raw) differ
    have looked : w.assignable (.cls k) (Hint.raw (.var id name (some B))) = true := by
      change (false || w.isSubclass (.cls k) B.raw) = true
      rw [raw, isSubclass_of_derives own]
      rfl
    have compared : w.assignable (.cls k) (.var id name (some B)) = false := by
      change (false || w.isSubclass (.cls k) B) = false
      rw [isSubclass_of_noClass noClass, Hint.not_same_cls noClass]
      rfl
    rw [agree, compared] at looked
    cases looked
  · rintro rfl candidate
    rfl

end World

namespace Resolution

theorem found_answering (answer : Resolution) (q : Request) :
    (answer.answering q).found = answer.found := by
  unfold answering
  split
  · exact Registry.found_nothing q
  · exact Registry.found_nothing q
  · rfl
  · rfl

end Resolution

namespace Request

def wanting (q : Request) (type : Hint) : Request := { q with type }

end Request

namespace Registry
variable {r : Registry} {s : Settings} {w : World} {h : Heap} {q : Request} {k : ClassRef}
  {B : Hint}

theorem resolve_declared (own : w.derives k k) (s : Settings) (h : Heap) {c : Candidate}
    (injectable : c.injectable) (declared : c.declaredType = .cls k) (wants : q.type = .cls k)
    (unqualified : q.qualifier = none) (multiple : q.cardinality.isMultiple) :
    ∃ found, Registry.resolve { entries := [c] } s w h q = .ok (.values found) ∧ c ∈ found := by
  have subclass := World.isSubclass_of_derives own
  have lookup : Registry.eligible { entries := [c] } w h q.type = .ok [c] := by
    have assignable : w.assignable c.declaredType (.cls k) := by
      rw [declared]
      exact subclass
    simp [Registry.eligible, wants, injectable, assignable, Hint.raw, Registry.participants,
      Bind.bind, Except.bind, pure, Except.pure]
  have best : c ∈ q.best w [c] :=
    (Request.mem_best_cls wants unqualified declared List.mem_cons_self).mpr subclass
  obtain ⟨found, answer, mem⟩ := (Request.mem_multiple (s := s)).mpr best
  refine ⟨found, (resolve_eq_ok lookup).mpr ⟨?_, ?_⟩, mem⟩
  · exact Request.answerable_cls wants unqualified _
  · rw [Request.answer, if_pos multiple, answer]

/-- A list for a type variable holds the same candidates as one for the class of its bound, in
every registry, exactly if the bound is that class; and exactly then candidates are looked up by
the type that they are compared with. All requests for the variable are then answered as those for
the class. If the bound is no class, only those candidates are found that are variables themselves
or stand for a hint that is the same as the bound. -/
theorem resolve_bound (raw : B.raw = .cls k) (own : w.derives k k) (id : Nat) (name : String) :
    let T := Hint.var id name (some B)
    ((∀ candidate, w.assignable candidate T.raw = w.assignable candidate T) ↔ B = .cls k) ∧
    ((∀ (r : Registry) s h (q : Request), q.cardinality.isMultiple →
      (r.resolve s w h (q.wanting T)).map (·.found) =
        (r.resolve s w h (q.wanting (.cls k))).map (·.found)) ↔ B = .cls k) ∧
    (B = .cls k → ∀ (r : Registry) s h (q : Request), r.resolve s w h (q.wanting T) =
      (r.resolve s w h (q.wanting (.cls k))).map (·.answering (q.wanting T))) ∧
    (B ≠ .cls k → ∀ (r : Registry) s h (q : Request) answer,
      r.resolve s w h (q.wanting T) = .ok answer →
        ∀ c ∈ answer.found, c.declaredType.isVar ∨ c.declaredType.raw.same B) := by
  intro T
  have alike (cls : B = .cls k) (r : Registry) (s h) (q : Request) :
      r.resolve s w h (q.wanting T) =
        (r.resolve s w h (q.wanting (.cls k))).map (·.answering (q.wanting T)) := by
    have same : T = .var id name (some (.cls k)) := congrArg (Hint.var id name ∘ some) cls
    rw [same]
    exact resolve_of_compares rfl (fun _ _ => rfl) rfl rfl rfl
  have few (differ : B ≠ .cls k) (r : Registry) (s h) (q : Request) (answer)
      (resolved : r.resolve s w h (q.wanting T) = .ok answer) :
      ∀ c ∈ answer.found, c.declaredType.isVar ∨ c.declaredType.raw.same B := by
    intro c mem
    obtain ⟨mode, matched⟩ := matchesHint_of_mem_found resolved mem
    have noClass (j : ClassRef) : B ≠ .cls j := mt (Hint.eq_cls_of_raw raw) differ
    exact World.open_or_same_of_matchesHint noClass matched
  refine ⟨World.assignable_bound_iff raw own, ⟨fun agree => ?_, fun cls r s h q _ => ?_⟩, alike,
    few⟩
  · by_contra differ
    -- A candidate that declares the class is found for the class, but not for the variable.
    have noClass (j : ClassRef) : B ≠ .cls j := mt (Hint.eq_cls_of_raw raw) differ
    let c : Candidate := { name := "", declaredType := .cls k }
    let q : Request := { type := .cls k, cardinality := .orderedList }
    obtain ⟨found, resolved, mem⟩ := resolve_declared (c := c) (q := q) own {} [] rfl rfl rfl rfl rfl
    have same := agree { entries := [c] } {} [] q rfl
    rw [show q.wanting (.cls k) = q from rfl, resolved] at same
    obtain ⟨answer, answered, listed⟩ := Outcome.map_eq_ok.mp same
    rcases few differ _ _ _ _ _ answered c (listed ▸ mem) with isVar | same
    · cases isVar
    · exact Bool.false_ne_true ((Hint.not_same_cls noClass k).symm.trans same)
  · rw [alike cls]
    cases r.resolve s w h (q.wanting (.cls k)) with
    | error e => rfl
    | ok answer => exact congrArg Except.ok (answer.found_answering _)

end Registry

/-! A list for a variable that is bounded by archives holds the archives. A list for one that is
bounded by archives of numbers holds nothing, not even the archive that declares just that. -/
namespace Archive
open Run

def bounded (bound : Hint) : Hint := .var 2 "A" (some bound)

def list : Request where
  type := .cls (.declared 0)
  cardinality := .orderedList
  required := false

theorem archives_bounded : Hint.raw (.cls (.declared 0)) = .cls (.declared 0) ∧
    now.world.derives (.declared 0) (.declared 0) ∧
    now.resolve "main" (list.wanting (bounded (.cls (.declared 0)))) =
      .ok (.values [strict, raw]) := by
  have own : now.world.derives (.declared 0) (.declared 0) := by rfl
  have all : now.resolve "main" (list.wanting (.cls (.declared 0))) =
      .ok (.values [strict, raw]) := by cbv
  obtain ⟨-, -, alike, -⟩ :=
    Registry.resolve_bound (B := .cls (.declared 0)) (k := .declared 0) rfl own 2 "A"
  refine ⟨rfl, own, ?_⟩
  rw [Store.resolve] at all ⊢
  rw [bounded, alike rfl, all]
  rfl

theorem numbers_unbounded : Operation.runAll "main" operations store = (history, now) ∧
    Hint.raw numbers = .cls (.declared 0) ∧ strict.declaredType = numbers ∧
    (now.registry "main").eligible now.world now.heap (bounded numbers) = .ok [strict, raw] ∧
    now.resolve "main" (list.wanting (.cls (.declared 0))) = .ok (.values [strict, raw]) ∧
    now.resolve "main" (list.wanting (bounded numbers)) = .ok .empty := by
  have looked : (now.registry "main").eligible now.world now.heap (bounded numbers) =
      .ok [strict, raw] := by cbv
  have all : now.resolve "main" (list.wanting (.cls (.declared 0))) =
      .ok (.values [strict, raw]) := by cbv
  have none : now.resolve "main" (list.wanting (bounded numbers)) = .ok .empty := by cbv
  exact ⟨runAll_archives, rfl, rfl, looked, all, none⟩

end Archive
end Wiring
