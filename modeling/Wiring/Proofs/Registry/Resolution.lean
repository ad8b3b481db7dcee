import Wiring.Registry.Resolution
import Wiring.Proofs.Outcome

/-! What a request resolves to. Whatever is found has been accepted, strictly or in fallback mode,
and a failure is about the request it answers. -/
namespace Wiring

namespace Registry

variable {r : Registry} {s : Settings} {w : World} {h : Heap}

theorem single_failure {q : Request} {cs : List Candidate} {f : Failure}
    (failed : q.single cs = .failure f) :
    f = .notFound q ∨ ∃ tied, f = .ambiguous q tied := by
  unfold Request.single Request.nothing at failed
  repeat' split at failed
  all_goals first
    | cases failed; exact .inl rfl
    | cases failed; exact .inr ⟨_, rfl⟩
    | contradiction

theorem multiple_failure {q : Request} {cs : List Candidate} {f : Failure}
    (failed : q.multiple s cs = .failure f) : f = .notFound q := by
  unfold Request.multiple Request.nothing at failed
  repeat' split at failed
  all_goals first
    | cases failed; rfl
    | contradiction

theorem resolve_failure {q : Request} {f : Failure}
    (failed : r.resolve s w h q = .ok (.failure f)) :
    f = .notFound q ∨ ∃ tied, f = .ambiguous q tied := by
  obtain ⟨cs, _, answer⟩ := Outcome.bind_eq_ok.mp failed
  have answer := Outcome.pure_eq_ok.mp answer
  split at answer
  · exact .inl (multiple_failure answer)
  · exact single_failure answer

theorem found_nothing (q : Request) : q.nothing.found = [] := by
  unfold Request.nothing
  split <;> rfl

theorem mem_of_filter_eq {P : Candidate → Bool} {cs : List Candidate} {c c' : Candidate}
    (only : cs.filter P = [c']) (mem : c ∈ [c']) : c ∈ cs := by
  rw [← only] at mem
  exact List.mem_of_mem_filter mem

theorem mem_of_mem_single {q : Request} {cs : List Candidate} {c : Candidate}
    (mem : c ∈ (q.single cs).found) : c ∈ cs := by
  unfold Request.single at mem
  split at mem
  · rw [found_nothing] at mem
    contradiction
  · exact mem
  · split at mem
    · rename_i named
      exact mem_of_filter_eq named mem
    · split at mem
      · rename_i primary
        exact mem_of_filter_eq primary mem
      · contradiction

theorem mem_of_mem_multiple {q : Request} {cs : List Candidate} {c : Candidate}
    (mem : c ∈ (q.multiple s cs).found) : c ∈ cs := by
  unfold Request.multiple at mem
  split at mem
  · rw [found_nothing] at mem
    contradiction
  · simp only [Resolution.found] at mem
    split at mem
    · exact List.mem_mergeSort.mp mem
    · exact mem

theorem accepts_of_mem_accepted {q : Request} {mode : Mode} {cs taken : List Candidate}
    {c : Candidate} (accepted : q.accepted w mode cs = .ok taken) (mem : c ∈ taken) :
    q.accepts w mode c = .ok true := by
  induction cs generalizing taken with
  | nil =>
    cases accepted
    contradiction
  | cons first cs ih =>
    obtain ⟨fits, here, accepted⟩ := Outcome.bind_eq_ok.mp accepted
    obtain ⟨rest, later, accepted⟩ := Outcome.bind_eq_ok.mp accepted
    cases Outcome.pure_eq_ok.mp accepted
    split at mem
    · rename_i fit
      rcases List.mem_cons.mp mem with rfl | mem
      · rw [here, fit]
      · exact ih later mem
    · exact ih later mem

theorem matchesHint_of_accepts {q : Request} {mode : Mode} {c : Candidate}
    (accepts : q.accepts w mode c = .ok true) :
    w.matchesHint mode c.declaredType q.type = .ok true := by
  obtain ⟨fits, matching, accepts⟩ := Outcome.bind_eq_ok.mp accepts
  have compared := Outcome.mapError_eq_ok.mp matching
  cases fits with
  | true => exact compared
  | false => cases accepts

theorem matchesHint_of_mem_found {q : Request} {answer : Resolution} {c : Candidate}
    (resolved : r.resolve s w h q = .ok answer) (mem : c ∈ answer.found) :
    ∃ mode, w.matchesHint mode c.declaredType q.type = .ok true := by
  obtain ⟨cs, matching, resolved⟩ := Outcome.bind_eq_ok.mp resolved
  cases Outcome.pure_eq_ok.mp resolved
  have taken : c ∈ cs := by
    split at mem
    · exact mem_of_mem_multiple mem
    · exact mem_of_mem_single mem
  obtain ⟨eligible, _, matching⟩ := Outcome.bind_eq_ok.mp matching
  obtain ⟨strict, strictly, matching⟩ := Outcome.bind_eq_ok.mp matching
  split at matching
  · exact ⟨.fallback, matchesHint_of_accepts (accepts_of_mem_accepted matching taken)⟩
  · cases Outcome.pure_eq_ok.mp matching
    exact ⟨.strict, matchesHint_of_accepts (accepts_of_mem_accepted strictly taken)⟩

end Registry
end Wiring
