import Wiring.Proofs.Registry.Fallback
import Wiring.Proofs.Registry.Refusal
import Wiring.Proofs.Hint.Agreement

/-! Fallback mode only relaxes. Whatever agrees strictly agrees with open places allowed, at every
depth of the arguments, and what keeps a comparison from being made does so in both modes. So the
second pass over the candidates keeps what the first one kept, in the same order. -/
namespace Wiring

namespace Hint

theorem agrees_fallback_of_strict {c r : Hint} (agree : agrees .strict c r) :
    agrees .fallback c r := by
  rw [agrees_fallback_iff]
  intro clash
  rw [not_agrees_of_clash clash] at agree
  contradiction

theorem agreesAll_fallback_of_strict {cs rs : List Hint} (agree : agreesAll .strict cs rs) :
    agreesAll .fallback cs rs := by
  rw [agreesAll_eq_true] at agree ⊢
  intro a b place
  exact agrees_fallback_of_strict (agree a b place)

end Hint

namespace World
variable {w : World} {candidate required : Hint}

theorem matchesHint_fallback_of_strict
    (matched : w.matchesHint .strict candidate required = .ok true) :
    w.matchesHint .fallback candidate required = .ok true := by
  unfold matchesHint at matched ⊢
  by_cases bound : candidate.isVar
  · simp [bound, Mode.accepts, pure, Except.pure]
  by_cases fits : w.assignable candidate required
  · by_cases wildcards : required.arguments.all Hint.isWildcard
    · simp [bound, fits, wildcards, pure, Except.pure]
    · rw [if_neg bound, fits] at matched ⊢
      rw [if_neg wildcards] at matched ⊢
      obtain ⟨supplied, found, matched⟩ := Outcome.bind_eq_ok.mp matched
      rw [found]
      cases supplied with
      | none => rfl
      | some arguments =>
        by_cases count : arguments.length = required.arguments.length
        · have agree : Hint.agreesAll .strict arguments required.arguments := by
            simpa [count, pure, Except.pure] using matched
          simp [count, Hint.agreesAll_fallback_of_strict agree, pure, Except.pure, Bind.bind,
            Except.bind]
        · simp [count, Mode.accepts, pure, Except.pure, Bind.bind, Except.bind]
  · simp [bound, fits, pure, Except.pure] at matched

end World

namespace Request
variable {q : Request} {w : World} {c : Candidate} {cs kept : List Candidate}

theorem accepts_fallback_of_strict (accepts : q.accepts w .strict c = .ok true) :
    q.accepts w .fallback c = .ok true := by
  have matched := Registry.matchesHint_of_accepts accepts
  unfold Request.accepts at accepts ⊢
  rw [World.matchesHint_fallback_of_strict matched]
  rwa [matched] at accepts

theorem fits_fallback_of_strict (fits : q.fits w .strict c) : q.fits w .fallback c := by
  rw [fits_eq_true] at fits ⊢
  exact ⟨World.matchesHint_fallback_of_strict fits.1, fits.2⟩

/-- A comparison that the strict pass made is made in the fallback pass too, unless only that pass
comes to look at a qualifier that cannot be compared. -/
theorem decided_fallback_of_strict (decided : q.Decided w .strict cs)
    (qualifier : q.QualifierComparable) : q.Decided w .fallback cs := by
  intro c mem
  obtain ⟨comparable, -⟩ := accepts_returns.mp (decided c mem)
  exact accepts_returns.mpr ⟨comparable, .inl qualifier⟩

theorem eq_nil_of_not_qualifierComparable (pass : q.accepted w .strict cs = .ok kept)
    (qualifier : ¬ q.QualifierComparable) : kept = [] := by
  rw [List.eq_nil_iff_forall_not_mem]
  intro c mem
  have accepts := Registry.accepts_of_mem_accepted pass mem
  have apart := (accepts_returns.mp ⟨true, accepts⟩).2.resolve_left qualifier
  exact apart (Registry.matchesHint_of_accepts accepts)

/-- What matches strictly matches in fallback mode: so do arguments at every depth, and so do the
candidates for a request. The fallback pass over any candidates keeps all that the strict pass
kept, in the same order; only a qualifier that cannot be compared can stop it, and then the strict
pass kept none. -/
theorem fallback_relaxes (w : World) :
    (∀ c r, Hint.agrees .strict c r → Hint.agrees .fallback c r) ∧
    (∀ c r, w.matchesHint .strict c r = .ok true → w.matchesHint .fallback c r = .ok true) ∧
    ∀ (q : Request) (cs kept : List Candidate), q.accepted w .strict cs = .ok kept →
      (∀ c ∈ kept, q.accepts w .fallback c = .ok true) ∧
      ((∃ more, q.accepted w .fallback cs = .ok more ∧ kept.Sublist more) ∨
        kept = [] ∧ ¬ q.QualifierComparable) := by
  refine ⟨fun _ _ => Hint.agrees_fallback_of_strict,
    fun _ _ => World.matchesHint_fallback_of_strict, fun q cs kept pass => ⟨fun c mem => ?_, ?_⟩⟩
  · exact accepts_fallback_of_strict (Registry.accepts_of_mem_accepted pass mem)
  by_cases qualifier : q.QualifierComparable
  · obtain ⟨decided, rfl⟩ := accepted_eq_ok.mp pass
    have again := accepted_eq_ok.mpr ⟨decided_fallback_of_strict decided qualifier, rfl⟩
    refine .inl ⟨_, again, ?_⟩
    exact List.monotone_filter_right cs fun _ fits => fits_fallback_of_strict fits
  · exact .inr ⟨eq_nil_of_not_qualifierComparable pass qualifier, qualifier⟩

end Request

/-! Of the two archives, the strict pass keeps the one of numbers, and the fallback pass that and the
one that says nothing. -/
namespace Archive

theorem both_kept : all.accepted now.world .strict [strict, raw] = .ok [strict] ∧
    Hint.agrees .strict numbers numbers ∧ Hint.agrees .fallback numbers numbers ∧
    now.world.matchesHint .strict numbers numbers = .ok true ∧
    now.world.matchesHint .fallback numbers numbers = .ok true ∧
    ∃ more, all.accepted now.world .fallback [strict, raw] = .ok more ∧
      [strict].Sublist more ∧ raw ∈ more := by
  obtain ⟨agrees, matched, passes⟩ := Request.fallback_relaxes now.world
  have first : all.accepted now.world .strict [strict, raw] = .ok [strict] := by cbv
  have second : all.accepted now.world .fallback [strict, raw] = .ok [strict, raw] := by cbv
  have alike : Hint.agrees .strict numbers numbers := by cbv
  have same : now.world.matchesHint .strict numbers numbers = .ok true := by cbv
  refine ⟨first, alike, agrees _ _ alike, same, matched _ _ same, ?_⟩
  obtain ⟨more, again, kept⟩ | ⟨none, -⟩ := (passes all [strict, raw] [strict] first).2
  · cases second.symm.trans again
    exact ⟨_, second, kept, by simp⟩
  · cases none

end Archive
end Wiring
