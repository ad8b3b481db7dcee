import Wiring.Proofs.Registry.Resolution

/-! Which candidates answer a request. Every eligible candidate is compared with it, strictly first,
and in fallback mode only if nothing matches strictly. Comparing types can be refused; otherwise the
answer is a function of the candidates that are left. -/
namespace Wiring

namespace Request
variable (q : Request) (w : World)

def fits (mode : Mode) (c : Candidate) : Bool :=
  (w.matchesHint mode c.declaredType q.type).toOption.getD false && q.qualifier.all c.satisfies

def Decided (mode : Mode) (cs : List Candidate) : Prop :=
  ∀ c ∈ cs, ∃ taken, q.accepts w mode c = .ok taken

/-- The candidates that match strictly, or, if there are none, those that match in fallback mode. -/
def best (cs : List Candidate) : List Candidate :=
  let strict := cs.filter (q.fits w .strict)
  if strict.isEmpty then cs.filter (q.fits w .fallback) else strict

def Answerable (cs : List Candidate) : Prop :=
  q.Decided w .strict cs ∧ (cs.filter (q.fits w .strict) = [] → q.Decided w .fallback cs)

def answer (s : Settings) (cs : List Candidate) : Resolution :=
  if q.cardinality.isMultiple then q.multiple s cs else q.single cs

variable {q w}

theorem fits_of_accepts {mode : Mode} {c : Candidate} {taken : Bool}
    (accepts : q.accepts w mode c = .ok taken) : q.fits w mode c = taken := by
  obtain ⟨matched, compared, rest⟩ := Outcome.bind_eq_ok.mp accepts
  have compared := Outcome.mapError_eq_ok.mp compared
  cases matched with
  | false =>
    cases rest
    simp [fits, compared, Except.toOption]
  | true =>
    have all : q.fits w mode c = q.qualifier.all c.satisfies := by
      simp [fits, compared, Except.toOption]
    rw [all]
    cases qualified : q.qualifier with
    | none =>
      simp only [qualified] at rest
      cases rest
      rfl
    | some tag =>
      simp only [qualified] at rest
      split at rest
      · contradiction
      · split at rest
        · cases rest
          rfl
        · contradiction

theorem accepted_eq_ok {mode : Mode} {cs taken : List Candidate} :
    q.accepted w mode cs = .ok taken ↔
      q.Decided w mode cs ∧ taken = cs.filter (q.fits w mode) := by
  induction cs generalizing taken with
  | nil => simp [accepted, Decided, eq_comm]
  | cons c cs ih =>
    simp only [accepted, Outcome.bind_eq_ok, Outcome.pure_eq_ok, ih]
    constructor
    · rintro ⟨fit, here, rest, ⟨decided, rfl⟩, rfl⟩
      refine ⟨?_, by rw [List.filter_cons, fits_of_accepts here]⟩
      intro other mem
      rcases List.mem_cons.mp mem with rfl | mem
      · exact ⟨fit, here⟩
      · exact decided other mem
    · rintro ⟨decided, rfl⟩
      obtain ⟨fit, here⟩ := decided c List.mem_cons_self
      refine ⟨fit, here, _, ⟨fun other mem => decided other (List.mem_cons_of_mem _ mem), rfl⟩, ?_⟩
      rw [List.filter_cons, fits_of_accepts here]

def sole? {α : Type} : List α → Option α
  | [a] => some a
  | _ => none

theorem sole?_eq_none {α : Type} {as : List α} (several : ∀ a, as ≠ [a]) : sole? as = none := by
  unfold sole?
  split
  · exact absurd rfl (several _)
  · rfl

theorem eq_of_sole? {α : Type} {as : List α} {a : α} (sole : sole? as = some a) : as = [a] := by
  unfold sole? at sole
  split at sole
  · cases sole
    rfl
  · cases sole

/-- The candidate that a request for a single value takes: the only one, the only one of its name,
or the only primary one. -/
def pick? (q : Request) (cs : List Candidate) : Option Candidate :=
  ((sole? cs).or (sole? (cs.filter fun c => some c.name == q.name))).or
    (sole? (cs.filter (·.primary)))

theorem single_eq (q : Request) (cs : List Candidate) :
    q.single cs = match q.pick? cs with
      | some c => .value c
      | none => if cs.isEmpty then q.nothing else .failure (.ambiguous q cs) := by
  unfold single
  split
  · rfl
  · rfl
  · rename_i some several
    have ambiguous : cs.isEmpty = false := by simpa using some
    rw [pick?, sole?_eq_none several, Option.none_or, ambiguous]
    split
    · rename_i named
      rw [named]
      rfl
    · rename_i named
      rw [sole?_eq_none named, Option.none_or]
      split
      · rename_i primary
        rw [primary]
        rfl
      · rename_i primary
        rw [sole?_eq_none primary]
        rfl

theorem best_sublist (q : Request) (w : World) (cs : List Candidate) :
    (q.best w cs).Sublist cs := by
  unfold best
  dsimp only
  split <;> exact List.filter_sublist

end Request

namespace Registry
variable {r : Registry} {w : World} {h : Heap} {q : Request} {cs taken : List Candidate}

theorem matching_eq_ok (lookup : r.eligible w h q.type = .ok cs) :
    r.matching w h q = .ok taken ↔ (q.Decided w .strict cs ∧
      (cs.filter (q.fits w .strict) = [] → q.Decided w .fallback cs)) ∧ taken = q.best w cs := by
  have passes : r.matching w h q = .ok taken ↔ q.Decided w .strict cs ∧
      (if (cs.filter (q.fits w .strict)).isEmpty then q.accepted w .fallback cs
        else .ok (cs.filter (q.fits w .strict))) = .ok taken := by
    rw [matching, lookup]
    change ((q.accepted w .strict cs >>= fun strict =>
      if strict.isEmpty then q.accepted w .fallback cs else .ok strict) = .ok taken) ↔ _
    simp only [Outcome.bind_eq_ok, Request.accepted_eq_ok, and_assoc, exists_and_left,
      exists_eq_left]
  rw [passes, Request.best, and_assoc]
  refine and_congr_right fun _ => ?_
  by_cases none : cs.filter (q.fits w .strict) = []
  · simp only [none, List.isEmpty_nil, if_true, Request.accepted_eq_ok, forall_const]
  · have some : (cs.filter (q.fits w .strict)).isEmpty = false := by simpa using none
    simp only [some, none, Bool.false_eq_true, if_false, Except.ok.injEq, false_implies, true_and]
    exact eq_comm

theorem resolve_eq_ok {s : Settings} {answer : Resolution}
    (lookup : r.eligible w h q.type = .ok cs) :
    r.resolve s w h q = .ok answer ↔ q.Answerable w cs ∧ q.answer s (q.best w cs) = answer := by
  rw [resolve]
  simp only [Outcome.bind_eq_ok, Outcome.pure_eq_ok, matching_eq_ok lookup, and_assoc,
    exists_and_left, exists_eq_left, Request.Answerable, Request.answer]

end Registry
end Wiring
