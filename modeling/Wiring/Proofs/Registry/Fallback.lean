import Mathlib
import Wiring.Proofs.Operations
import Wiring.Proofs.Registry.Matching

/-! When candidates that leave type arguments open are found. They are meant to be a fallback, for
requests that no candidate matches strictly. But a pass leaves out what the qualifier does not ask
for, and with it strict matches: what counts is whether one of those that the qualifier asks for
matches strictly. -/
namespace Wiring

namespace Request
variable (q : Request) (w : World)

def MatchesStrictly (c : Candidate) : Prop := w.matchesHint .strict c.declaredType q.type = .ok true

def MatchesOnlyOpen (c : Candidate) : Prop :=
  w.matchesHint .fallback c.declaredType q.type = .ok true ∧ ¬ q.MatchesStrictly w c

def AsksFor (c : Candidate) : Prop := q.qualifier.all c.satisfies

variable {q w} {c : Candidate} {cs : List Candidate}

theorem fits_eq_true {mode : Mode} :
    q.fits w mode c ↔ w.matchesHint mode c.declaredType q.type = .ok true ∧ q.AsksFor c := by
  unfold fits AsksFor
  rw [Bool.and_eq_true]
  refine and_congr_left fun _ => ?_
  rcases w.matchesHint mode c.declaredType q.type with _ | matched
  · simp [Except.toOption]
  · simp [Except.toOption]

theorem mem_best (mem : c ∈ q.best w cs) : c ∈ cs ∧ q.AsksFor c ∧
    (q.MatchesStrictly w c ∧ (∃ c' ∈ cs, q.MatchesStrictly w c' ∧ q.AsksFor c') ∨
      q.MatchesOnlyOpen w c ∧ ¬ ∃ c' ∈ cs, q.MatchesStrictly w c' ∧ q.AsksFor c') := by
  unfold best at mem
  dsimp only at mem
  split at mem
  · rename_i none
    obtain ⟨listed, fit⟩ := List.mem_filter.mp mem
    obtain ⟨matched, asked⟩ := fits_eq_true.mp fit
    have strictless : ¬ ∃ c' ∈ cs, q.MatchesStrictly w c' ∧ q.AsksFor c' := by
      rintro ⟨c', listed', strict⟩
      rw [List.isEmpty_iff, List.filter_eq_nil_iff] at none
      exact none c' listed' (fits_eq_true.mpr strict)
    exact ⟨listed, asked, .inr ⟨⟨matched, fun strict => strictless ⟨c, listed, strict, asked⟩⟩,
      strictless⟩⟩
  · obtain ⟨listed, fit⟩ := List.mem_filter.mp mem
    have strict := fits_eq_true.mp fit
    exact ⟨listed, strict.2, .inl ⟨strict.1, c, listed, strict⟩⟩

end Request

namespace Registry
variable {r : Registry} {s : Settings} {w : World} {h : Heap} {q : Request} {cs : List Candidate}
  {answer : Resolution}

/-- A candidate that leaves arguments open is found exactly if the qualifier asks for no eligible
candidate that matches strictly; without a qualifier, only if none matches strictly. -/
theorem resolve_fallback (lookup : r.eligible w h q.type = .ok cs)
    (resolved : r.resolve s w h q = .ok answer) :
    (∀ c ∈ answer.found, c ∈ cs ∧ q.AsksFor c ∧
      (q.MatchesStrictly w c ∨ q.MatchesOnlyOpen w c) ∧
      (q.MatchesOnlyOpen w c ↔ ¬ ∃ c' ∈ cs, q.MatchesStrictly w c' ∧ q.AsksFor c')) ∧
    (q.qualifier = none → (∃ c' ∈ cs, q.MatchesStrictly w c') →
      ∀ c ∈ answer.found, ¬ q.MatchesOnlyOpen w c) := by
  obtain ⟨-, rfl⟩ := (resolve_eq_ok lookup).mp resolved
  have law : ∀ c ∈ (q.answer s (q.best w cs)).found, c ∈ cs ∧ q.AsksFor c ∧
      (q.MatchesStrictly w c ∨ q.MatchesOnlyOpen w c) ∧
      (q.MatchesOnlyOpen w c ↔ ¬ ∃ c' ∈ cs, q.MatchesStrictly w c' ∧ q.AsksFor c') := by
    intro c mem
    have taken : c ∈ q.best w cs := by
      unfold Request.answer at mem
      split at mem
      · exact mem_of_mem_multiple mem
      · exact mem_of_mem_single mem
    obtain ⟨listed, asked, ⟨strict, some⟩ | ⟨onlyOpen, none⟩⟩ := Request.mem_best taken
    · exact ⟨listed, asked, .inl strict, iff_of_false (fun onlyOpen => onlyOpen.2 strict)
        (not_not_intro some)⟩
    · exact ⟨listed, asked, .inr onlyOpen, iff_of_true onlyOpen none⟩
  refine ⟨law, fun unqualified ⟨c', listed, strict⟩ c mem onlyOpen => ?_⟩
  have asked : q.AsksFor c' := by
    unfold Request.AsksFor
    rw [unqualified]
    rfl
  exact (law c mem).2.2.2.mp onlyOpen ⟨c', listed, strict, asked⟩

end Registry

/-! An archive of numbers and one that says nothing about what it holds. A request for an archive of
numbers finds the first. But if it asks for a fast one and only the second is tagged so, it finds
that. -/
namespace Archive
open Run

def item : Hint := .var 1 "T" none

def archive : ClassInfo where
  name := "Archive"
  qualifiedName := "Archive"
  bases := [.builtin .generic]
  writtenBases := some [.alias .typing (.builtin .generic) [item]]
  parameters := [item]
  linearization := [.declared 0, .builtin .generic, .builtin .object]

def store : Store where
  world := { moduleName := "archives", classes := [archive] }

def numbers : Hint := .alias .typing (.declared 0) [.cls (.builtin .int)]

def source : Provider := .function { name := "make_archive" }

def operations : List (String × Operation) :=
  [("main", .registerProvider "numbers" source { declaredType := some numbers }),
   ("main", .registerProvider "anything" source {
      declaredType := some (.cls (.declared 0)), qualifiers := ["fast"] })]

def strict : Candidate where
  name := "numbers"
  declaredType := numbers

def raw : Candidate where
  name := "anything"
  declaredType := .cls (.declared 0)
  qualifiers := ["fast"]
  index := 1

def history : List Registered := [⟨strict, .made source⟩, ⟨raw, .made source⟩]

def now : Store :=
  { store with registries := [("main", {
      entries := [strict, raw], providers := [("numbers", source), ("anything", source)] })] }

theorem runAll_archives : Operation.runAll "main" operations store = (history, now) := by rfl

theorem eligible_archives :
    (now.registry "main").eligible now.world now.heap numbers = .ok [strict, raw] := by cbv

def all : Request where
  type := numbers
  cardinality := .orderedList

theorem numbers_only : now.resolve "main" all = .ok (.values [strict]) ∧
    all.MatchesStrictly now.world strict ∧ all.qualifier = none ∧
    ∀ c ∈ [strict], ¬ all.MatchesOnlyOpen now.world c := by
  have resolved : now.resolve "main" all = .ok (.values [strict]) := by cbv
  have matched : all.MatchesStrictly now.world strict := by
    unfold Request.MatchesStrictly
    cbv
  have law := (Registry.resolve_fallback eligible_archives resolved).2 rfl
  exact ⟨resolved, matched, rfl, law ⟨strict, List.mem_cons_self, matched⟩⟩

def fast : Request where
  type := numbers
  qualifier := some (.text "fast")
  required := false

theorem raw_found : store.registry "main" = {} ∧
    Operation.runAll "main" operations store = (history, now) ∧
    (now.registry "main").eligible now.world now.heap fast.type = .ok [strict, raw] ∧
    fast.MatchesStrictly now.world strict ∧ now.resolve "main" fast = .ok (.value raw) ∧
    fast.MatchesOnlyOpen now.world raw := by
  have matched : fast.MatchesStrictly now.world strict := by
    unfold Request.MatchesStrictly
    cbv
  have resolved : now.resolve "main" fast = .ok (.value raw) := by cbv
  have fallback : now.world.matchesHint .fallback raw.declaredType fast.type = .ok true := by cbv
  have strictly : now.world.matchesHint .strict raw.declaredType fast.type = .ok false := by cbv
  refine ⟨rfl, runAll_archives, eligible_archives, matched, resolved, fallback, ?_⟩
  unfold Request.MatchesStrictly
  rw [strictly]
  intro same
  cases same

end Archive
end Wiring
