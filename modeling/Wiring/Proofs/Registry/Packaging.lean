import Mathlib
import Wiring.Proofs.Registry.Matching

/-! How the answers to requests for the same thing compare. A request for a single value and one for
a collection look at the same candidates, so they find nothing together, and a single value is
ambiguous only where a collection holds several. Whether a request is required decides only what
finding nothing is. -/
namespace Wiring

namespace Resolution

/-- The outcome as an answer to another request: finding nothing is what that request makes of it,
and all else stays. -/
def answering (q : Request) : Resolution → Resolution
  | .empty | .failure (.notFound _) => q.nothing
  | .failure (.ambiguous _ tied) => .failure (.ambiguous q tied)
  | found => found

end Resolution

namespace Request
variable {q : Request} {s : Settings} {w : World} {cs : List Candidate}

theorem nothing_cases (q : Request) :
    q.nothing = .failure (.notFound q) ∨ q.nothing = .empty := by
  unfold nothing
  split
  · exact .inl rfl
  · exact .inr rfl

theorem answering_nothing (q other : Request) : q.nothing.answering other = other.nothing := by
  unfold nothing
  split <;> rfl

theorem mem_of_pick? {c : Candidate} (picked : q.pick? cs = some c) : c ∈ cs := by
  unfold pick? at picked
  rcases Option.or_eq_some_iff.mp picked with first | ⟨-, primary⟩
  · rcases Option.or_eq_some_iff.mp first with only | ⟨-, named⟩
    · rw [eq_of_sole? only]
      exact List.mem_singleton.mpr rfl
    · exact List.mem_of_mem_filter (eq_of_sole? named ▸ List.mem_singleton.mpr rfl)
  · exact List.mem_of_mem_filter (eq_of_sole? primary ▸ List.mem_singleton.mpr rfl)

theorem single_cases (q : Request) (cs : List Candidate) :
    cs = [] ∧ q.single cs = q.nothing ∨ (∃ c ∈ cs, q.single cs = .value c) ∨
      2 ≤ cs.length ∧ q.single cs = .failure (.ambiguous q cs) := by
  rw [single_eq]
  cases picked : q.pick? cs with
  | some c => exact .inr (.inl ⟨c, mem_of_pick? picked, rfl⟩)
  | none =>
    match cs with
    | [] => exact .inl ⟨rfl, rfl⟩
    | [c] => cases picked
    | _ :: _ :: _ => exact .inr (.inr ⟨by simp, rfl⟩)

theorem answer_of_single (one : q.cardinality.isMultiple = false) : q.answer s = q.single := by
  funext cs
  rw [answer, one]
  rfl

theorem answer_of_multiple (many : q.cardinality.isMultiple = true) :
    q.answer s = q.multiple s := by
  funext cs
  rw [answer, many]
  rfl

theorem answer_answering {a b : Request} (cardinality : a.cardinality = b.cardinality)
    (name : a.name = b.name) (s : Settings) (cs : List Candidate) :
    a.answer s cs = (b.answer s cs).answering a := by
  unfold answer
  rw [cardinality]
  split
  · unfold multiple
    split
    · rw [answering_nothing]
    · rfl
  · rw [single_eq, single_eq]
    have same : a.pick? cs = b.pick? cs := by rw [pick?, pick?, name]
    rw [same]
    cases b.pick? cs with
    | some c => rfl
    | none =>
      dsimp only
      split
      · rw [answering_nothing]
      · rfl

theorem accepted_congr {a b : Request}
    (compares : ∀ mode h, w.matchesHint mode h a.type = w.matchesHint mode h b.type)
    (qualifier : a.qualifier = b.qualifier) (mode : Mode) (cs : List Candidate) :
    a.accepted w mode cs = b.accepted w mode cs := by
  induction cs with
  | nil => rfl
  | cons c cs ih => simp only [accepted, accepts, compares, qualifier, ih]

end Request

namespace Registry
variable {r : Registry} {s : Settings} {w : World} {h : Heap}

theorem matching_of_compares {a b : Request}
    (lookup : r.eligible w h a.type = r.eligible w h b.type)
    (compares : ∀ mode h, w.matchesHint mode h a.type = w.matchesHint mode h b.type)
    (qualifier : a.qualifier = b.qualifier) : r.matching w h a = r.matching w h b := by
  simp only [matching, lookup, Request.accepted_congr compares qualifier]

theorem matching_congr {a b : Request} (type : a.type = b.type)
    (qualifier : a.qualifier = b.qualifier) : r.matching w h a = r.matching w h b :=
  matching_of_compares (by rw [type]) (fun _ _ => by rw [type]) qualifier

theorem resolve_eq_map (q : Request) :
    r.resolve s w h q = (r.matching w h q).map (q.answer s) := by
  unfold resolve
  cases r.matching w h q <;> rfl

theorem resolve_of_compares {a b : Request} (lookup : r.eligible w h a.type = r.eligible w h b.type)
    (compares : ∀ mode h, w.matchesHint mode h a.type = w.matchesHint mode h b.type)
    (qualifier : a.qualifier = b.qualifier) (cardinality : a.cardinality = b.cardinality)
    (name : a.name = b.name) :
    r.resolve s w h a = (r.resolve s w h b).map (·.answering a) := by
  rw [resolve_eq_map, resolve_eq_map, matching_of_compares lookup compares qualifier]
  cases r.matching w h b with
  | error e => rfl
  | ok cs => exact congrArg Except.ok (Request.answer_answering cardinality name s cs)

end Registry

/-! A hall with two lamps. Which lamp is meant is not clear; all lamps are the two, the one with a
priority first. -/
namespace Hall

def hall : World where
  moduleName := "hall"
  classes := [{
    name := "Lamp", qualifiedName := "Lamp", bases := [.builtin .object]
    linearization := [.declared 0, .builtin .object] }]

def lamp (name : String) (priority : Option Int) (index : Nat) : Candidate where
  name := name
  declaredType := .cls (.declared 0)
  priority := priority
  index := index

def left : Candidate := lamp "left" none 0
def right : Candidate := lamp "right" (some 1) 1

def registry : Registry := { entries := [left, right] }

def aLamp : Request where
  type := .cls (.declared 0)
  name := some "lamp"
  required := false

def lamps : Request where
  type := .cls (.declared 0)
  cardinality := .orderedList

end Hall
end Wiring
