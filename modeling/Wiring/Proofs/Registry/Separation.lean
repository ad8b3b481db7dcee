import Wiring.Proofs.Hint.Agreement
import Wiring.Proofs.Registry.Resolution

/-! When type arguments keep a candidate out. A candidate that supplies arguments to the required
class is found for a parameterized request somewhere, unless one of its arguments clashes with the
one required in its place. -/
namespace Wiring

namespace World

variable {w : World} {mode : Mode} {candidate required : Hint} {G : ClassRef}

theorem isSubclass_of_derives {c target : ClassRef} (derives : w.derives c target = true) :
    w.isSubclass (.cls c) (.cls target) = true := by
  have whole : (w.subclass? c target).toOption.getD (w.derives c target) = true := by
    unfold subclass?
    split
    · split
      · exact derives
      · split
        · exact derives
        · simp [Except.toOption, derives]
    · split
      · simp [Except.toOption, derives]
      · split
        · simp [Except.toOption, inContainer, derives]
        · simp [Except.toOption, derives]
      · simp [Except.toOption, derives]
  unfold isSubclass
  split
  · rfl
  · rfl
  · rename_i same
    cases same
    exact whole
  · rename_i noClass
    exact absurd rfl (noClass target)

def Conflict (supplied : Option (List Hint)) (required : Hint) : Prop :=
  ∃ arguments, supplied = some arguments ∧ arguments.length = required.arguments.length ∧
    ∃ a b, (a, b) ∈ arguments.zip required.arguments ∧ Hint.Clash a b

theorem not_isVar_of_supplied {supplied : List Hint}
    (searched : w.genericArguments G candidate = .ok (some supplied)) : ¬ candidate.isVar := by
  intro isVar
  cases candidate with
  | var id name bound => simp [genericArguments, Hint.origin?] at searched
  | _ => cases isVar

theorem not_isWildcard_of_clash {a b : Hint} (clash : Hint.Clash a b) : ¬ b.isWildcard := by
  cases clash with
  | head fixed => exact fixed
  | inside fixed => exact fixed

theorem matchesHint_eq {supplied : Option (List Hint)} (wants : required.raw = .cls G)
    (searched : w.genericArguments G candidate = .ok supplied) (bound : ¬ candidate.isVar)
    (assignable : w.assignable candidate required) :
    w.matchesHint mode candidate required = .ok (required.arguments.all Hint.isWildcard ||
      match supplied with
      | none => mode.accepts
      | some arguments =>
        if arguments.length = required.arguments.length
        then Hint.agreesAll mode arguments required.arguments
        else mode.accepts) := by
  have found : w.argumentsFor required.raw candidate = .ok supplied := by
    rw [wants]
    exact searched
  unfold matchesHint
  rw [if_neg bound, assignable, found]
  by_cases wildcards : required.arguments.all Hint.isWildcard
  · simp [wildcards, pure, Except.pure]
  · cases supplied with
    | none => simp [wildcards, pure, Except.pure, Bind.bind, Except.bind]
    | some arguments =>
      by_cases count : arguments.length = required.arguments.length
      · simp [wildcards, count, pure, Except.pure, Bind.bind, Except.bind]
      · simp [wildcards, count, pure, Except.pure, Bind.bind, Except.bind]

theorem not_matchesHint_of_conflict {supplied : Option (List Hint)} (wants : required.raw = .cls G)
    (searched : w.genericArguments G candidate = .ok supplied)
    (conflict : Conflict supplied required) : w.matchesHint mode candidate required ≠ .ok true := by
  obtain ⟨arguments, rfl, count, a, b, place, clash⟩ := conflict
  have bound := not_isVar_of_supplied searched
  by_cases assignable : w.assignable candidate required
  · rw [matchesHint_eq wants searched bound assignable]
    have fixed : required.arguments.all Hint.isWildcard = false := by
      rw [List.all_eq_false]
      exact ⟨b, (List.of_mem_zip place).2, not_isWildcard_of_clash clash⟩
    have differ : Hint.agreesAll mode arguments required.arguments = false := by
      rw [← Bool.not_eq_true, Hint.agreesAll_eq_true]
      intro all
      have agree := all a b place
      rw [Hint.not_agrees_of_clash clash] at agree
      contradiction
    simp [fixed, count, differ]
  · unfold matchesHint
    simp [bound, assignable, pure, Except.pure]

theorem matchesHint_of_not_conflict {supplied : Option (List Hint)} (wants : required.raw = .cls G)
    (searched : w.genericArguments G candidate = .ok supplied)
    (assignable : w.assignable candidate required) (free : ¬ Conflict supplied required) :
    w.matchesHint .fallback candidate required = .ok true := by
  by_cases bound : candidate.isVar
  · unfold matchesHint
    rw [if_pos bound]
    rfl
  rw [matchesHint_eq wants searched bound assignable]
  cases supplied with
  | none => simp [Mode.accepts]
  | some arguments =>
    by_cases count : arguments.length = required.arguments.length
    · have agree : Hint.agreesAll .fallback arguments required.arguments = true := by
        rw [Hint.agreesAll_eq_true]
        intro a b place
        rw [Hint.agrees_fallback_iff]
        intro clash
        exact free ⟨arguments, rfl, count, a, b, place, clash⟩
      simp [count, agree]
    · simp [count, Mode.accepts]

end World

namespace Registry

variable {w : World}

theorem accepts_of_matchesHint {mode : Mode} {c : Candidate} {T : Hint} {fits : Bool}
    (compared : w.matchesHint mode c.declaredType T = .ok fits) :
    Request.accepts { type := T } w mode c = .ok fits := by
  unfold Request.accepts
  rw [compared]
  cases fits <;> rfl

theorem accepted_single {q : Request} {mode : Mode} {c : Candidate} {fits : Bool}
    (accepts : q.accepts w mode c = .ok fits) :
    q.accepted w mode [c] = .ok (if fits then [c] else []) := by
  simp only [Request.accepted, accepts]
  rfl

theorem resolve_single {s : Settings} {h : Heap} {c : Candidate} {T : Hint} {strict : Bool}
    (injectable : c.injectable) (assignable : w.assignable c.declaredType T.raw)
    (strictly : w.matchesHint .strict c.declaredType T = .ok strict)
    (fallback : w.matchesHint .fallback c.declaredType T = .ok true) :
    Registry.resolve { entries := [c] } s w h { type := T } = .ok (.value c) := by
  have eligible : Registry.eligible { entries := [c] } w h T = .ok [c] := by
    simp only [Registry.eligible, List.filter_cons, injectable, assignable]
    simp [Registry.participants, Bind.bind, Except.bind, pure, Except.pure]
  have matching : Registry.matching { entries := [c] } w h { type := T } = .ok [c] := by
    unfold Registry.matching
    rw [eligible]
    have first := accepted_single (accepts_of_matchesHint strictly)
    have second := accepted_single (accepts_of_matchesHint fallback)
    cases strict with
    | true => simp [first, Except.mapError, Bind.bind, Except.bind, pure, Except.pure]
    | false => simp [first, second, Except.mapError, Bind.bind, Except.bind]
  unfold Registry.resolve
  rw [matching]
  rfl

/-- Supplied arguments that are aligned with the required ones, and leave no place open, are in
conflict with them unless they are the same types. -/
theorem conflict_of_not_alike {arguments : List Hint} {T : Hint}
    (count : arguments.length = T.arguments.length)
    (bound : ∀ a ∈ arguments, ∀ p, Hint.Part p a → ¬ p.isVar)
    (fixed : ∀ b ∈ T.arguments, ∀ p, Hint.Part p b → ¬ p.isWildcard)
    (aligned : ∀ a b, (a, b) ∈ arguments.zip T.arguments → Hint.Aligned a b)
    (differ : ¬ List.Forall₂ Hint.Alike arguments T.arguments) :
    World.Conflict (some arguments) T := by
  rw [List.forall₂_iff_zip] at differ
  simp only [count, true_and, not_forall] at differ
  obtain ⟨a, b, place, differ⟩ := differ
  obtain ⟨left, right⟩ := List.of_mem_zip place
  exact ⟨arguments, rfl, count, a, b, place,
    Hint.clash_of_not_alike (bound a left) (fixed b right) (aligned a b place) differ⟩

/-- A candidate is kept away from a parameterized request in every registry exactly if the type
arguments it supplies to the requested class conflict with the required ones; and they do if they
leave no place open, are aligned with the required ones, and are other types. -/
theorem resolve_separates {c : Candidate} {T : Hint} {K G : ClassRef}
    {supplied : Option (List Hint)} (injectable : c.injectable)
    (cls : c.declaredType.raw = .cls K) (derives : w.derives K G) (wants : T.raw = .cls G)
    (searched : w.genericArguments G c.declaredType = .ok supplied) :
    ((∀ r s h q answer, q.type = T → Registry.resolve r s w h q = .ok answer →
      c ∉ answer.found) ↔ World.Conflict supplied T) ∧
    ∀ arguments, supplied = some arguments → arguments.length = T.arguments.length →
      (∀ a ∈ arguments, ∀ p, Hint.Part p a → ¬ p.isVar) →
      (∀ b ∈ T.arguments, ∀ p, Hint.Part p b → ¬ p.isWildcard) →
      (∀ a b, (a, b) ∈ arguments.zip T.arguments → Hint.Aligned a b) →
      ¬ List.Forall₂ Hint.Alike arguments T.arguments →
      ∀ r s h q answer, q.type = T → Registry.resolve r s w h q = .ok answer →
        c ∉ answer.found := by
  have kept : World.Conflict supplied T → ∀ r s h q answer, q.type = T →
      Registry.resolve r s w h q = .ok answer → c ∉ answer.found := by
    intro conflict r s h q answer asked resolved mem
    obtain ⟨mode, compared⟩ := matchesHint_of_mem_found resolved mem
    rw [asked] at compared
    exact World.not_matchesHint_of_conflict wants searched conflict compared
  refine ⟨⟨fun away => ?_, kept⟩, ?_⟩
  · -- Kept out of every registry, the candidate is kept out of the one that holds nothing else.
    by_contra free
    have fits : w.assignable c.declaredType T.raw := by
      simp only [World.assignable, cls, wants, Hint.raw, World.isSubclass_of_derives derives,
        Bool.or_true]
    have assignable : w.assignable c.declaredType T := by
      simp only [World.assignable, cls, wants, World.isSubclass_of_derives derives, Bool.or_true]
    have fallback := World.matchesHint_of_not_conflict wants searched assignable free
    obtain ⟨strict, strictly⟩ : ∃ strict, w.matchesHint .strict c.declaredType T = .ok strict := by
      by_cases bound : c.declaredType.isVar
      · refine ⟨Mode.strict.accepts, ?_⟩
        unfold World.matchesHint
        rw [if_pos bound]
        rfl
      · exact ⟨_, World.matchesHint_eq wants searched bound assignable⟩
    have given := resolve_single (s := {}) (h := []) injectable fits strictly fallback
    exact away _ _ _ _ _ rfl given List.mem_cons_self
  · intro arguments only count bound fixed aligned differ
    rw [only] at kept
    exact kept (conflict_of_not_alike count bound fixed aligned differ)

end Registry

/-! A repository of whole numbers is kept away from a request for one of texts. A repository of
tuples of one number is found for tuples of any number of texts, since the required tuple has two
arguments and the supplied one has one. -/
namespace Depot

open Hint (Part Alike)

def element : Hint := .var 1 "T" none

def repository : ClassInfo where
  name := "Repository"
  qualifiedName := "Repository"
  bases := [.builtin .generic]
  writtenBases := some [.alias .typing (.builtin .generic) [element]]
  parameters := [element]
  linearization := [.declared 0, .builtin .generic, .builtin .object]

def depot : World where
  moduleName := "depot"
  classes := [repository]

def int : Hint := .cls (.builtin .int)

def str : Hint := .cls (.builtin .str)

def tupleOf (items : List Hint) : Hint := .alias .plain (.builtin .tuple) items

def repositoryOf (item : Hint) : Hint := .alias .typing (.declared 0) [item]

def holding (item : Hint) : Candidate where
  name := "items"
  declaredType := repositoryOf item

theorem derives_repository : depot.derives (.declared 0) (.declared 0) = true := by rfl

theorem supplies (item : Hint) :
    depot.genericArguments (.declared 0) (repositoryOf item) = .ok (some [item]) := by rfl

theorem part_of_cls {k : ClassRef} {p : Hint} (part : Part p (.cls k)) : p = .cls k := by
  cases part with
  | self => rfl
  | argument mem _ => contradiction

theorem part_of_ellipsis {p : Hint} (part : Part p .ellipsis) : p = .ellipsis := by
  cases part with
  | self => rfl
  | argument mem _ => contradiction

theorem int_kept_out : World.Conflict (some [int]) (repositoryOf str) ∧
    ∀ r s h q answer, q.type = repositoryOf str →
      Registry.resolve r s depot h q = .ok answer → holding int ∉ answer.found := by
  have separates := Registry.resolve_separates (c := holding int) (T := repositoryOf str) rfl rfl
    derives_repository rfl (supplies int)
  have bound : ∀ a ∈ [int], ∀ p, Part p a → ¬ p.isVar := by
    intro a mem p part
    cases List.mem_singleton.mp mem
    rw [part_of_cls part]
    decide
  have fixed : ∀ b ∈ (repositoryOf str).arguments, ∀ p, Part p b → ¬ p.isWildcard := by
    intro b mem p part
    cases List.mem_singleton.mp mem
    rw [part_of_cls part]
    decide
  have aligned : ∀ a b, (a, b) ∈ [int].zip (repositoryOf str).arguments → Hint.Aligned a b := by
    intro a b place
    cases List.mem_singleton.mp place
    exact .intro (fun _ => .inl rfl) fun a b inner => by cases inner
  have differ : ¬ List.Forall₂ Alike [int] (repositoryOf str).arguments := by
    intro alike
    cases alike with
    | cons same _ =>
      obtain ⟨head, _, _⟩ := same
      simp [Hint.SameHead, int, str, Hint.arguments, Hint.raw, Hint.same] at head
  have away := separates.2 [int] rfl rfl bound fixed aligned differ
  exact ⟨separates.1.mp away, away⟩

theorem tuple_found :
    let texts := tupleOf [str, .ellipsis]
    let number := tupleOf [int]
    Registry.resolve { entries := [holding number] } {} depot [] { type := repositoryOf texts } =
        .ok (.value (holding number)) ∧
      depot.genericArguments (.declared 0) (holding number).declaredType = .ok (some [number]) ∧
      (∀ p, Part p number → ¬ p.isWildcard) ∧ (∀ p, Part p texts → ¬ p.isWildcard) ∧
      ¬ Alike number texts := by
  refine ⟨?_, supplies _, ?_, ?_, ?_⟩
  · have strictly : depot.matchesHint .strict (repositoryOf (tupleOf [int]))
        (repositoryOf (tupleOf [str, .ellipsis])) = .ok false := by cbv
    have fallback : depot.matchesHint .fallback (repositoryOf (tupleOf [int]))
        (repositoryOf (tupleOf [str, .ellipsis])) = .ok true := by cbv
    exact Registry.resolve_single rfl (by cbv) strictly fallback
  · intro p part
    cases part with
    | self => decide
    | argument mem part =>
      cases List.mem_singleton.mp mem
      rw [part_of_cls part]
      decide
  · intro p part
    cases part with
    | self => decide
    | argument mem part =>
      rcases List.mem_cons.mp mem with rfl | mem
      · rw [part_of_cls part]
        decide
      · cases List.mem_singleton.mp mem
        rw [part_of_ellipsis part]
        decide
  · rintro ⟨_, count, _⟩
    simp [Hint.SameCount, tupleOf, Hint.arguments] at count

end Depot
end Wiring
