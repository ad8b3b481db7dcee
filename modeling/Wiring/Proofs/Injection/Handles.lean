import Wiring.Proofs.Registry.Collection
import Wiring.Proofs.Registry.Packaging
import Wiring.Proofs.Registry.Refusal

/-! Lazy handles. A point that asks for one receives it without a look at the registry, whatever is
registered then. Each use of the handle resolves the request anew, for a single value that must be
there, and thus shows the registry as it is at that moment. -/
namespace Wiring

/-- A hint for a lazy handle of the type, which can be optional and carry a qualifier. -/
def Hint.Handles (h type : Hint) : Prop :=
  h.describe.cardinality = .factory ∧ h.describe.element = type

theorem Hint.handles_spelled {handle type : Hint} {s : Spelling} {more members : List Hint}
    {us : UnionSpelling} (written : handle = .alias s (.builtin .objectFactory) (type :: more))
    (sole : members.filter (!·.isNoneType) = [handle]) (several : 1 < members.length)
    (metadata : List Hint) :
    handle.Handles type ∧ Handles (.union us members) type ∧
      Handles (.annotated handle metadata) type ∧
      Handles (.annotated (.union us members) metadata) type := by
  have content : handle.container = (type, .factory) := by rw [written]; rfl
  have peeled : (Hint.union us members).peelOptional = (handle, true) := by
    simp only [peelOptional, sole, several, if_true]
  have alone : handle.peelOptional = (handle, false) := by rw [written]; rfl
  have direct : handle.Handles type := by rw [written]; exact ⟨rfl, rfl⟩
  refine ⟨direct, ⟨?_, ?_⟩, ⟨?_, ?_⟩, ⟨?_, ?_⟩⟩ <;>
    simp [describe, peelMetadata, alone, peeled, content]

namespace Request

/-- The request of a field or a parameter that is annotated with the hint, once the type variables of
its class are bound. -/
inductive DeclaredAs (h : Hint) : Request → Prop
  | field {s : Settings} {σ : Bindings} {f : FieldDeclaration} {q : Request} :
    f.type.substitute σ = .ok h → ofField s σ f = .ok q → DeclaredAs h q
  | parameter {σ : Bindings} {p : Parameter} {type : Hint} {q : Request} :
    type.substitute σ = .ok h → ofParameter σ p type = .ok q → DeclaredAs h q

theorem DeclaredAs.described {h : Hint} {q : Request} (declared : q.DeclaredAs h) :
    q.type = h.describe.element ∧ q.cardinality = h.describe.cardinality := by
  cases declared with
  | field bound made =>
    obtain ⟨_, same, made⟩ := Outcome.bind_eq_ok.mp made
    cases bound.symm.trans same
    cases Outcome.pure_eq_ok.mp made
    exact ⟨rfl, rfl⟩
  | parameter bound made =>
    obtain ⟨_, same, made⟩ := Outcome.bind_eq_ok.mp made
    cases bound.symm.trans same
    cases Outcome.pure_eq_ok.mp made
    exact ⟨rfl, rfl⟩

end Request

namespace Run
variable {perform : Perform} {registry : String} {q : Request}

/-- Choosing a constructor, and planning fields and parameters, the request is given its handle and
nothing else is done for it. -/
structure Deferred (perform : Perform) (registry : String) (q : Request) : Prop where
  resolved : resolveNow registry q = pure .empty
  selected : ∀ (r : Registry) (s : Settings) (w : World) (h : Heap) (qs : List Request),
    r.resolveParameters s w h (q :: qs) = (.empty :: ·) <$> r.resolveParameters s w h qs
  argument : ∀ (component : String) (rest : List (Request × Resolution)),
    constructorValues perform registry component ((q, .empty) :: rest) =
      ((q, .factory q registry) :: ·) <$> constructorValues perform registry component rest
  field : ∀ (component : String) (p : InjectionPoint),
    planField perform registry component p q = pure (some {
      title := p.describe, step := .assign p.name (.factory q registry), injected := [] })
  parameter : ∀ (component : String) (p : InjectionPoint) (qs : List Request),
    planParameters perform registry component p (q :: qs) =
      Option.map ((q, .factory q registry, []) :: ·) <$>
        planParameters perform registry component p qs

theorem deferred (perform : Perform) (registry : String) (handle : q.isLazy) :
    Deferred perform registry q where
  resolved := if_pos handle
  selected r s w h qs := by
    have factory : q.cardinality = .factory := by simpa [Request.isLazy] using handle
    rw [Registry.resolveParameters, if_pos factory, bind_pure_comp]
  argument component rest := by
    simp [constructorValues, materialise, handle]
  field component p := by
    simp [planField, resolveNow, materialise, Request.injected, handle]
  parameter component p qs := by
    simp [planParameters, resolveNow, materialise, Request.injected, handle]

/-- How the use of a handle ends: with the component of the candidate that the request resolves to,
with its failure, or with what keeps the request from being answered. -/
inductive LookedUp (perform : Perform) (registry : String) (q : Request) (now : Store) :
    Except Error Value × Store → Prop
  | found {c : Candidate} : now.resolve registry q.immediate = .ok (.value c) →
    LookedUp perform registry q now (exec (perform (.component registry c)) now)
  | missing : now.resolve registry q.immediate = .ok (.failure (.notFound q.immediate)) →
    LookedUp perform registry q now (.error (.noCandidate (.notFound q.immediate) none), now)
  | tied {cs : List Candidate} : 2 ≤ cs.length →
    now.resolve registry q.immediate = .ok (.failure (.ambiguous q.immediate cs)) →
    LookedUp perform registry q now (.error (.ambiguous q.type (cs.map (·.name)) none), now)
  | refused {e : Error} : now.resolve registry q.immediate = .error e →
    LookedUp perform registry q now (.error e, now)

theorem LookedUp.unique {now : Store} {one other : Except Error Value × Store}
    (first : LookedUp perform registry q now one)
    (second : LookedUp perform registry q now other) : one = other := by
  cases first with
  | found resolved | missing resolved | tied _ resolved | refused resolved =>
    cases second with
    | found again | missing again | tied _ again | refused again =>
      cases resolved.symm.trans again <;> rfl

/-- The request of a handle is for a single value that must be there, so that it is never answered by
a collection, nor by nothing. -/
theorem immediate_cases {now : Store} {answer : Resolution}
    (resolved : now.resolve registry q.immediate = .ok answer) :
    (∃ c, answer = .value c) ∨ answer = .failure (.notFound q.immediate) ∨
      ∃ cs, 2 ≤ cs.length ∧ answer = .failure (.ambiguous q.immediate cs) := by
  obtain ⟨cs, -, resolved⟩ := Outcome.bind_eq_ok.mp resolved
  have answered : q.immediate.single cs = answer := Outcome.pure_eq_ok.mp resolved
  rw [← answered]
  rcases q.immediate.single_cases cs with ⟨-, nothing⟩ | ⟨c, -, one⟩ | ⟨several, tie⟩
  · exact .inr (.inl nothing)
  · exact .inl ⟨c, one⟩
  · exact .inr (.inr ⟨cs, several, tie⟩)

theorem lookedUp (perform : Perform) (registry : String) (q : Request) (now : Store) :
    LookedUp perform registry q now
      (exec (callAttribute perform (.factory q registry) lookupMethod {}) now) := by
  have use : callAttribute perform (.factory q registry) lookupMethod {} =
      lookUp perform q registry := rfl
  rw [use, lookUp, exec_bind, resolve, exec_bind, exec_get]
  dsimp only
  cases resolved : now.resolve registry q.immediate with
  | error e => exact .refused resolved
  | ok answer =>
    rcases immediate_cases resolved with ⟨c, rfl⟩ | rfl | ⟨cs, several, rfl⟩
    · exact .found resolved
    · exact .missing resolved
    · exact .tied several resolved

/-- A point that is declared as a lazy handle asks for the type of the handle. Nothing is resolved or
built for it while components are constructed and injected, and nothing can fail there. In every
store afterwards, the handle gives what its request resolves to in the registry as it is then. As far
as the eligible candidates can be told, resolving is refused only where the type of one of them cannot
be compared, or the qualifier cannot. -/
theorem handle_current {type h : Hint} (handles : h.Handles type) (declared : q.DeclaredAs h)
    (perform : Perform) (registry : String) :
    q.type = type ∧ Deferred perform registry q ∧ ∀ now : Store,
      LookedUp perform registry q now
        (exec (callAttribute perform (.factory q registry) lookupMethod {}) now) ∧
      ∀ cs, (now.registry registry).eligible now.world now.heap type = .ok cs →
        ((∃ answer, now.resolve registry q.immediate = .ok answer) ↔
          (∀ c ∈ cs, now.world.Comparable c.declaredType type) ∧ (q.QualifierComparable ∨
            ∀ c ∈ cs, ∀ mode, now.world.matchesHint mode c.declaredType type ≠ .ok true)) := by
  obtain ⟨asks, sort⟩ := declared.described
  have wants : q.type = type := asks.trans handles.2
  have handle : q.isLazy := by simp [Request.isLazy, sort, handles.1]
  refine ⟨wants, deferred perform registry handle, fun now => ?_⟩
  refine ⟨lookedUp perform registry q now, fun cs lookup => ?_⟩
  have lookup : (now.registry registry).eligible now.world now.heap q.immediate.type = .ok cs := by
    rw [← lookup, ← wants]
    rfl
  rw [← wants]
  simp only [Store.resolve, Registry.resolve_eq_ok lookup, exists_and_left, exists_eq', and_true]
  exact Request.answerable_iff

end Run

/-! A gauge that shows a feed of numbers, whichever there is when it is read. -/
namespace Gauge
open Run Feeds

def feed : FieldDeclaration where
  name := "feed"
  type := .union .typing [.alias .typing (.builtin .objectFactory) [numbers], Hint.noneType]
  marker := .make .autowired

def handle : Request where
  type := numbers
  cardinality := .factory
  required := false
  name := some "feed"

theorem declared : handle.DeclaredAs feed.type :=
  have bound : feed.type.substitute [] = .ok feed.type := by cbv
  have asked : Request.ofField {} [] feed = .ok handle := by cbv
  .field bound asked

def read : Run Value := callAttribute perform (.factory handle "main") lookupMethod {}

theorem feed_current : ∃ now,
    Operation.runAll "main" (providing [last]) store = (history [last], after [last]) ∧
    Operation.runAll "main" (providing feeds) store = (history feeds, after feeds) ∧
    exec read store = (.error (.noCandidate (.notFound handle.immediate) none), store) ∧
    exec read (after [last]) = (.ok .null, now) ∧
    exec read (after feeds) =
      (.error (.ambiguous numbers ["last", "second", "first"] none), after feeds) := by
  have handles : feed.type.Handles numbers := (Hint.handles_spelled rfl rfl (by decide) []).2.1
  obtain ⟨-, -, current⟩ := handle_current handles declared perform "main"
  have ended (now : Store) : LookedUp perform "main" handle now (exec read now) := (current now).1
  have missing : store.resolve "main" handle.immediate =
      .ok (.failure (.notFound handle.immediate)) := by cbv
  have found : (after [last]).resolve "main" handle.immediate = .ok (.value last) := by cbv
  have tied : (after feeds).resolve "main" handle.immediate =
      .ok (.failure (.ambiguous handle.immediate [last, second, first])) := by cbv
  have built : exec (perform (.component "main" last)) (after [last]) =
      (.ok .null, (exec (perform (.component "main" last)) (after [last])).2) := by rfl
  exact ⟨_, rfl, rfl, (ended store).unique (.missing missing),
    ((ended _).unique (.found found)).trans built, (ended _).unique (.tied (by decide) tied)⟩

theorem feed_refused : Operation.runAll "main" (providing [last, bad]) store =
      (history [last, bad], after [last, bad]) ∧
    ((after [last, bad]).registry "main").eligible store.world [] numbers = .ok [last, bad] ∧
    exec read (after [last, bad]) = (.error (.badType (.badHint .notAType)), after [last, bad]) := by
  have lookup : ((after [last, bad]).registry "main").eligible store.world [] numbers =
      .ok [last, bad] := by cbv
  have refused : (after [last, bad]).resolve "main" handle.immediate =
      .error (.badType (.badHint .notAType)) := by cbv
  exact ⟨rfl, lookup, (lookedUp perform "main" handle _).unique (.refused refused)⟩

end Gauge
end Wiring
