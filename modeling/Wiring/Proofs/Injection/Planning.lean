import Mathlib.Logic.Relation
import Wiring.Proofs.Injection.Ambiguity
import Wiring.Proofs.Registry.Identity

/-! What is left behind when an injection stops before anything is applied. Planning only fetches
components. So if the providers leave the target and the record of dependencies alone, both are as
before, and the error is about the first request in the way: the points before its own are planned,
and the requests before it have values. -/
namespace Wiring
namespace Run

/-- Fetching components of the registry, successfully or not, leads from one store to the other. -/
def Fetches (registry : String) : Store → Store → Prop :=
  Relation.ReflTransGen fun st next => ∃ c, next = (exec (getComponent registry c) st).2

instance (registry : String) : IsPreorder Store (Fetches registry) :=
  inferInstanceAs (IsPreorder Store (Relation.ReflTransGen _))

/-- The attributes of the target and the dependencies on record are the same in both stores. -/
structure Spares (target : Value) (st after : Store) : Prop where
  attributes : ∀ name, after.world.readValue after.heap target name =
    st.world.readValue st.heap target name
  object : ∀ id, target = .object id → after.heap[id]? = st.heap[id]?
  dependencies : ∀ title, (after.registry title).dependencies = (st.registry title).dependencies

/-- Providers that are called to fetch components spare the target. -/
def Harmless (registry : String) (target : Value) (st : Store) : Prop :=
  ∀ mid name p n, Fetches registry st mid → (mid.registry registry).instances.lookup name = none →
    (mid.registry registry).providers.lookup name = some p →
    Spares target mid (exec (build (performWithin n) p) mid).2

section
variable {registry : String} {target : Value} {st mid after : Store}

namespace Spares

theorem refl (st : Store) : Spares target st st := ⟨fun _ => rfl, fun _ _ => rfl, fun _ => rfl⟩

theorem trans (begun : Spares target st mid) (ended : Spares target mid after) :
    Spares target st after where
  attributes name := (ended.attributes name).trans (begun.attributes name)
  object id own := (ended.object id own).trans (begun.object id own)
  dependencies title := (ended.dependencies title).trans (begun.dependencies title)

theorem keepReturned (st : Store) (registry name : String) (v : Value) :
    Spares target st (st.setRegistry registry ((st.registry registry).keepReturned name v)) where
  attributes _ := rfl
  object _ _ := rfl
  dependencies title := by
    by_cases same : title = registry
    · rw [same, Store.registry_setRegistry_self]
      rfl
    · rw [Store.registry_setRegistry_of_ne same]

end Spares

theorem grows_of_fetches (fetches : Fetches registry st after) : st.Grows after := by
  induction fetches with
  | refl => exact .refl st
  | tail _ step ih =>
    obtain ⟨c, rfl⟩ := step
    exact ih.trans (quiet_getComponent registry c _)

/-- Apart from what the provider does, fetching a component only puts it at hand. -/
theorem spares_getComponent (harmless : Harmless registry target st)
    (reached : Fetches registry st mid) (c : Candidate) :
    Spares target mid (exec (getComponent registry c) mid).2 := by
  obtain ⟨n, fetched⟩ := fetched_getComponent registry c mid
  generalize exec (getComponent registry c) mid = ended at fetched ⊢
  cases fetched with
  | atHand | unknown => exact .refl mid
  | @failed p _ _ missing provider ran =>
    have called := harmless mid c.name p n reached missing provider
    rwa [ran] at called
  | @made p v next missing provider ran =>
    have called := harmless mid c.name p n reached missing provider
    rw [ran] at called
    exact called.trans (.keepReturned next registry c.name v)

theorem spares_of_fetches (harmless : Harmless registry target st)
    (fetches : Fetches registry st after) : Spares target st after := by
  induction fetches with
  | refl => exact .refl st
  | tail reached step ih =>
    obtain ⟨c, rfl⟩ := step
    exact ih.trans (spares_getComponent harmless reached c)

theorem fetches_planPoints (registry component : String) (explicit : Entries Value)
    (points : List InjectionPoint) :
    Keeps (Fetches registry) (planPoints perform registry component explicit points) :=
  keeps_planPoints (fun c _ => .single ⟨c, rfl⟩) explicit points

end

section
variable {perform : Perform} {registry component : String} {explicit : Entries Value}
  {p : InjectionPoint} {q : Request} {st now after : Store} {e : Error}

/-- A request whose turn has come is in the way, or an optional method is given up because of it, or
it receives its value. -/
theorem request_cases (perform : Perform) (registry component : String) (p : InjectionPoint)
    (q : Request) (st : Store) :
    (¬ q.isLazy ∧ ∃ e after, Obstructs perform registry component p q st e after) ∨
    (¬ q.isLazy ∧ p.kind = .method ∧ p.required = false ∧
      st.resolve registry q = .ok (.failure (.notFound q))) ∨
    ∃ result value reached, result.failure? = none ∧
      exec (resolveNow registry q) st = (.ok result, st) ∧
      exec (materialise perform registry q result) st = (.ok value, reached) := by
  by_cases handle : q.isLazy
  · refine .inr (.inr ⟨.empty, .factory q registry, st, rfl, ?_, ?_⟩)
    · rw [resolveNow, if_pos handle]
      rfl
    · rw [materialise, if_pos handle]
      rfl
  cases resolved : st.resolve registry q with
  | error e => exact .inl ⟨handle, e, st, .refused resolved⟩
  | ok result =>
    cases failed : result.failure? with
    | none =>
      rcases had : exec (materialise perform registry q result) st with ⟨e | value, reached⟩
      · exact .inl ⟨handle, e, reached, .unavailable resolved failed had⟩
      · exact .inr (.inr ⟨result, value, reached, failed,
          (exec_resolveNow handle).trans (by rw [resolved]), had⟩)
    | some f =>
      cases result <;> cases failed
      by_cases fatal : p.Fatal f
      · exact .inl ⟨handle, _, st, .failed resolved fatal⟩
      · rcases Registry.resolve_failure resolved with rfl | ⟨tied, rfl⟩
        · refine .inr (.inl ⟨handle, ?_, ?_, rfl⟩)
          · cases kind : p.kind <;> simp_all [InjectionPoint.Fatal]
          · simpa using fun required => fatal (.inr required)
        · exact absurd trivial fatal

theorem obstructed_of_planParameters {requests : List Request} (method : p.kind = .method)
    (stopped : exec (planParameters perform registry component p requests) st =
      (.error e, after)) :
    ∃ earlier q later values now, requests = earlier ++ q :: later ∧ ¬ q.isLazy ∧
      exec (planParameters perform registry component p earlier) st = (.ok (some values), now) ∧
      Obstructs perform registry component p q now e after := by
  -- A parameter that receives its value can change the store, so the store is left general.
  induction requests generalizing st with
  | nil => cases stopped
  | cons q requests ih =>
    rcases request_cases perform registry component p q st with ⟨handle, e', after', obstructs⟩ |
      ⟨handle, -, optional, missing⟩ | ⟨result, value, reached, found, resolved, had⟩
    · rw [exec_planParameters_obstructed method handle obstructs requests] at stopped
      cases stopped
      exact ⟨[], q, requests, [], st, rfl, handle, rfl, obstructs⟩
    · rw [exec_planParameters_missing handle optional missing] at stopped
      cases stopped
    · rw [exec_planParameters_found found resolved, exec_bind_of_ok had] at stopped
      rcases walked : exec (planParameters perform registry component p requests) reached with
        ⟨e' | rest, last⟩
      · rw [exec_bind_of_error walked] at stopped
        cases stopped
        obtain ⟨earlier, q', later, values, now, rfl, handle, planned, obstructs⟩ := ih walked
        refine ⟨q :: earlier, q', later, (q, value, q.injected result) :: values, now, rfl, handle,
          ?_, obstructs⟩
        rw [exec_planParameters_found found resolved, exec_bind_of_ok had,
          exec_bind_of_ok planned]
        rfl
      · rw [exec_bind_of_ok walked] at stopped
        cases stopped

theorem exec_planField_found {result : Resolution} {value : Value} (found : result.failure? = none)
    (resolved : exec (resolveNow registry q) st = (.ok result, st))
    (had : exec (materialise perform registry q result) st = (.ok value, now)) :
    ∃ step last, exec (planField perform registry component p q) st = (.ok step, last) := by
  rw [planField, exec_bind_of_ok resolved]
  cases result with
  | failure f => cases found
  | empty =>
    cases handle : q.isLazy with
    | true => exact ⟨_, now, exec_bind_of_ok had _⟩
    | false => exact ⟨none, st, rfl⟩
  | _ => exact ⟨_, now, exec_bind_of_ok had _⟩

theorem obstructed_of_planPoint
    (stopped : exec (planPoint perform registry component p) st = (.error e, after)) :
    ∃ earlier q later values now, p.decisive = earlier ++ q :: later ∧ ¬ q.isLazy ∧
      exec (planParameters perform registry component p earlier) st = (.ok (some values), now) ∧
      Obstructs perform registry component p q now e after := by
  unfold InjectionPoint.decisive
  unfold planPoint at stopped
  cases kind : p.kind with
  | field =>
    rw [kind] at stopped
    cases requests : p.requests with
    | nil =>
      rw [requests] at stopped
      cases stopped
    | cons q rest =>
      rw [requests] at stopped
      dsimp only at stopped
      rcases request_cases perform registry component p q st with
        ⟨handle, e', after', obstructs⟩ | ⟨-, method, -, -⟩ |
        ⟨result, value, reached, found, resolved, had⟩
      · rw [exec_planField_obstructed handle obstructs] at stopped
        cases stopped
        exact ⟨[], q, [], [], st, rfl, handle, rfl, obstructs⟩
      · rw [kind] at method
        cases method
      · obtain ⟨step, last, planned⟩ := exec_planField_found (p := p) found resolved had
        rw [planned] at stopped
        cases stopped
  | method =>
    rw [kind] at stopped
    dsimp only at stopped
    rw [planMethod] at stopped
    rcases walked : exec (planParameters perform registry component p p.requests) st with
      ⟨e' | values, last⟩
    · rw [exec_bind_of_error walked] at stopped
      cases stopped
      exact obstructed_of_planParameters kind walked
    · rw [exec_bind_of_ok walked] at stopped
      cases stopped

/-- Points are planned up to the first that has a request in the way. -/
theorem obstructed_of_planPoints {points : List InjectionPoint}
    (stopped : exec (planPoints perform registry component explicit points) st =
      (.error e, after)) :
    ∃ before p rest earlier q later now, points = before ++ p :: rest ∧
      explicit.lookup p.propertyName = none ∧ p.decisive = earlier ++ q :: later ∧ ¬ q.isLazy ∧
      Turn perform registry component explicit before p earlier st now ∧
      Obstructs perform registry component p q now e after := by
  induction points generalizing st with
  | nil => cases stopped
  | cons p points ih =>
    cases cover : explicit.lookup p.propertyName with
    | some x =>
      rw [planPoints_covered cover] at stopped
      obtain ⟨before, p', rest, earlier, q, later, now, rfl, uncovered, asked, handle,
        ⟨planned, reached, values, first, walked⟩, obstructs⟩ := ih stopped
      exact ⟨p :: before, p', rest, earlier, q, later, now, rfl, uncovered, asked, handle,
        ⟨planned, reached, values, by rw [planPoints_covered cover, first], walked⟩, obstructs⟩
    | none =>
      rw [planPoints_cons cover] at stopped
      rcases here : exec (planPoint perform registry component p) st with ⟨e' | step, next⟩
      · rw [exec_bind_of_error here] at stopped
        cases stopped
        obtain ⟨earlier, q, later, values, now, asked, handle, walked, obstructs⟩ :=
          obstructed_of_planPoint here
        exact ⟨[], p, points, earlier, q, later, now, rfl, cover, asked, handle,
          ⟨[], st, values, rfl, walked⟩, obstructs⟩
      · rw [exec_bind_of_ok here] at stopped
        rcases there : exec (planPoints perform registry component explicit points) next with
          ⟨e' | steps, last⟩
        · rw [exec_bind_of_error there] at stopped
          cases stopped
          obtain ⟨before, p', rest, earlier, q, later, now, rfl, uncovered, asked, handle,
            ⟨planned, reached, values, first, walked⟩, obstructs⟩ := ih there
          refine ⟨p :: before, p', rest, earlier, q, later, now, rfl, uncovered, asked, handle,
            ⟨step.toList ++ planned, reached, values, ?_, walked⟩, obstructs⟩
          rw [planPoints_cons cover, exec_bind_of_ok here, exec_bind_of_ok first]
          rfl
        · rw [exec_bind_of_ok there] at stopped
          cases stopped

/-- The first request of the point that fails, once the points before it are planned. -/
def FirstFailure (perform : Perform) (registry component : String) (explicit : Entries Value)
    (before : List InjectionPoint) (p : InjectionPoint) (st : Store) (f : Failure) : Prop :=
  ∃ earlier q later now, p.decisive = earlier ++ q :: later ∧ ¬ q.isLazy ∧
    Turn perform registry component explicit before p earlier st now ∧
    now.resolve registry q = .ok (.failure f)

theorem stopped_of_firstFailure {before : List InjectionPoint} (rest : List InjectionPoint)
    {f : Failure} (uncovered : explicit.lookup p.propertyName = none) (fatal : p.Fatal f)
    (fails : FirstFailure perform registry component explicit before p st f) :
    ∃ now, exec (planPoints perform registry component explicit (before ++ p :: rest)) st =
      (.error (.injection component p.describe (f.toError p.describe)), now) := by
  obtain ⟨earlier, q, later, now, asked, handle, ⟨_, _, values, first, walked⟩, failed⟩ := fails
  have stuck := exec_planPoint_obstructed asked handle walked (.failed failed fatal)
  refine ⟨now, ?_⟩
  rw [planPoints_append, exec_bind_of_ok first, planPoints_cons uncovered]
  exact exec_bind_of_error (exec_bind_of_error stuck _) _

end

/-- An injection that stops while points are resolved has applied nothing: the attributes of the
target and the dependencies on record are as before, if the providers leave them alone. If it stops
because a request fails, the error is about the first point with a failure that it cannot do
without, and its cause tells whether there are no candidates or too many. And every such failure
stops the injection when its turn comes. -/
theorem inject_unapplied {registry component : String} {explicit : Entries Value} {m : Metadata}
    {target : Value} {st : Store} (harmless : Harmless registry target st) :
    (∀ e after, exec (planPoints perform registry component explicit m.points) st =
        (.error e, after) →
      exec (inject perform registry component m explicit target) st = (.error e, after) ∧
      Spares target st after ∧
      ∃ before p rest earlier q later now, m.points = before ++ p :: rest ∧
        explicit.lookup p.propertyName = none ∧ p.decisive = earlier ++ q :: later ∧ ¬ q.isLazy ∧
        Turn perform registry component explicit before p earlier st now ∧
        Obstructs perform registry component p q now e after ∧
        (∀ front p' back f, before = front ++ p' :: back →
          explicit.lookup p'.propertyName = none →
          FirstFailure perform registry component explicit front p' st f → ¬ p'.Fatal f) ∧
        ∀ f, now.resolve registry q = .ok (.failure f) → p.Fatal f ∧ ∃ cause,
          e = .injection component p.describe cause ∧
          ((∃ absence point, cause = .noCandidate absence point) ↔ f.reason = "not-found") ∧
          ((∃ type names point, cause = .ambiguous type names point) ↔
            f.reason = "ambiguous")) ∧
    ∀ before p rest f, m.points = before ++ p :: rest → explicit.lookup p.propertyName = none →
      FirstFailure perform registry component explicit before p st f → p.Fatal f →
      ∃ after, exec (inject perform registry component m explicit target) st =
        (.error (.injection component p.describe (f.toError p.describe)), after) := by
  refine ⟨fun e after stopped => ?_, fun before p rest f place uncovered fails fatal => ?_⟩
  · have fetched := fetches_planPoints registry component explicit m.points st
    rw [stopped] at fetched
    obtain ⟨before, p, rest, earlier, q, later, now, place, uncovered, asked, handle, turn,
      obstructs⟩ := obstructed_of_planPoints stopped
    refine ⟨exec_bind_of_error stopped _, spares_of_fetches harmless fetched, before, p, rest,
      earlier, q, later, now, place, uncovered, asked, handle, turn, obstructs, ?_, ?_⟩
    · rintro front p' back f rfl free fails fatal
      obtain ⟨_, _, _, planned, -⟩ := turn
      obtain ⟨_, failed⟩ := stopped_of_firstFailure back free fatal fails
      rw [planned] at failed
      cases failed
    · intro f failed
      cases obstructs with
      | refused refusal =>
        rw [failed] at refusal
        cases refusal
      | @failed f' failed' fatal =>
        rw [failed] at failed'
        cases failed'
        refine ⟨fatal, _, rfl, ?_⟩
        cases f <;> simp [Failure.toError, Failure.reason]
      | unavailable resolved found missed =>
        rw [failed] at resolved
        cases resolved
        cases found
  · obtain ⟨after, stopped⟩ := stopped_of_firstFailure rest uncovered fatal fails
    rw [← place] at stopped
    exact ⟨after, exec_bind_of_error stopped _⟩

end Run

/-! The desk asks for a clock and then for a lamp. Where a clock can be made and there are two lamps,
the clock is made, and the lamp stops the injection; the desk is left as it is. -/
namespace Desk
open Run

def clock : Candidate where
  name := "clock"
  declaredType := .cls (.declared 1)
  index := 2

def winding : Provider := .function { name := "make_clock", product := .value (.object 2) }

def furnished (made : Entries Value) (events : List Event) : Store :=
  { store with
    heap := store.heap ++ [{ cls := .declared 1 }]
    registries := [("main", {
      entries := lamps ++ [clock], instances := made, providers := [("clock", winding)]
      returned := made.names })]
    events := events }

def silent : Store := furnished [] []

def ticking : Store := furnished [("clock", .object 2)] [.built "make_clock"]

theorem harmless_winding : Harmless "main" (.object 1) silent := by
  intro mid name p n reached _ provider
  rw [((grows_of_fetches reached).registry "main").providers] at provider
  cases List.mem_singleton.mp (Entries.mem_of_lookup provider)
  exact ⟨fun _ => rfl, fun _ _ => rfl, fun _ => rfl⟩

theorem desk_untouched : exec (inject perform "main" "desk" (points 3) [] (.object 1)) silent =
      (.error (.injection "desk" "method 'set_parts(clock, lamp)'"
        (.ambiguous (.cls (.declared 0)) ["left", "right"]
          (some "method 'set_parts(clock, lamp)'"))), ticking) ∧
    Spares (.object 1) silent ticking := by
  have place : (points 3).points = [parts 3 [part "clock" 1, part "lamp" 0]] := by rfl
  have found : silent.resolve "main" (part "clock" 1) = .ok (.value clock) := by cbv
  have tied : ticking.resolve "main" (part "lamp" 0) =
      .ok (.failure (.ambiguous (part "lamp" 0) lamps)) := by cbv
  have made : exec (materialise perform "main" (part "clock" 1) (.value clock)) silent =
      (.ok (.object 2), ticking) := by rfl
  have walked : exec (planParameters perform "main" "desk"
      (parts 3 [part "clock" 1, part "lamp" 0]) [part "clock" 1]) silent =
      (.ok (some [(part "clock" 1, .object 2, [clock])]), ticking) := by
    have resolved : exec (resolveNow "main" (part "clock" 1)) silent =
        (.ok (.value clock), silent) := (exec_resolveNow (by decide)).trans (by rw [found])
    rw [exec_planParameters_found rfl resolved, exec_bind_of_ok made]
    rfl
  have asked : (parts 3 [part "clock" 1, part "lamp" 0]).decisive =
      [part "clock" 1] ++ part "lamp" 0 :: [] := rfl
  have stuck := exec_planPoint_ambiguous asked (by decide) walked tied
  have stopped : exec (planPoints perform "main" "desk" [] (points 3).points) silent =
      (.error (.injection "desk" "method 'set_parts(clock, lamp)'"
        (.ambiguous (.cls (.declared 0)) ["left", "right"]
          (some "method 'set_parts(clock, lamp)'"))), ticking) := by
    rw [place, planPoints_cons rfl]
    exact exec_bind_of_error stuck _
  obtain ⟨failed, spared, -⟩ := (inject_unapplied harmless_winding).1 _ _ stopped
  exact ⟨failed, spared⟩

end Desk

/-! A desk with a label takes another desk and a lamp. The other desk is made when it is asked for, and
making it exchanges the initialiser of their class. That leaves the desk itself alone, but not what it
has from its class. -/
namespace Alcove
open Run

def marked : Marker := Marker.make .autowired

def labelled : ClassInfo where
  name := "Labelled"
  qualifiedName := "Labelled"
  bases := [.builtin .protocol]
  linearization := [.declared 0, .builtin .protocol, .builtin .generic, .builtin .object]
  members := [("__init__", .method { name := "__init__", owner := "Labelled", body := .handOver })]
  structural := true

def desk : ClassInfo where
  name := "Desk"
  qualifiedName := "Desk"
  bases := [.declared 0]
  linearization :=
    [.declared 1, .declared 0, .builtin .protocol, .builtin .generic, .builtin .object]
  members := [("other", .marker marked), ("lamp", .marker marked)]
  annotations := [("other", .cls (.declared 0)), ("lamp", .cls (.declared 2))]
  layout := { attributes := true, weakReference := true }

def alcove : World where
  moduleName := "alcove"
  classes := [labelled, desk, { name := "Lamp", qualifiedName := "Lamp", bases := [.builtin .object]
                                linearization := [.declared 2, .builtin .object] }]

def store : Store where
  world := alcove
  heap := [{ cls := .declared 1 }]
  registries := [("main", {
    entries := [{ name := "other", declaredType := .cls (.declared 1) }]
    providers := [("other", .cls (.declared 1))] })]

def left : Store := (exec (injectInto "main" (.object 0) none []) store).2

theorem desk_reclassed :
    (exec (injectInto "main" (.object 0) none []) store).1 =
      .error (.injection "desk" "field 'lamp'"
        (.noCandidate (.notFound { type := .cls (.declared 2), name := some "lamp" })
          (some "field 'lamp'"))) ∧
    left.heap[0]? = store.heap[0]? ∧
    (left.registry "main").dependencies = (store.registry "main").dependencies ∧
    store.world.readValue store.heap (.object 0) "__init__" = .ok (.other "method") ∧
    left.world.readValue left.heap (.object 0) "__init__" = .ok (.other "method-wrapper") := by
  refine ⟨?_, ?_, ?_, ?_, ?_⟩ <;> cbv

end Alcove
end Wiring
