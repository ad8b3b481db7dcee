import Wiring.Proofs.Registry.Collection
import Wiring.Proofs.Registry.Dependencies
import Wiring.Proofs.Registry.Identity
import Wiring.Proofs.Registry.Returns

/-! Registries in the course of a run. Whatever is done to a registry, and whether or not it fails,
its tables stay in step: places are given out in order, names are taken once, and behind every name
there is an object or a provider. A registration that fails leaves all registries as they are, and so
does fetching a component, if its provider keeps to itself. -/
namespace Wiring

inductive Call where
  | operation (o : Operation)
  | registerDependent (dependency dependent : String)
deriving Repr

def Call.run (registry : String) : Call → Run (Option Registered)
  | operation o => o.run registry
  | registerDependent dependency dependent => do
    let _ ← Run.modifyRegistry registry (·.addDependency dependency dependent)
    return none

def Call.Aloof (title : String) : Call → Prop
  | operation o => o.Aloof title
  | registerDependent .. => True

/-- The tables of a registry are in step with the history of registrations. -/
structure Registry.Consistent (history : List Registered) (r : Registry) : Prop where
  indexes : (candidates history).map (·.index) = List.range history.length
  entries : r.entries = (candidates history).filter (!·.resolvable)
  resolvable : r.resolvable.map (·.1) = (candidates history).filter (·.resolvable)
  names : r.names = named (candidates history)
  distinct : r.names.Nodup
  available : ∀ c ∈ r.entries,
    (r.instances.lookup c.name).isSome ∨ (r.providers.lookup c.name).isSome

theorem Registry.Recorded.consistent {title : String} {first last : Store}
    {history : List Registered} {r : Registry} (recorded : Recorded title first last history r) :
    r.Consistent history where
  indexes := recorded.indexes_eq_range
  entries := recorded.entries
  resolvable := recorded.resolvable
  names := by
    rw [Registry.names, recorded.entries]
    rfl
  distinct := recorded.namesDistinct
  available c mem := by
    rw [recorded.entries, List.mem_filter, candidates, List.mem_map] at mem
    obtain ⟨⟨e, listed, rfl⟩, -⟩ := mem
    cases source : e.source with
    | given v =>
      obtain ⟨x, last⟩ := Option.isSome_iff_exists.mp (lastGiven_isSome listed source)
      simp [recorded.given _ _ last]
    | made p => simp [(recorded.providers e.candidate.name p).mpr ⟨e, listed, rfl, source⟩]

namespace Run
variable {α β : Type}

/-- If the computation fails, no registry has changed. -/
def Intact (x : Run α) : Prop :=
  ∀ st e after, exec x st = (.error e, after) → after.registries = st.registries

namespace Intact

theorem of_keeps {x : Run α} (drifts : Keeps Store.Drifts x) : Intact x := by
  intro st e after failed
  have kept := (drifts st).registries
  rwa [failed] at kept

theorem bind {x : Run α} {f : α → Run β} (drifts : Keeps Store.Drifts x)
    (rest : ∀ a, Intact (f a)) : Intact (x >>= f) := by
  intro st e after failed
  have kept := (drifts st).registries
  obtain early | ⟨a, next, ran, late⟩ := exec_bind_eq_error.mp failed
  · rwa [early] at kept
  · rw [ran] at kept
    exact (rest a next e after late).trans kept

theorem add (registry name : String) (type : Hint) (o : Registration) (put : Registry → Registry) :
    Intact (do
      let c ← addEntry registry name type o
      modifyRegistry registry put
      return c) := by
  intro st e after failed
  rw [exec_bind, exec_addEntry] at failed
  cases added : (st.registry registry).add name type o with
  | error e' =>
    rw [added] at failed
    cases failed
    rfl
  | ok entry =>
    rw [added] at failed
    cases failed

theorem register (registry name : String) (v : Value) (o : Registration) :
    Intact (Run.register registry name v o) := by
  have enter (priority : Option Int) : Intact (do
      let st ← get
      let cls := st.classOf v
      let primary := o.primary || st.world.isPrimary (.cls cls)
      let c ← addEntry registry name (o.declaredType.getD (.cls cls)) { o with priority, primary }
      modifyRegistry registry (·.keep name v)
      return c) := bind .get fun st => add registry name _ _ _
  have decides : Keeps Store.Drifts (priorityOf v) :=
    keeps_priorityOf (serves_perform fun handed : False => handed.elim) v
  unfold Run.register
  dsimp only
  split
  · exact enter _
  · exact bind decides enter

theorem registerProvider (registry name : String) (p : Provider) (o : Registration) :
    Intact (Run.registerProvider registry name p o) := by
  have enter (type : Hint) (o : Registration) : Intact (do
      let c ← addEntry registry name type o
      modifyRegistry registry (·.provide name p)
      return c) := add registry name type o _
  refine bind .get fun st => ?_
  dsimp only
  split
  · exact enter _ _
  · exact bind (.lift _) fun type => enter type _

theorem provide (registry : String) (name : Option String) (p : Provider) (o : Registration) :
    Intact (Run.provide registry name p o) := by
  refine bind .get fun st => ?_
  split
  · exact registerProvider registry _ p o
  · exact registerProvider registry _ p o
  · exact of_keeps (.throw _)

end Intact

theorem registers_call (registry : String) (call : Call) :
    Registers registry (call.run registry) := by
  cases call with
  | operation o => exact registers_run registry o
  | registerDependent dependency dependent =>
    refine .of_quiet fun st => .setRegistry (.refl st) ?_
    exact Registry.grows_addDependency _ dependency dependent

theorem repeatsNone_call {title registry : String} {call : Call}
    (aloof : registry = title → call.Aloof title) :
    Keeps (Store.RepeatsNone title) (call.run registry) := by
  cases call with
  | operation o => exact o.repeatsNone aloof
  | registerDependent dependency dependent =>
    exact .bind (keeps_modifyRegistry fun _ _ once => once.of_eq rfl rfl rfl) fun _ => .pure _

theorem returnedOnce_recordAll {title : String} {calls : List (String × Call)} {st now : Store}
    {history : List Registered} (aloof : ∀ call, (title, call) ∈ calls → call.Aloof title)
    (once : (st.registry title).ReturnedOnce title)
    (ran : recordAll Call.run title calls st = (history, now)) :
    (now.registry title).ReturnedOnce title := by
  induction calls generalizing st history with
  | nil =>
    cases ran
    exact once
  | cons step rest ih =>
    obtain ⟨registry, call⟩ := step
    cases ran
    refine ih (fun call mem => aloof call (List.mem_cons_of_mem _ mem)) ?_ rfl
    exact repeatsNone_call (fun same => aloof call (by simp [same])) st once

/-- Fetching a component that is not at hand is one return of its provider, if that keeps to itself. -/
theorem returned_of_getComponent {title : String} {c : Candidate} {v : Value} {st next : Store}
    (missing : (st.registry title).instances.lookup c.name = none)
    (aloof : ∀ p, (st.registry title).providers.lookup c.name = some p → p.Aloof title)
    (got : exec (getComponent title c) st = (.ok v, next)) :
    (next.registry title).returned = (st.registry title).returned ++ [c.name] := by
  obtain ⟨n, fetched⟩ := fetched_getComponent title c st
  rw [got] at fetched
  cases fetched with
  | atHand held =>
    rw [missing] at held
    cases held
  | made _ provider ran =>
    have left := aloof _ provider n st
    rw [ran] at left
    rw [Store.registry_setRegistry_self, left]
    rfl

theorem getComponent_fails {title : String} {c : Candidate} {st after : Store} {e : Error}
    (failed : exec (getComponent title c) st = (.error e, after)) :
    (st.registry title).instances.lookup c.name = none ∧
    ((st.registry title).providers.lookup c.name = none ∧ after = st ∨
      ∃ p n, (st.registry title).providers.lookup c.name = some p ∧
        exec (build (performWithin n) p) st = (.error e, after)) := by
  obtain ⟨n, fetched⟩ := fetched_getComponent title c st
  rw [failed] at fetched
  cases fetched with
  | unknown missing unprovided => exact ⟨missing, .inl ⟨unprovided, rfl⟩⟩
  | failed missing provider ran => exact ⟨missing, .inr ⟨_, n, provider, ran⟩⟩

/-- Every run of calls leaves a registry that was empty consistent. The eligible candidates stand in
the order of registration. Fetching a named component fails only if its provider does, and once it was
fetched, an object stays at hand that is given without anything else being done. If all providers keep
to themselves, none of them has returned twice. Registrations that fail change no registry, and
neither does fetching a component whose provider leaves it alone. -/
theorem calls_consistent {title : String} {calls : List (String × Call)} {st now : Store}
    {history : List Registered} (empty : st.registry title = {})
    (ran : recordAll Call.run title calls st = (history, now)) :
    (now.registry title).Consistent history ∧
    (∀ w h required cs, (now.registry title).eligible w h required = .ok cs →
      cs.Pairwise (·.index < ·.index)) ∧
    (∀ c ∈ (now.registry title).entries, ∀ e after,
      exec (getComponent title c) now = (.error e, after) →
      ∃ p n, (now.registry title).providers.lookup c.name = some p ∧
        exec (build (performWithin n) p) now = (.error e, after)) ∧
    (∀ c v next, exec (getComponent title c) now = (.ok v, next) →
      ∀ more later last c', recordAll Call.run title more next = (later, last) → c'.name = c.name →
        exec (getComponent title c') last = (.ok ((lastGiven later c.name).getD v), last)) ∧
    (∀ c v next, (now.registry title).instances.lookup c.name = none →
      (∀ p, (now.registry title).providers.lookup c.name = some p → p.Aloof title) →
      exec (getComponent title c) now = (.ok v, next) →
      (next.registry title).returned = (now.registry title).returned ++ [c.name]) ∧
    ((∀ call, (title, call) ∈ calls → call.Aloof title) → (now.registry title).returned.Nodup) ∧
    (∀ name v o, Intact (register title name v o)) ∧
    (∀ name p o, Intact (registerProvider title name p o)) ∧
    (∀ name p o, Intact (provide title name p o)) ∧
    ∀ c e after, exec (getComponent title c) now = (.error e, after) →
      (∀ p, (now.registry title).providers.lookup c.name = some p → p.Aloof title) →
      after.registry title = now.registry title := by
  have recorded := (evolves_recordAll registers_call ran).recorded empty
  refine ⟨recorded.consistent, ?_, ?_, ?_, fun _ _ _ => returned_of_getComponent, fun aloof => ?_,
    .register title, .registerProvider title, .provide title, ?_⟩
  · intro w h required cs lookup
    exact recorded.pairwise_index.sublist (recorded.eligible_sublist lookup).1
  · intro c mem e after failed
    obtain ⟨missing, ⟨none, -⟩ | found⟩ := getComponent_fails failed
    · have available := recorded.consistent.available c mem
      simp [missing, none] at available
    · exact found
  · -- what was fetched is at hand, and no call takes it away
    intro c v next got more later last c' ranOn same
    have held := (evolves_recordAll registers_call ranOn).registry.at_hand (held_of_getComponent got)
    rw [← same] at held ⊢
    exact getComponent_of_held held
  · have once : (st.registry title).ReturnedOnce title := empty ▸ .empty
    exact (returnedOnce_recordAll aloof once ran).distinct
  · intro c e after failed aloof
    obtain ⟨-, ⟨-, rfl⟩ | ⟨p, n, provider, ranOut⟩⟩ := getComponent_fails failed
    · rfl
    · have same := aloof p provider n now
      rwa [ranOut] at same

end Run

/-! A radio takes a lamp and looks up a clock. Where there is no clock, the error is the one about
the clock, and a lamp that was made for the radio stays. -/
namespace Radio
open Run

def clock : Hint := .cls (.declared 0)

def lamp : Hint := .cls (.declared 1)

def initializer : Function where
  name := "__init__"
  owner := "Radio"
  parameters := [{ name := "lamp", type := some lamp },
    { name := "clocks", type := some (.alias .typing (.builtin .objectFactory) [clock]) }]
  body := .steps [.setLookup "clock" "clocks"]

def shop : World where
  moduleName := "shop"
  classes := [("Clock", []), ("Lamp", []), ("Radio", [("__init__", .method initializer)])].mapIdx
    fun n (name, members) => {
      name, qualifiedName := name, bases := [.builtin .object], members
      linearization := [.declared n, .builtin .object] }

def light : Provider := .cls (.declared 1)

def maker (registry : String) : Provider :=
  .function { name := "make_radio", product := .created (.declared 2) registry }

def radio : Candidate where
  name := "radio"
  declaredType := .cls (.declared 2)

def bulb (index : Nat) : Candidate where
  name := "lamp"
  declaredType := lamp
  index := index

def store : Store where
  world := shop

/-- Registers providers of a radio and of a lamp, which the radio finds in the same registry, and then
tries to use the name of the radio again. -/
def calls (registry : String) : List (String × Call) := [
  ("main", .operation (.registerProvider "radio" (maker registry)
    { declaredType := some radio.declaredType })),
  (registry, .operation (.registerProvider "lamp" light {})),
  ("main", .operation (.registerProvider "radio" light {}))]

def home : Store := { store with
  registries := [("main", {
    entries := [radio, bulb 1], providers := [("radio", maker "main"), ("lamp", light)] })] }

def elsewhere : Store := { store with
  registries := [
    ("main", { entries := [radio], providers := [("radio", maker "spare")] }),
    ("spare", { entries := [bulb 0], providers := [("lamp", light)] })] }

theorem recordAll_calls :
    recordAll Call.run "main" (calls "main") store =
      ([⟨radio, .made (maker "main")⟩, ⟨bulb 1, .made light⟩], home) ∧
    recordAll Call.run "main" (calls "spare") store = ([⟨radio, .made (maker "spare")⟩], elsewhere) :=
  ⟨by rfl, by rfl⟩

theorem aloof_light : light.Aloof "main" := by
  refine aloof_of_not_created (fun f c registry own => ?_) "main"
  cases own

def fetching : List (String × Call) :=
  [("main", .operation (.registerProvider "lamp" light {})),
    ("main", .operation (.getComponent (bulb 0))), ("main", .operation (.getComponent (bulb 0)))]

def bright : Store := (recordAll Call.run "main" fetching store).2

theorem aloof_fetching : ∀ call, ("main", call) ∈ fetching → call.Aloof "main" := by
  intro call mem
  simp only [fetching, List.mem_cons, Prod.mk.injEq, true_and, List.not_mem_nil, or_false] at mem
  rcases mem with rfl | rfl | rfl
  · exact aloof_light
  · trivial
  · trivial

theorem shop_consistent :
    (home.registry "main").Consistent
      [⟨radio, .made (maker "main")⟩, ⟨bulb 1, .made light⟩] ∧
    (home.registry "main").names = ["radio", "lamp"] ∧ light.Aloof "main" ∧
    (∃ after, exec (getComponent "main" (bulb 1)) home = (.ok (.object 0), after) ∧
      exec (getComponent "main" (bulb 1)) after = (.ok (.object 0), after) ∧
      (after.registry "main").returned = ["lamp"]) ∧
    (bright.registry "main").returned = ["lamp"] ∧ (bright.registry "main").returned.Nodup := by
  obtain ⟨consistent, -, -, kept, returns, -⟩ := calls_consistent rfl recordAll_calls.1
  have made : exec (getComponent "main" (bulb 1)) home =
      (.ok (.object 0), (exec (getComponent "main" (bulb 1)) home).2) := by rfl
  have alone (p : Provider) (provider : (home.registry "main").providers.lookup "lamp" = some p) :
      p.Aloof "main" := by
    cases provider
    exact aloof_light
  obtain ⟨-, -, -, -, -, once, -⟩ :=
    calls_consistent rfl (rfl : recordAll Call.run "main" fetching store = (_, bright))
  exact ⟨consistent, consistent.names, aloof_light,
    ⟨_, made, kept _ _ _ made [] [] _ (bulb 1) rfl rfl, returns (bulb 1) _ _ rfl alone made⟩,
    rfl, once aloof_fetching⟩

def missing : Error := .noCandidate (.notFound { type := clock, name := some "clocks" }) none

theorem radio_refused :
    radio ∈ (elsewhere.registry "main").entries ∧
    (exec (getComponent "main" radio) elsewhere).1 = .error missing ∧
    radio ∈ (home.registry "main").entries ∧
    (exec (getComponent "main" radio) home).1 = .error missing ∧
    (home.registry "main").instances = [] ∧
    ((exec (getComponent "main" radio) home).2.registry "main").instances =
      [("lamp", .object 0)] := by
  have away : (exec (getComponent "main" radio) elsewhere).1 = .error missing := by cbv
  have here : (exec (getComponent "main" radio) home).1 = .error missing := by cbv
  have left : ((exec (getComponent "main" radio) home).2.registry "main").instances =
      [("lamp", .object 0)] := by cbv
  exact ⟨List.mem_cons_self, away, List.mem_cons_self, here, rfl, left⟩

end Radio
end Wiring
