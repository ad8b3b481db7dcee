import Wiring.Proofs.Injection.Containers
import Wiring.Proofs.Injection.Handles
import Wiring.Proofs.Injection.Planning

/-! What fields receive. Each field receives what its request resolves to: a component, several of
them in a container, or a lazy handle; one that nothing is found for is left out. Components that
were fetched are at hand from then on, so that fields whose requests are answered as before receive
the same again. -/
namespace Wiring.Run
variable {registry component : String} {st next mid last after : Store} {q : Request}
  {p : InjectionPoint} {points : List InjectionPoint} {values : Entries Value}
  {cs : List Candidate}

/-- From the store on, the request of a field receives the value, if anything is found for it, and
the components of the candidates are fetched on the way. -/
inductive Gets (registry : String) (st : Store) (q : Request) :
    Option Value → List Candidate → Store → Prop
  | handle : q.isLazy → Gets registry st q (some (.factory q registry)) [] st
  | nothing : ¬ q.isLazy → st.resolve registry q = .ok .empty → Gets registry st q none [] st
  | single {c : Candidate} {v : Value} {next : Store} : ¬ q.isLazy →
    st.resolve registry q = .ok (.value c) → exec (getComponent registry c) st = (.ok v, next) →
    Gets registry st q (some v) [c] next
  | several {cs : List Candidate} {vs : List Value} {next : Store} : ¬ q.isLazy →
    st.resolve registry q = .ok (.values cs) →
    exec (cs.mapM (getComponent registry)) st = (.ok vs, next) →
    Gets registry st q (some (q.container cs vs)) cs next

/-- From the store on, the fields receive the values one after the other. One that nothing is found
for is left out. -/
inductive Fills (registry : String) :
    Store → List InjectionPoint → Entries Value → List Candidate → Store → Prop
  | nil {st : Store} : Fills registry st [] [] [] st
  | bound {st next last : Store} {p : InjectionPoint} {ps : List InjectionPoint} {q : Request}
      {v : Value} {values : Entries Value} {cs rest : List Candidate} :
    p.requests = [q] → Gets registry st q (some v) cs next →
    Fills registry next ps values rest last →
    Fills registry st (p :: ps) ((p.name, v) :: values) (cs ++ rest) last
  | left {st last : Store} {p : InjectionPoint} {ps : List InjectionPoint} {q : Request}
      {values : Entries Value} {rest : List Candidate} :
    p.requests = [q] → Gets registry st q none [] st → Fills registry st ps values rest last →
    Fills registry st (p :: ps) values rest last

theorem exec_planField_eager {result : Resolution} (handle : ¬ q.isLazy) :
    st.resolve registry q = .ok result → exec (planField perform registry component p q) st =
      match result with
      | .failure f => (.error (.injection component p.describe (f.toError p.describe)), st)
      | .empty => (.ok none, st)
      | result => exec (do
          let v ← materialise perform registry q result
          return some { title := p.describe, step := .assign p.name v
                        injected := result.found }) st := by
  intro resolved
  have eager : q.isLazy = false := by simpa using handle
  rw [planField, exec_bind, exec_resolveNow handle, resolved, eager]
  cases result <;> simp [Request.injected, eager]

theorem exec_planField_eq_ok {step : Option Planned} :
    exec (planField perform registry component p q) st = (.ok step, next) ↔
      ∃ value cs, Gets registry st q value cs next ∧ step = value.map fun v =>
        { title := p.describe, step := .assign p.name v, injected := cs } := by
  constructor
  · intro planned
    by_cases handle : q.isLazy
    · rw [(deferred perform registry handle).field component p] at planned
      cases planned
      exact ⟨_, _, .handle handle, rfl⟩
    cases resolved : st.resolve registry q with
    | error e =>
      rw [planField, exec_bind, exec_resolveNow handle, resolved] at planned
      cases planned
    | ok result =>
      rw [exec_planField_eager handle resolved] at planned
      cases result with
      | failure f => cases planned
      | empty =>
        cases planned
        exact ⟨none, [], .nothing handle resolved, rfl⟩
      | value c =>
        obtain ⟨v, now, fetched, planned⟩ := exec_bind_eq_ok.mp planned
        cases planned
        rw [materialise, if_neg handle] at fetched
        exact ⟨_, _, .single handle resolved fetched, rfl⟩
      | values cs =>
        obtain ⟨v, now, fetched, planned⟩ := exec_bind_eq_ok.mp planned
        cases planned
        rw [materialise, if_neg handle] at fetched
        obtain ⟨vs, now, fetched, made⟩ := exec_bind_eq_ok.mp fetched
        cases made
        exact ⟨_, _, .several handle resolved fetched, rfl⟩
  · rintro ⟨value, cs, gets, rfl⟩
    cases gets with
    | handle handle =>
      rw [(deferred perform registry handle).field component p]
      rfl
    | nothing handle resolved => exact exec_planField_eager handle resolved
    | single handle resolved fetched =>
      rw [exec_planField_eager handle resolved]
      apply exec_bind_of_ok
      rw [materialise, if_neg handle]
      exact fetched
    | several handle resolved fetched =>
      rw [exec_planField_eager handle resolved]
      apply exec_bind_of_ok
      rw [materialise, if_neg handle]
      exact exec_bind_of_ok fetched _

theorem planPoint_of_field (field : p.kind = .field) (asks : p.requests = [q]) :
    planPoint perform registry component p = planField perform registry component p q := by
  rw [planPoint, field, asks]

theorem exec_planPoints_cons {steps : List Planned} (field : p.kind = .field)
    (asks : p.requests = [q]) :
    exec (planPoints perform registry component [] (p :: points)) st = (.ok steps, last) ↔
      ∃ step next rest, exec (planField perform registry component p q) st = (.ok step, next) ∧
        exec (planPoints perform registry component [] points) next = (.ok rest, last) ∧
        steps = step.toList ++ rest := by
  rw [planPoints_cons rfl, planPoint_of_field field asks, exec_bind_eq_ok]
  refine exists_congr fun step => exists_congr fun next => ?_
  rw [exec_bind_eq_ok]
  constructor
  · rintro ⟨here, rest, now, later, made⟩
    cases made
    exact ⟨rest, here, later, rfl⟩
  · rintro ⟨rest, here, later, rfl⟩
    exact ⟨here, rest, last, later, rfl⟩

structure Assigns (steps : List Planned) (values : Entries Value) (cs : List Candidate) : Prop where
  assigned : steps.map (·.step) = values.map fun e => .assign e.1 e.2
  injected : steps.flatMap (·.injected) = cs

def FieldsOnly (points : List InjectionPoint) : Prop :=
  ∀ p ∈ points, p.kind = .field ∧ ∃ q, p.requests = [q]

theorem fills_of_planPoints {steps : List Planned} (fields : FieldsOnly points)
    (planned : exec (planPoints perform registry component [] points) st = (.ok steps, last)) :
    ∃ values cs, Fills registry st points values cs last ∧ Assigns steps values cs := by
  induction points generalizing st steps with
  | nil =>
    cases planned
    exact ⟨[], [], .nil, rfl, rfl⟩
  | cons p points ih =>
    obtain ⟨⟨field, q, asks⟩, fields⟩ := List.forall_mem_cons.mp fields
    obtain ⟨step, next, rest, here, later, rfl⟩ := (exec_planPoints_cons field asks).mp planned
    obtain ⟨values, cs, fills, assigns⟩ := ih fields later
    obtain ⟨_ | v, taken, gets, rfl⟩ := exec_planField_eq_ok.mp here
    · cases gets with
      | nothing handle resolved =>
        exact ⟨values, cs, .left asks (.nothing handle resolved) fills, assigns⟩
    · refine ⟨_, _, .bound asks gets fills, ?_, ?_⟩
      · simp [assigns.assigned]
      · simp [assigns.injected]

theorem planPoints_of_fills (fields : FieldsOnly points)
    (fills : Fills registry st points values cs last) :
    ∃ steps, exec (planPoints perform registry component [] points) st = (.ok steps, last) ∧
      Assigns steps values cs := by
  induction fills with
  | nil => exact ⟨[], rfl, rfl, rfl⟩
  | bound asks gets _ ih =>
    obtain ⟨⟨field, -⟩, fields⟩ := List.forall_mem_cons.mp fields
    obtain ⟨steps, planned, assigns⟩ := ih fields
    refine ⟨_, (exec_planPoints_cons field asks).mpr
      ⟨_, _, steps, exec_planField_eq_ok.mpr ⟨_, _, gets, rfl⟩, planned, rfl⟩, ?_, ?_⟩
    · simp [assigns.assigned]
    · simp [assigns.injected]
  | left asks gets _ ih =>
    obtain ⟨⟨field, -⟩, fields⟩ := List.forall_mem_cons.mp fields
    obtain ⟨steps, planned, assigns⟩ := ih fields
    exact ⟨steps, (exec_planPoints_cons field asks).mpr
      ⟨_, _, steps, exec_planField_eq_ok.mpr ⟨_, _, gets, rfl⟩, planned, rfl⟩, assigns⟩

theorem Fills.names (fills : Fills registry st points values cs last) :
    values.names.Sublist (points.map (·.name)) := by
  induction fills with
  | nil => exact .slnil
  | bound _ _ _ ih => exact ih.cons_cons _
  | left _ _ _ ih => exact ih.cons _

def FetchesOf (registry : String) (cs : List Candidate) : Store → Store → Prop :=
  Relation.ReflTransGen fun st next => ∃ c ∈ cs, next = (exec (getComponent registry c) st).2

theorem FetchesOf.fetches (fetches : FetchesOf registry cs st next) : Fetches registry st next :=
  Relation.ReflTransGen.mono (fun _ _ ⟨c, _, step⟩ => ⟨c, step⟩) _ _ fetches

theorem FetchesOf.mono {all : List Candidate} (fetches : FetchesOf registry cs st next)
    (within : cs ⊆ all) : FetchesOf registry all st next :=
  Relation.ReflTransGen.mono (fun _ _ ⟨c, mem, step⟩ => ⟨c, within mem, step⟩) _ _ fetches

theorem fetchesOf_mapM {vs : List Value}
    (fetched : exec (cs.mapM (getComponent registry)) st = (.ok vs, next)) :
    FetchesOf registry cs st next := by
  induction cs generalizing st vs with
  | nil =>
    cases fetched
    exact .refl
  | cons c cs ih =>
    rw [List.mapM_cons] at fetched
    obtain ⟨v, mid, here, later⟩ := exec_bind_eq_ok.mp fetched
    obtain ⟨rest, last, later, made⟩ := exec_bind_eq_ok.mp later
    cases made
    have first : FetchesOf registry (c :: cs) st mid :=
      .single ⟨c, List.mem_cons_self, by rw [here]⟩
    exact first.trans ((ih later).mono (List.subset_cons_self c cs))

theorem Gets.fetches {value : Option Value} (gets : Gets registry st q value cs next) :
    FetchesOf registry cs st next := by
  cases gets with
  | handle | nothing => exact .refl
  | @single c v _ _ _ fetched => exact .single ⟨c, List.mem_singleton_self c, by rw [fetched]⟩
  | several _ _ fetched => exact fetchesOf_mapM fetched

theorem Fills.fetches (fills : Fills registry st points values cs last) :
    FetchesOf registry cs st last := by
  induction fills with
  | nil => exact .refl
  | bound _ gets _ ih =>
    exact (gets.fetches.mono (List.subset_append_left _ _)).trans
      (ih.mono (List.subset_append_right _ _))
  | left _ _ _ ih => exact ih

/-- What was fetched is at hand, so that a request that is answered as before receives the same. -/
theorem Gets.again {value : Option Value} (gets : Gets registry st q value cs next)
    (grows : next.Grows after) (answer : ¬ q.isLazy → ∀ a, st.resolve registry q = .ok a →
      after.resolve registry q = .ok a ∨ ∃ e, after.resolve registry q = .error e) :
    Gets registry after q value cs after ∨
      ¬ q.isLazy ∧ ∃ e, after.resolve registry q = .error e := by
  cases gets with
  | handle handle => exact .inl (.handle handle)
  | nothing handle resolved =>
    exact (answer handle _ resolved).imp (.nothing handle) fun refused => ⟨handle, refused⟩
  | single handle resolved fetched =>
    have held := (grows.registry registry).kept _ _ (held_of_getComponent fetched)
    refine (answer handle _ resolved).imp (fun same => ?_) fun refused => ⟨handle, refused⟩
    exact .single handle same (getComponent_of_held held)
  | several handle resolved fetched =>
    have held := (held_of_mapM fetched).imp fun _ _ here => (grows.registry registry).kept _ _ here
    refine (answer handle _ resolved).imp (fun same => ?_) fun refused => ⟨handle, refused⟩
    exact .several handle same (mapM_of_held held)

def Asked (points : List InjectionPoint) (q : Request) : Prop :=
  ∃ p ∈ points, q ∈ p.requests ∧ ¬ q.isLazy

theorem Asked.later (asked : Asked points q) : Asked (p :: points) q := by
  obtain ⟨p', mem, listed, handle⟩ := asked
  exact ⟨p', List.mem_cons_of_mem p mem, listed, handle⟩

/-- Resolving is refused for one of the points, and planning them ends with that. -/
structure Refused (registry component : String) (points : List InjectionPoint) (st : Store)
    (e : Error) : Prop where
  refused : ∃ q, Asked points q ∧ st.resolve registry q = .error e
  planned : exec (planPoints perform registry component [] points) st = (.error e, st)

theorem refused_cons {e : Error} (field : p.kind = .field) (asks : p.requests = [q])
    (handle : ¬ q.isLazy) (refused : st.resolve registry q = .error e) :
    Refused registry component (p :: points) st e := by
  refine ⟨⟨q, ⟨p, by simp, by simp [asks], handle⟩, refused⟩, ?_⟩
  have resolved : exec (resolveNow registry q) st = (.error e, st) := by
    rw [exec_resolveNow handle, refused]
  rw [planPoints_cons rfl, planPoint_of_field field asks]
  exact exec_bind_of_error (exec_bind_of_error resolved _) _

theorem Refused.later {e : Error} {value : Option Value}
    (refused : Refused registry component points st e) (field : p.kind = .field)
    (asks : p.requests = [q]) (here : Gets registry st q value cs st) :
    Refused registry component (p :: points) st e := by
  obtain ⟨q', asked, answer⟩ := refused.refused
  refine ⟨⟨q', asked.later, answer⟩, ?_⟩
  rw [planPoints_cons rfl, planPoint_of_field field asks,
    exec_bind_of_ok (exec_planField_eq_ok.mpr ⟨value, cs, here, rfl⟩)]
  exact exec_bind_of_error refused.planned _

/-- If every request is answered as before, the fields receive the same once more. It can be that
one is refused instead. -/
theorem Fills.again (fields : FieldsOnly points) (fills : Fills registry st points values cs last)
    (grows : last.Grows after)
    (answers : ∀ mid, FetchesOf registry cs st mid → ∀ q, Asked points q →
      ∀ a, mid.resolve registry q = .ok a →
        after.resolve registry q = .ok a ∨ ∃ e, after.resolve registry q = .error e) :
    Fills registry after points values cs after ∨
      ∃ e, Refused registry component points after e := by
  induction fills with
  | nil => exact .inl .nil
  | @bound st next _ p ps q _ _ cs rest asks gets fills ih =>
    obtain ⟨⟨field, -⟩, fields⟩ := List.forall_mem_cons.mp fields
    have grown := (grows_of_fetches fills.fetches.fetches).trans grows
    have begun := gets.fetches.mono (List.subset_append_left cs rest)
    have answered (handle : ¬ q.isLazy) := answers st .refl q ⟨p, by simp, by simp [asks], handle⟩
    rcases gets.again grown answered with here | ⟨handle, e, refused⟩
    · refine (ih fields grows fun mid fetches q asked => ?_).imp (.bound asks here)
        fun ⟨e, refused⟩ => ⟨e, refused.later field asks here⟩
      exact answers mid (begun.trans (fetches.mono (List.subset_append_right _ _))) q asked.later
    · exact .inr ⟨e, refused_cons field asks handle refused⟩
  | @left st _ p ps q _ _ asks gets fills ih =>
    obtain ⟨⟨field, -⟩, fields⟩ := List.forall_mem_cons.mp fields
    have grown := (grows_of_fetches fills.fetches.fetches).trans grows
    have answered (handle : ¬ q.isLazy) := answers st .refl q ⟨p, by simp, by simp [asks], handle⟩
    rcases gets.again grown answered with here | ⟨handle, e, refused⟩
    · refine (ih fields grows fun mid fetches q asked => ?_).imp (.left asks here)
        fun ⟨e, refused⟩ => ⟨e, refused.later field asks here⟩
      exact answers mid fetches q asked.later
    · exact .inr ⟨e, refused_cons field asks handle refused⟩

end Wiring.Run
