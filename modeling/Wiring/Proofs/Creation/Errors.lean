import Mathlib
import Wiring.Proofs.Creation.Records
import Wiring.Proofs.Injection.Planning
import Wiring.Proofs.Injection.Steps

/-! Which errors come out of creating and injecting a component other than as an error of that
component. A failed resolution, a failing setter and a failing explicit value are reported for the
component. What comes out as it is: a request that cannot be resolved, a component that cannot be
had, an error of the constructor, and one that is met while attributes are put back. -/
namespace Wiring

namespace Error

def IsOf (component : String) : Error → Prop
  | .injection name _ _ => name = component
  | _ => False

def IsFailure : Error → Prop
  | .noCandidate .. | .ambiguous .. => True
  | _ => False

end Error

namespace Registry

/-- The constructors of the class cannot be told, or a request of one of them cannot be resolved. -/
inductive Refuses (r : Registry) (s : Settings) (w : World) (h : Heap) (c : ClassRef)
    (e : Error) : Prop
  | constructors : w.constructors s c = .error e → Refuses r s w h c e
  | request {ks : List Constructor} {k : Constructor} {q : Request} :
    w.constructors s c = .ok ks → k ∈ ks → q ∈ k.requests → ¬ q.isLazy →
    r.resolve s w h q = .error e → Refuses r s w h c e

variable {r : Registry} {s : Settings} {w : World} {h : Heap} {c : ClassRef} {e : Error}

theorem refused_of_resolveParameters {qs : List Request}
    (stopped : r.resolveParameters s w h qs = .error e) :
    ∃ q ∈ qs, ¬ q.isLazy ∧ r.resolve s w h q = .error e := by
  induction qs with
  | nil => cases stopped
  | cons q qs ih =>
    have later (stopped : r.resolveParameters s w h qs = .error e) :
        ∃ q' ∈ q :: qs, ¬ q'.isLazy ∧ r.resolve s w h q' = .error e := by
      obtain ⟨q', mem, refused⟩ := ih stopped
      exact ⟨q', List.mem_cons_of_mem q mem, refused⟩
    rw [resolveParameters] at stopped
    split at stopped
    · rcases Outcome.bind_eq_error.mp stopped with stopped | ⟨_, _, ended⟩
      · exact later stopped
      · cases ended
    · rename_i handle
      rcases Outcome.bind_eq_error.mp stopped with here | ⟨result, _, stopped⟩
      · exact ⟨q, List.mem_cons_self, by simpa [Request.isLazy] using handle, here⟩
      · cases result with
        | failure f => cases stopped
        | _ =>
          rcases Outcome.bind_eq_error.mp stopped with stopped | ⟨_, _, ended⟩
          · exact later stopped
          · cases ended

theorem refused_of_firstSatisfied {missing : Option Failure} {ks : List Constructor}
    (stopped : r.firstSatisfied s w h c missing ks = .error e) (other : ¬ e.IsFailure) :
    ∃ k ∈ ks, ∃ q ∈ k.requests, ¬ q.isLazy ∧ r.resolve s w h q = .error e := by
  induction ks generalizing missing with
  | nil =>
    cases missing with
    | none =>
      cases stopped
      exact absurd trivial other
    | some f =>
      cases f <;> cases stopped <;> exact absurd trivial other
  | cons k ks ih =>
    rw [firstSatisfied] at stopped
    rcases Outcome.bind_eq_error.mp stopped with refused | ⟨results, _, stopped⟩
    · exact ⟨k, List.mem_cons_self, refused_of_resolveParameters refused⟩
    · split at stopped
      · cases stopped
      · obtain ⟨k', mem, refused⟩ := ih stopped
        exact ⟨k', List.mem_cons_of_mem k mem, refused⟩

theorem refuses_of_select (stopped : r.select s w h c = .error e) (other : ¬ e.IsFailure) :
    r.Refuses s w h c e := by
  unfold select at stopped
  rcases Outcome.bind_eq_error.mp stopped with unknown | ⟨ks, known, stopped⟩
  · exact .constructors unknown
  split at stopped
  · cases stopped
  · obtain ⟨k, mem, q, asked, handle, refused⟩ := refused_of_firstSatisfied stopped other
    exact .request known (mem_of_mem_pool (mem_byParameters.mp mem)) asked handle refused

end Registry

namespace Run

/-- The components of the candidates are fetched in order, until one of them cannot be had. -/
inductive Lacks (registry : String) (cs : List Candidate) (st : Store) (e : Error)
    (after : Store) : Prop
  | intro {before rest : List Candidate} {c : Candidate} {had : List Value} {now : Store} :
    cs = before ++ c :: rest → exec (before.mapM (getComponent registry)) st = (.ok had, now) →
    exec (getComponent registry c) now = (.error e, after) → Lacks registry cs st e after

/-- In the store `now` it is the turn of a request of `p`, which no explicit value replaces. -/
inductive Due (registry component : String) (explicit : Entries Value)
    (points : List InjectionPoint) (st : Store) (p : InjectionPoint) (q : Request)
    (now : Store) : Prop
  | intro {before rest : List InjectionPoint} {earlier later : List Request} :
    points = before ++ p :: rest → explicit.lookup p.propertyName = none →
    p.decisive = earlier ++ q :: later → ¬ q.isLazy →
    Turn perform registry component explicit before p earlier st now →
    Due registry component explicit points st p q now

/-- How an injection ends in an error that is not reported for its component. -/
inductive InjectionEscapes (registry component : String) (explicit : Entries Value) (m : Metadata)
    (target : Value) (st : Store) : Error → Store → Prop
  /-- A request cannot be resolved. -/
  | refused {p : InjectionPoint} {q : Request} {now : Store} {e : Error} :
    Due registry component explicit m.points st p q now → now.resolve registry q = .error e →
    InjectionEscapes registry component explicit m target st e now
  /-- A component that a request resolves to cannot be had. -/
  | lacking {p : InjectionPoint} {q : Request} {result : Resolution} {now after : Store}
    {e : Error} :
    Due registry component explicit m.points st p q now →
    now.resolve registry q = .ok result → Lacks registry result.found now e after →
    InjectionEscapes registry component explicit m target st e after
  /-- A step fails, and then putting back what was assigned before it. -/
  | restoring {planned : List Planned} {bad : Planned} {done : Undo} {fault e : Error}
    {resolved left after : Store} :
    exec (planPoints perform registry component explicit m.points) st = (.ok planned, resolved) →
    Stumbles perform target resolved (planned ++ planExplicit m.points explicit) bad done fault
      left →
    exec (restore perform target done) left = (.error e, after) →
    InjectionEscapes registry component explicit m target st e after

/-- How a construction ends in an error that is not reported for its component. -/
inductive ConstructionEscapes (registry component : String) (c : ClassRef) (k : Constructor)
    (st : Store) : Error → Store → Prop
  | refused {earlier later : List Request} {q : Request} {results : List Resolution} {e : Error} :
    k.requests = earlier ++ q :: later → ¬ q.isLazy →
    exec (earlier.mapM (resolveNow registry)) st = (.ok results, st) →
    st.resolve registry q = .error e → ConstructionEscapes registry component c k st e st
  | lacking {results : List Resolution} {earlier later : List (Request × Resolution)}
    {q : Request} {result : Resolution} {values : List (Request × Value)} {now after : Store}
    {e : Error} :
    exec (k.requests.mapM (resolveNow registry)) st = (.ok results, st) →
    k.requests.zip results = earlier ++ (q, result) :: later → ¬ q.isLazy →
    exec (constructorValues perform registry component earlier) st = (.ok values, now) →
    Lacks registry result.found now e after →
    ConstructionEscapes registry component c k st e after
  | call {results : List Resolution} {values : List (Request × Value)} {now after : Store}
    {e : Error} :
    exec (k.requests.mapM (resolveNow registry)) st = (.ok results, st) →
    exec (constructorValues perform registry component (k.requests.zip results)) st =
      (.ok values, now) →
    exec (callConstructor perform c k.name (.ofRequests values)) now = (.error e, after) →
    ConstructionEscapes registry component c k st e after

/-- How a creation ends in an error that is not reported for its component, once the points of the
class are known. -/
inductive CreationEscapes (registry component : String) (c : ClassRef) (explicit : Entries Value)
    (m : Metadata) (st : Store) : Error → Store → Prop
  | choice {e : Error} :
    exec (selectConstructor registry c) st = (.error e, st) → ¬ e.IsFailure →
    (st.registry registry).Refuses st.settings st.world st.heap c e →
    CreationEscapes registry component c explicit m st e st
  | construction {selection : Selection} {known after : Store} {e : Error} :
    exec (selectConstructor registry c) st = (.ok selection, known) →
    ConstructionEscapes registry component c selection.constructor known e after →
    CreationEscapes registry component c explicit m st e after
  | injection {selection : Selection} {o : Value} {known constructed after : Store} {e : Error} :
    exec (selectConstructor registry c) st = (.ok selection, known) →
    exec (construct perform registry component c selection) known = (.ok o, constructed) →
    InjectionEscapes registry component explicit m o constructed e after →
    CreationEscapes registry component c explicit m st e after

section Fetching
variable {registry component : String} {q : Request} {result : Resolution} {st after : Store}
  {e : Error}

theorem lacks_iff {cs : List Candidate} :
    Lacks registry cs st e after ↔
      exec (cs.mapM (getComponent registry)) st = (.error e, after) := by
  rw [exec_mapM_eq_error]
  constructor
  · rintro ⟨parts, had, failed⟩
    exact ⟨_, _, _, _, _, parts, had, failed⟩
  · rintro ⟨_, _, _, _, _, parts, had, failed⟩
    exact ⟨parts, had, failed⟩

theorem exec_materialise_eq_error (handle : ¬ q.isLazy) :
    exec (materialise perform registry q result) st = (.error e, after) ↔
      Lacks registry result.found st e after := by
  rw [lacks_iff]
  unfold materialise
  rw [if_neg handle]
  cases result with
  | value c =>
    change exec (getComponent registry c) st = _ ↔ exec ([c].mapM (getComponent registry)) st = _
    rw [List.mapM_cons]
    exact (exec_bind_eq_error_left fun v now => ⟨_, _, rfl⟩).symm
  | values cs => exact exec_bind_eq_error_left fun vs now => ⟨_, _, rfl⟩
  | empty => exact ⟨nofun, nofun⟩
  | failure f => exact ⟨nofun, nofun⟩

end Fetching

section Injecting
variable {registry component : String} {explicit : Entries Value} {p : InjectionPoint} {q : Request}
  {st now after : Store} {e : Error}

theorem exec_planPoints_eq_error {points : List InjectionPoint} :
    exec (planPoints perform registry component explicit points) st = (.error e, after) ↔
      ∃ p q now, Due registry component explicit points st p q now ∧
        Obstructs perform registry component p q now e after := by
  constructor
  · intro stopped
    obtain ⟨before, p, rest, earlier, q, later, now, parts, uncovered, asked, handle, turn,
      obstructs⟩ := obstructed_of_planPoints stopped
    exact ⟨p, q, now, .intro parts uncovered asked handle turn, obstructs⟩
  · rintro ⟨p, q, now, ⟨rfl, uncovered, asked, handle, ⟨_, _, _, first, walked⟩⟩, obstructs⟩
    have stuck := exec_planPoint_obstructed asked handle walked obstructs
    rw [planPoints_append, exec_bind_of_ok first, planPoints_cons uncovered]
    exact exec_bind_of_error (exec_bind_of_error stuck _) _

/-- A request that is in the way either fails, which is reported for the component, or cannot be
resolved, or a component that it found cannot be had. -/
theorem obstructs_iff (handle : ¬ q.isLazy) (foreign : ¬ e.IsOf component) :
    Obstructs perform registry component p q now e after ↔
      (now.resolve registry q = .error e ∧ after = now) ∨
      ∃ result, now.resolve registry q = .ok result ∧ Lacks registry result.found now e after := by
  constructor
  · intro obstructs
    cases obstructs with
    | refused resolved => exact .inl ⟨resolved, rfl⟩
    | failed resolved fatal => exact absurd rfl foreign
    | unavailable resolved found missed =>
      exact .inr ⟨_, resolved, (exec_materialise_eq_error handle).mp missed⟩
  · rintro (⟨resolved, rfl⟩ | ⟨result, resolved, lacks⟩)
    · exact .refused resolved
    · refine .unavailable resolved ?_ ((exec_materialise_eq_error handle).mpr lacks)
      cases result with
      | failure f =>
        obtain ⟨parts, -, -⟩ := lacks
        simp [Resolution.found] at parts
      | _ => rfl

/-- Taking steps ends in an error that is not reported for the component only if putting back what
was assigned before does. -/
theorem exec_takeSteps_eq_foreign {target : Value} {steps : List Planned}
    (foreign : ¬ e.IsOf component) :
    exec (takeSteps perform component target [] steps) st = (.error e, after) ↔
      ∃ bad done fault left, Stumbles perform target st steps bad done fault left ∧
        exec (restore perform target done) left = (.error e, after) := by
  simp only [exec_takeSteps_eq_error, List.append_nil]
  constructor
  · rintro ⟨bad, done, fault, left, stumbles, ⟨-, rfl⟩ | stuck⟩
    · exact absurd rfl foreign
    · exact ⟨bad, done, fault, left, stumbles, stuck⟩
  · rintro ⟨bad, done, fault, left, stumbles, stuck⟩
    exact ⟨bad, done, fault, left, stumbles, .inr stuck⟩

theorem Due.not_isLazy {points : List InjectionPoint}
    (due : Due registry component explicit points st p q now) : ¬ q.isLazy := by
  obtain ⟨-, -, -, handle, -⟩ := due
  exact handle

theorem exec_inject_eq_error {m : Metadata} {target : Value} (foreign : ¬ e.IsOf component) :
    exec (inject perform registry component m explicit target) st = (.error e, after) ↔
      InjectionEscapes registry component explicit m target st e after := by
  unfold inject
  rw [exec_bind_eq_error, exec_planPoints_eq_error]
  constructor
  · rintro (⟨p, q, now, due, obstructs⟩ | ⟨planned, resolved, planning, stopped⟩)
    · rcases (obstructs_iff due.not_isLazy foreign).mp obstructs with
        ⟨refused, rfl⟩ | ⟨result, resolved, lacks⟩
      · exact .refused due refused
      · exact .lacking due resolved lacks
    · have taking := (exec_bind_eq_error_left fun _ _ => ⟨_, _, rfl⟩).mp stopped
      obtain ⟨bad, done, fault, left, stumbles, stuck⟩ :=
        (exec_takeSteps_eq_foreign foreign).mp taking
      exact .restoring planning stumbles stuck
  · intro escapes
    cases escapes with
    | refused due resolved =>
      exact .inl ⟨_, _, _, due, (obstructs_iff due.not_isLazy foreign).mpr (.inl ⟨resolved, rfl⟩)⟩
    | lacking due resolved lacks =>
      exact .inl ⟨_, _, _, due,
        (obstructs_iff due.not_isLazy foreign).mpr (.inr ⟨_, resolved, lacks⟩)⟩
    | restoring planning stumbles stuck =>
      have taking := (exec_takeSteps_eq_foreign foreign).mpr ⟨_, _, _, _, stumbles, stuck⟩
      exact .inr ⟨_, _, planning, exec_bind_of_error taking _⟩

end Injecting

section Constructing
variable {registry component : String} {c : ClassRef} {k : Constructor} {selection : Selection}
  {st known after : Store} {e : Error}

def supply (registry component : String) (pair : Request × Resolution) : Run (Request × Value) :=
  match pair.2 with
  | .failure f =>
    throw (.injection component pair.1.constructorPoint (f.toError pair.1.constructorPoint))
  | result => return (pair.1, ← materialise perform registry pair.1 result)

theorem constructorValues_eq_mapM (pairs : List (Request × Resolution)) :
    constructorValues perform registry component pairs =
      pairs.mapM (supply registry component) := by
  induction pairs with
  | nil => rfl
  | cons pair pairs ih =>
    obtain ⟨q, result⟩ := pair
    rw [List.mapM_cons, ← ih]
    cases result <;> simp [constructorValues, supply]

theorem exec_supply_eq_foreign {q : Request} {result : Resolution}
    (foreign : ¬ e.IsOf component) :
    exec (supply registry component (q, result)) st = (.error e, after) ↔
      ¬ q.isLazy ∧ Lacks registry result.found st e after := by
  have materialised : exec (materialise perform registry q result) st = (.error e, after) ↔
      ¬ q.isLazy ∧ Lacks registry result.found st e after := by
    by_cases handle : q.isLazy
    · unfold materialise
      rw [if_pos handle]
      exact ⟨nofun, fun escapes => absurd handle escapes.1⟩
    · rw [exec_materialise_eq_error handle, and_iff_right handle]
  cases result with
  | failure f =>
    constructor
    · intro failed
      cases failed
      exact absurd rfl foreign
    · rintro ⟨-, parts, -, -⟩
      simp [Resolution.found] at parts
  | _ => exact (exec_bind_eq_error_left fun _ _ => ⟨_, _, rfl⟩).trans materialised

theorem exec_resolveNow_eq_error {requests : List Request} :
    exec (requests.mapM (resolveNow registry)) st = (.error e, after) ↔
      ∃ earlier q later results, requests = earlier ++ q :: later ∧ ¬ q.isLazy ∧
        exec (earlier.mapM (resolveNow registry)) st = (.ok results, st) ∧
        st.resolve registry q = .error e ∧ after = st := by
  rw [exec_mapM_eq_error]
  constructor
  · rintro ⟨earlier, q, later, results, now, parts, walked, failed⟩
    obtain ⟨rfl, -⟩ := outcomes_of_resolveNow walked
    have handle : ¬ q.isLazy := by
      intro handle
      rw [resolveNow, if_pos handle] at failed
      cases failed
    rw [exec_resolveNow handle] at failed
    obtain ⟨refused, rfl⟩ := Prod.mk.inj failed
    exact ⟨earlier, q, later, results, parts, handle, walked, refused, rfl⟩
  · rintro ⟨earlier, q, later, results, parts, handle, walked, refused, rfl⟩
    exact ⟨earlier, q, later, results, after, parts, walked, by
      rw [exec_resolveNow handle, refused]⟩

theorem exec_construct_eq_error (foreign : ¬ e.IsOf component) :
    exec (construct perform registry component c { constructor := k }) st = (.error e, after) ↔
      ConstructionEscapes registry component c k st e after := by
  have assembling : exec (construct perform registry component c { constructor := k }) st =
        (.error e, after) ↔
      exec (assemble perform registry component c k) st = (.error e, after) := by
    rw [construct_eq_assemble]
    exact exec_bind_eq_error_left fun _ _ => ⟨_, _, rfl⟩
  rw [assembling, assemble, exec_bind_eq_error]
  constructor
  · rintro (failed | ⟨results, now, resolved, stopped⟩)
    · obtain ⟨earlier, q, later, results, parts, handle, walked, refused, rfl⟩ :=
        exec_resolveNow_eq_error.mp failed
      exact .refused parts handle walked refused
    · obtain ⟨rfl, -⟩ := outcomes_of_resolveNow resolved
      rcases exec_bind_eq_error.mp stopped with failed | ⟨values, filled, supplied, called⟩
      · rw [constructorValues_eq_mapM, exec_mapM_eq_error] at failed
        obtain ⟨earlier, ⟨q, result⟩, later, values, reached, parts, walked, failed⟩ := failed
        obtain ⟨handle, lacks⟩ := (exec_supply_eq_foreign foreign).mp failed
        rw [← constructorValues_eq_mapM] at walked
        exact .lacking resolved parts handle walked lacks
      · exact .call resolved supplied
          ((exec_bind_eq_error_left fun _ _ => ⟨_, _, rfl⟩).mp called)
  · intro escapes
    cases escapes with
    | refused parts handle walked refused =>
      exact .inl (exec_resolveNow_eq_error.mpr ⟨_, _, _, _, parts, handle, walked, refused, rfl⟩)
    | lacking resolved parts handle walked lacks =>
      refine .inr ⟨_, _, resolved, exec_bind_of_error ?_ _⟩
      rw [constructorValues_eq_mapM] at walked ⊢
      exact exec_mapM_eq_error.mpr ⟨_, _, _, _, _, parts, walked,
        (exec_supply_eq_foreign foreign).mpr ⟨handle, lacks⟩⟩
    | call resolved supplied called =>
      refine .inr ⟨_, _, resolved, ?_⟩
      rw [exec_bind_of_ok supplied]
      exact exec_bind_of_error called _

theorem exec_construct_chosen
    (chosen : exec (selectConstructor registry c) st = (.ok selection, known)) :
    exec (construct perform registry component c selection) known =
      exec (construct perform registry component c { constructor := selection.constructor })
        known := by
  obtain ⟨ks, -, choose⟩ := exec_choice_kept chosen
  obtain ⟨choose, satisfied⟩ := choose st (.refl registry st)
  cases (choose st.metadata).symm.trans chosen
  symm
  exact exec_construct_choice perform component satisfied

theorem selectionError_eq_foreign {fault : Error} (foreign : ¬ e.IsOf component) :
    selectionError component fault = e ↔ fault = e ∧ ¬ e.IsFailure := by
  constructor
  · rintro rfl
    cases fault <;> first | exact ⟨rfl, id⟩ | exact absurd rfl foreign
  · rintro ⟨rfl, other⟩
    cases fault <;> first | rfl | exact absurd trivial other

theorem exec_selectConstructor_eq_ok :
    exec (tryCatch (selectConstructor registry c) fun e => throw (selectionError component e)) st =
        (.ok selection, known) ↔
      exec (selectConstructor registry c) st = (.ok selection, known) := by
  rw [exec_tryCatch]
  rcases exec (selectConstructor registry c) st with ⟨fault | selection, last⟩ <;> simp

theorem exec_selectConstructor_eq_foreign (foreign : ¬ e.IsOf component) :
    exec (tryCatch (selectConstructor registry c) fun e => throw (selectionError component e)) st =
        (.error e, after) ↔
      exec (selectConstructor registry c) st = (.error e, after) ∧ ¬ e.IsFailure := by
  rw [exec_tryCatch]
  rcases exec (selectConstructor registry c) st with ⟨fault | selection, last⟩
  · simp [selectionError_eq_foreign foreign, and_right_comm]
  · simp

theorem refuses_of_selectConstructor
    (stopped : exec (selectConstructor registry c) st = (.error e, after))
    (other : ¬ e.IsFailure) :
    after = st ∧ (st.registry registry).Refuses st.settings st.world st.heap c e := by
  unfold selectConstructor at stopped
  rw [exec_bind_of_ok (exec_get st)] at stopped
  split at stopped
  · cases stopped
  cases selected : (st.registry registry).select st.settings st.world st.heap c with
  | ok selection =>
    rw [selected] at stopped
    cases stopped
  | error fault =>
    rw [selected] at stopped
    cases stopped
    exact ⟨rfl, Registry.refuses_of_select selected other⟩

end Constructing

section Whole
variable {registry : String} {c : ClassRef} {name : Option String} {explicit : Entries Value}
  {st found after : Store} {m : Metadata} {e : Error}

/-- Once the points of a class are known, an error of creating or injecting its component is one
reported for the component, but for those that come out in the ways listed; and those do come out.
-/
theorem create_errors (points : exec (metadata c) st = (.ok m, found))
    (foreign : ¬ e.IsOf (st.world.componentName c name)) :
    (exec (create registry c name explicit) st = (.error e, after) ↔
      CreationEscapes registry (st.world.componentName c name) c explicit m found e after) ∧
    ∀ target, st.classOf target = c →
      (exec (injectInto registry target name explicit) st = (.error e, after) ↔
        InjectionEscapes registry (st.world.componentName c name) explicit m target found e
          after) := by
  constructor
  · unfold create createWith
    rw [exec_bind_of_ok (exec_nameFor c name st), exec_bind_of_ok points, exec_bind_eq_error,
      exec_selectConstructor_eq_foreign foreign]
    constructor
    · rintro (⟨failed, other⟩ | ⟨selection, known, choosing, stopped⟩)
      · obtain ⟨rfl, refuses⟩ := refuses_of_selectConstructor failed other
        exact .choice failed other refuses
      have chosen := exec_selectConstructor_eq_ok.mp choosing
      rcases exec_bind_eq_error.mp stopped with failed | ⟨o, constructed, built, injecting⟩
      · rw [exec_construct_chosen chosen] at failed
        exact .construction chosen ((exec_construct_eq_error foreign).mp failed)
      · have stuck := (exec_bind_eq_error_left fun _ _ => ⟨_, _, rfl⟩).mp injecting
        exact .injection chosen built ((exec_inject_eq_error foreign).mp stuck)
    · intro escapes
      cases escapes with
      | choice failed other _ => exact .inl ⟨failed, other⟩
      | construction chosen escapes =>
        refine .inr ⟨_, _, exec_selectConstructor_eq_ok.mpr chosen, exec_bind_of_error ?_ _⟩
        rw [exec_construct_chosen chosen]
        exact (exec_construct_eq_error foreign).mpr escapes
      | injection chosen built escapes =>
        refine .inr ⟨_, _, exec_selectConstructor_eq_ok.mpr chosen, ?_⟩
        rw [exec_bind_of_ok built]
        exact exec_bind_of_error ((exec_inject_eq_error foreign).mpr escapes) _
  · rintro target rfl
    have named : found.world.componentName (st.classOf target) name =
        st.world.componentName (st.classOf target) name := by
      obtain ⟨ms, -, find⟩ := exec_metadata_kept points
      cases (find st (.refl registry st) st.constructors).symm.trans points
      rfl
    unfold injectInto injectWith
    rw [exec_bind_of_ok (exec_get st), exec_bind_of_ok points,
      exec_bind_of_ok (exec_nameFor _ name found), named]
    exact exec_inject_eq_error foreign

end Whole

end Run

/-! A desk is given a clock, and the maker of clocks complains. A shelf cannot be made at all. Both
complaints come out as they are. -/
namespace Cellar
open Run

def clock : Hint := .cls (.declared 0)

def setter : Function where
  name := "set_clock"
  owner := "Desk"
  parameters := [{ name := "clock", type := some clock }]
  markers := [Marker.make .autowired]

def initializer : Function where
  name := "__init__"
  owner := "Shelf"
  body := .steps [.fail "broken"]

def cellar : World where
  moduleName := "cellar"
  classes := [("Clock", []), ("Desk", [("set_clock", .method setter)]),
    ("Shelf", [("__init__", .method initializer)])].mapIdx fun n (name, members) => {
      name, qualifiedName := name, bases := [.builtin .object], members
      linearization := [.declared n, .builtin .object] }

def store : Store where
  world := cellar
  registries := [("main", {
    entries := [{ name := "clock", declaredType := clock }]
    providers := [("clock", .function {
      name := "make_clock", product := .fresh (.declared 0), complaint := some "stuck" })] })]

def make (n : Nat) : Run Value := create "main" (.declared n) none []

theorem desk_stuck : ∃ m found after,
    exec (metadata (.declared 1)) store = (.ok m, found) ∧
    ¬ (Error.component "stuck").IsOf "desk" ∧
    exec (make 1) store = (.error (.component "stuck"), after) ∧
    CreationEscapes "main" "desk" (.declared 1) [] m found (.component "stuck") after := by
  have scanned : (exec (metadata (.declared 1)) store).1.toOption.isSome := by cbv
  have ends : (exec (make 1) store).1 = .error (.component "stuck") := by cbv
  have foreign : ¬ (Error.component "stuck").IsOf
      (store.world.componentName (.declared 1) none) := id
  have name : store.world.componentName (.declared 1) none = "desk" := by cbv
  rcases points : exec (metadata (.declared 1)) store with ⟨_ | m, found⟩ <;> rw [points] at scanned
  · cases scanned
  have made : exec (make 1) store = (.error (.component "stuck"), (exec (make 1) store).2) :=
    Prod.ext ends rfl
  have escapes := (create_errors points foreign).1.mp made
  rw [name] at escapes
  exact ⟨m, found, _, rfl, id, made, escapes⟩

theorem shelf_broken : (exec (metadata (.declared 2)) store).1.toOption.isSome ∧
    (exec (make 2) store).1 = .error (.component "broken") ∧
    ¬ (Error.component "broken").IsOf "shelf" := by
  refine ⟨by cbv, by cbv, id⟩

end Cellar
end Wiring
