import Wiring.Proofs.Creation.Caches
import Wiring.Proofs.Injection.Gathering
import Wiring.Proofs.Registry.Dependencies

/-! What is recorded when a component is created. The candidates for the parameters of its constructor
are recorded as soon as it is constructed, those for its points when all of them have been applied. So
a creation that fails at a point leaves those of the constructor on record. -/
namespace Wiring

namespace Run

section Parts
variable {perform : Perform} {registry component : String} {st next : Store} {q : Request}

theorem receives_of_outcome {result : Resolution}
    (outcome : (st.registry registry).outcome st.settings st.world st.heap q = .ok result)
    (fine : result.failure? = none) : Receives registry st q (q.injected result) := by
  have resolved : exec (resolveNow registry q) st = (.ok result, st) := by
    rw [exec_resolveNow_outcome, outcome]
  exact (receives_of_resolveNow resolved fine).1

theorem Receives.eq_injected {result : Resolution} {cs : List Candidate}
    (receives : Receives registry st q cs)
    (outcome : (st.registry registry).outcome st.settings st.world st.heap q = .ok result)
    (fine : result.failure? = none) : cs = q.injected result :=
  receives.unique (receives_of_outcome outcome fine)

theorem receives_of_satisfied {requests : List Request} {results : List Resolution}
    (satisfied : (st.registry registry).Satisfied st.settings st.world st.heap requests results) :
    List.Forall₂ (Receives registry st) requests
      (List.zipWith Request.injected requests results) := by
  induction satisfied with
  | nil => exact .nil
  | cons here _ ih => exact .cons (receives_of_outcome here.1 here.2) ih

theorem received_eq_injected {requests : List Request} {results : List Resolution}
    {received : List (List Candidate)}
    (receives : List.Forall₂ (Receives registry st) requests received)
    (satisfied : (st.registry registry).Satisfied st.settings st.world st.heap requests results) :
    received = List.zipWith Request.injected requests results := by
  induction receives generalizing results with
  | nil => rfl
  | cons first _ ih =>
    obtain ⟨_, _, here, others, rfl⟩ := List.forall₂_cons_left_iff.mp satisfied
    rw [List.zipWith_cons_cons, first.eq_injected here.1 here.2, ih others]

/-- What a construction does before it records anything. -/
def assemble (perform : Perform) (registry component : String) (c : ClassRef)
    (k : Constructor) : Run (List Resolution × Value) := do
  let results ← k.requests.mapM (resolveNow registry)
  let values ← constructorValues perform registry component (k.requests.zip results)
  let o ← callConstructor perform c k.name (.ofRequests values)
  return (results, o)

theorem flatMap_injected (requests : List Request) (results : List Resolution) :
    ((requests.zip results).flatMap fun (q, result) => q.injected result) =
      (List.zipWith Request.injected requests results).flatten := by
  rw [List.flatMap_def, List.zip, List.map_zipWith]

theorem construct_eq_assemble (c : ClassRef) (k : Constructor) :
    construct perform registry component c { constructor := k } = do
      let (results, o) ← assemble perform registry component c k
      modifyRegistry registry
        (·.record (List.zipWith Request.injected k.requests results).flatten component)
      return o := by
  simp only [construct, assemble, flatMap_injected, bind_assoc, pure_bind]

theorem outcomes_of_resolveNow {requests : List Request} {results : List Resolution}
    (ran : exec (requests.mapM (resolveNow registry)) st = (.ok results, next)) :
    next = st ∧ List.Forall₂ (fun q result =>
      (st.registry registry).outcome st.settings st.world st.heap q = .ok result)
      requests results := by
  induction requests generalizing results with
  | nil =>
    cases ran
    exact ⟨rfl, .nil⟩
  | cons q requests ih =>
    rw [List.mapM_cons] at ran
    obtain ⟨result, now, resolved, ran⟩ := exec_bind_eq_ok.mp ran
    obtain ⟨rest, last, later, ran⟩ := exec_bind_eq_ok.mp ran
    cases ran
    rw [exec_resolveNow_outcome] at resolved
    obtain ⟨outcome, rfl⟩ := Prod.mk.inj resolved
    obtain ⟨rfl, others⟩ := ih later
    exact ⟨rfl, .cons outcome others⟩

theorem satisfied_of_values {requests : List Request} {results : List Resolution}
    {values : List (Request × Value)} {now : Store}
    (outcomes : List.Forall₂ (fun q result =>
      (st.registry registry).outcome st.settings st.world st.heap q = .ok result) requests results)
    (ran : exec (constructorValues perform registry component (requests.zip results)) now =
      (.ok values, next)) :
    (st.registry registry).Satisfied st.settings st.world st.heap requests results := by
  induction outcomes generalizing now values next with
  | nil => exact .nil
  | @cons q result _ _ outcome _ ih =>
    have fine : result.failure? = none := by
      cases result with
      | failure f => cases ran
      | _ => rfl
    rw [List.zip_cons_cons, constructorValues] at ran
    · obtain ⟨value, reached, _, ran⟩ := exec_bind_eq_ok.mp ran
      obtain ⟨rest, last, later, _⟩ := exec_bind_eq_ok.mp ran
      exact .cons ⟨outcome, fine⟩ (ih later)
    · rintro f rfl
      cases fine

theorem satisfied_of_assemble {c : ClassRef} {k : Constructor} {results : List Resolution}
    {o : Value} (ran : exec (assemble perform registry component c k) st = (.ok (results, o), next)) :
    (st.registry registry).Satisfied st.settings st.world st.heap k.requests results := by
  obtain ⟨found, now, resolved, ran⟩ := exec_bind_eq_ok.mp ran
  obtain ⟨values, filled, supplied, ran⟩ := exec_bind_eq_ok.mp ran
  obtain ⟨made, last, called, ran⟩ := exec_bind_eq_ok.mp ran
  cases ran
  exact satisfied_of_values (outcomes_of_resolveNow resolved).2 supplied

theorem keeps_assemble {R : Store → Store → Prop} [Tolerant R] (serves : Serves R True perform)
    (c : ClassRef) (k : Constructor) :
    Keeps R (assemble perform registry component c k) :=
  .bind (.mapM keeps_resolveNow _) fun _ => .bind (keeps_constructorValues serves _) fun _ =>
    .bind (keeps_callConstructor serves _ _ _) fun _ => .pure _

end Parts

section Whole
variable {registry : String} {c : ClassRef} {name : Option String} {explicit : Entries Value}
  {st constructed after : Store} {m : Metadata} {supplied : List Candidate} {o : Value} {e : Error}

/-- Creating a component of the class gets as far as constructing the object: there are points and a
constructor, its requests receive the components of the supplied candidates, and calling it succeeds.
-/
inductive Constructs (registry : String) (c : ClassRef) (name : Option String) (st : Store)
    (m : Metadata) (supplied : List Candidate) (o : Value) (constructed : Store) : Prop
  | intro {found known : Store} {selection : Selection} {received : List (List Candidate)} :
    exec (metadata c) st = (.ok m, found) →
    exec (selectConstructor registry c) found = (.ok selection, known) →
    List.Forall₂ (Receives registry st) selection.constructor.requests received →
    supplied = received.flatten →
    exec (construct perform registry (st.world.componentName c name) c selection) known =
      (.ok o, constructed) →
    Constructs registry c name st m supplied o constructed

theorem Constructs.exec_create (constructs : Constructs registry c name st m supplied o constructed)
    (explicit : Entries Value) : exec (create registry c name explicit) st = exec (do
      inject perform registry (st.world.componentName c name) m explicit o
      return o) constructed := by
  obtain ⟨points, chosen, -, -, built⟩ := constructs
  unfold create createWith
  rw [exec_bind_of_ok (exec_nameFor c name st), exec_bind_of_ok points,
    exec_bind_of_ok (exec_tryCatch_of_ok chosen _), exec_bind_of_ok built]

/-- A construction either records the candidates for all parameters, or it fails and records nothing.
-/
theorem construct_records (st : Store) (component : String) {selection : Selection}
    (satisfied : ∀ results, selection.results = some results →
      (st.registry registry).Satisfied st.settings st.world st.heap
        selection.constructor.requests results) :
    (∀ e after, exec (construct perform registry component c selection) st = (.error e, after) →
      st.Notes (fun _ _ => False) after) ∧
    ∀ o after, exec (construct perform registry component c selection) st = (.ok o, after) →
      ∃ results, (st.registry registry).Satisfied st.settings st.world st.heap
        selection.constructor.requests results ∧
      Store.Adds registry component
        (named (List.zipWith Request.injected selection.constructor.requests results).flatten)
        st after := by
  -- with or without results from the choice, the parameters resolve to the same
  rw [← exec_construct_choice perform component satisfied, construct_eq_assemble]
  have kept : st.Notes (fun _ _ => False)
      (exec (assemble perform registry component c selection.constructor) st).2 :=
    keeps_assemble (serves_notes _) c selection.constructor st
  rw [exec_bind]
  rcases ran : exec (assemble perform registry component c selection.constructor) st with
    ⟨e | ⟨results, o⟩, next⟩ <;> rw [ran] at kept
  · refine ⟨fun _ _ failed => ?_, fun _ _ made => by cases made⟩
    cases failed
    exact kept
  · refine ⟨fun _ _ failed => (by cases failed), fun _ _ made => ?_⟩
    cases made
    refine ⟨results, satisfied_of_assemble ran, ?_⟩
    exact kept.adds.trans (next.adds_record registry component _)

/-- Up to the construction nothing changes but what is known about classes. -/
theorem knowing_of_chosen {found known : Store} {selection : Selection}
    (points : exec (metadata c) st = (.ok m, found))
    (chosen : exec (selectConstructor registry c) found = (.ok selection, known)) :
    ∃ ms ks, known = st.knowing ms ks ∧ ∀ results, selection.results = some results →
      (st.registry registry).Satisfied st.settings st.world st.heap
        selection.constructor.requests results := by
  obtain ⟨ms, -, find⟩ := exec_metadata_kept points
  cases (find st (.refl registry st) st.constructors).symm.trans points
  obtain ⟨ks, -, choose⟩ := exec_choice_kept chosen
  obtain ⟨choose, satisfied⟩ := choose _ (.refl registry _)
  cases (choose ms).symm.trans chosen
  exact ⟨ms, ks, rfl, satisfied⟩

theorem notes_knowing (st : Store) (ms : List (ClassRef × Metadata))
    (ks : List (ClassRef × Constructor)) : st.Notes (fun _ _ => False) (st.knowing ms ks) :=
  .of_drifts ⟨.of_eq rfl rfl rfl, rfl, fun _ => rfl⟩

theorem Constructs.adds (constructs : Constructs registry c name st m supplied o constructed) :
    Store.Adds registry (st.world.componentName c name) (named supplied) st constructed := by
  obtain ⟨points, chosen, lists, rfl, built⟩ := constructs
  obtain ⟨ms, ks, rfl, satisfied⟩ := knowing_of_chosen points chosen
  obtain ⟨results, all, adds⟩ :=
    (construct_records (st.knowing ms ks) _ satisfied).2 o constructed built
  rw [received_eq_injected lists all]
  exact (notes_knowing st ms ks).adds.trans adds

/-- A creation gets as far as constructing the object, or it fails and records nothing. -/
theorem constructs_or_fails (registry : String) (c : ClassRef) (name : Option String)
    (explicit : Entries Value) (st : Store) :
    (∃ m supplied o constructed, Constructs registry c name st m supplied o constructed) ∨
    ∃ e after, exec (create registry c name explicit) st = (.error e, after) ∧
      st.Notes (fun _ _ => False) after := by
  unfold create createWith
  rw [exec_bind_of_ok (exec_nameFor c name st)]
  have scanned := keeps_metadata (R := Store.Notes fun _ _ => False) c st
  rcases points : exec (metadata c) st with ⟨e | m, found⟩ <;> rw [points] at scanned
  · exact .inr ⟨e, found, exec_bind_of_error points _, scanned⟩
  rw [exec_bind_of_ok points]
  have kept := keeps_selectConstructor (R := Store.Notes fun _ _ => False) registry c found
  rcases chosen : exec (selectConstructor registry c) found with ⟨e | selection, known⟩ <;>
    rw [chosen] at kept
  · refine .inr ⟨selectionError (st.world.componentName c name) e, known, ?_, scanned.trans kept⟩
    apply exec_bind_of_error
    rw [exec_tryCatch, chosen]
    rfl
  rw [exec_bind_of_ok (exec_tryCatch_of_ok chosen _)]
  obtain ⟨ms, ks, rfl, satisfied⟩ := knowing_of_chosen points chosen
  obtain ⟨failing, succeeding⟩ :=
    construct_records (st.knowing ms ks) (st.world.componentName c name) satisfied
  rcases built : exec (construct perform registry (st.world.componentName c name) c selection)
    (st.knowing ms ks) with ⟨e | o, constructed⟩
  · exact .inr ⟨e, constructed, exec_bind_of_error built _,
      (notes_knowing st ms ks).trans (failing e constructed built)⟩
  · obtain ⟨results, all, -⟩ := succeeding o constructed built
    have receives : List.Forall₂ (Receives registry st) selection.constructor.requests
        (List.zipWith Request.injected selection.constructor.requests results) :=
      receives_of_satisfied all
    exact .inl ⟨m, _, o, constructed, .intro points chosen receives rfl built⟩

/-- An injection that fails records nothing; one that ends well records the candidates of the points.
-/
theorem inject_records {component : String} (m : Metadata) (o : Value) :
    (∀ e after, exec (inject perform registry component m explicit o) st = (.error e, after) →
      st.Notes (fun _ _ => False) after) ∧
    ∀ after, exec (inject perform registry component m explicit o) st = (.ok (), after) →
      ∃ gathered planned, Gathers perform registry explicit st m.points gathered planned ∧
        Store.Adds registry component (named gathered) st after := by
  have serves := serves_notes fun _ _ => False
  have plans : st.Notes (fun _ _ => False)
      (exec (planPoints perform registry component explicit m.points) st).2 :=
    keeps_planPoints (fun c => serves.component trivial registry c) explicit m.points st
  unfold inject
  rw [exec_bind]
  rcases planning : exec (planPoints perform registry component explicit m.points) st with
    ⟨e | steps, planned⟩ <;> rw [planning] at plans
  · refine ⟨fun _ _ failed => ?_, fun _ made => by cases made⟩
    cases failed
    exact plans
  have takes : planned.Notes (fun _ _ => False) (exec (takeSteps perform component o []
      (steps ++ planExplicit m.points explicit)) planned).2 :=
    keeps_takeSteps serves o [] _ planned
  dsimp only
  rw [exec_bind]
  rcases taking : exec (takeSteps perform component o [] (steps ++ planExplicit m.points explicit))
    planned with ⟨e | _, taken⟩ <;> rw [taking] at takes
  · refine ⟨fun _ _ failed => ?_, fun _ made => by cases made⟩
    cases failed
    exact plans.trans takes
  · refine ⟨fun _ _ failed => (by cases failed), fun _ made => ?_⟩
    cases made
    refine ⟨_, planned, gathers_of_planPoints planning, ?_⟩
    exact (plans.trans takes).adds.trans (taken.adds_record registry component _)

/-- When a creation ends well, the record of its component is what it was, followed by the new ones
of the candidates for its constructor and then for its points. Other records are unchanged, unless a
provider that was called meanwhile creates their components. -/
theorem create_records (made : exec (create registry c name explicit) st = (.ok o, after)) :
    ∃ m supplied constructed gathered planned,
      Constructs registry c name st m supplied o constructed ∧
      Gathers perform registry explicit constructed m.points gathered planned ∧
      ∀ title other, ¬ st.Creates after title other → after.dependencies title other =
        if title = registry ∧ other = st.world.componentName c name then
          noted (st.dependencies title other) (named (supplied ++ gathered))
        else st.dependencies title other := by
  rcases constructs_or_fails registry c name explicit st with
    ⟨m, supplied, o', constructed, constructs⟩ | ⟨e, last, failed, -⟩
  · rw [constructs.exec_create] at made
    obtain ⟨_, last, injected, made⟩ := exec_bind_eq_ok.mp made
    cases made
    obtain ⟨gathered, planned, gathers, adds⟩ := (inject_records m o).2 after injected
    refine ⟨m, supplied, constructed, gathered, planned, constructs, gathers, ?_⟩
    rw [named_append]
    exact (constructs.adds.trans adds).records
  · rw [made] at failed
    cases failed

/-- When a creation fails, the candidates for its constructor are on record for its component if the
object was constructed, and nothing else has changed but on the account of components that providers
created. So its own record is unchanged exactly if there was no object or nothing new to record. -/
theorem create_failed_records
    (failed : exec (create registry c name explicit) st = (.error e, after)) {title other : String}
    (apart : ¬ st.Creates after title other) :
    (∀ m supplied o constructed, Constructs registry c name st m supplied o constructed →
      title = registry → other = st.world.componentName c name →
      after.dependencies title other = noted (st.dependencies title other) (named supplied)) ∧
    (after.dependencies title other = st.dependencies title other ↔
      ¬ (title = registry ∧ other = st.world.componentName c name ∧
        ∃ m supplied o constructed, Constructs registry c name st m supplied o constructed ∧
          ∃ dependency ∈ named supplied, dependency ∉ st.dependencies title other)) := by
  -- once there is an object, only the injection can have failed, and that records nothing
  have law : ∀ m supplied o constructed, Constructs registry c name st m supplied o constructed →
      after.dependencies title other =
        if title = registry ∧ other = st.world.componentName c name then
          noted (st.dependencies title other) (named supplied)
        else st.dependencies title other := by
    intro m supplied o constructed constructs
    have stopped : exec (inject perform registry (st.world.componentName c name) m explicit o)
        constructed = (.error e, after) := by
      obtain early | ⟨_, last, -, made⟩ :=
        exec_bind_eq_error.mp ((constructs.exec_create explicit).symm.trans failed)
      · exact early
      · cases made
    have adds := constructs.adds.trans ((inject_records m o).1 e after stopped).adds
    rw [List.append_nil] at adds
    exact adds.records title other apart
  refine ⟨fun m supplied o constructed constructs own same => ?_, ?_⟩
  · rw [law m supplied o constructed constructs, if_pos ⟨own, same⟩]
  constructor
  · rintro unchanged ⟨own, same, m, supplied, o, constructed, constructs, dependency, mem, new⟩
    rw [law m supplied o constructed constructs, if_pos ⟨own, same⟩, noted_eq_self] at unchanged
    exact new (unchanged dependency mem)
  · intro old
    rcases constructs_or_fails registry c name explicit st with
      ⟨m, supplied, o, constructed, constructs⟩ | ⟨e', last, failed', notes⟩
    · rw [law m supplied o constructed constructs]
      split
      · rename_i own
        rw [noted_eq_self]
        intro dependency mem
        by_contra new
        exact old ⟨own.1, own.2, m, supplied, o, constructed, constructs, dependency, mem, new⟩
      · rfl
    · rw [failed] at failed'
      cases failed'
      exact notes.others title other id apart

end Whole

end Run

/-! A desk is made with a clock, and is then given a lamp. If there is no lamp, there is no desk, but
its clock is on record. A clock that has to be made takes a lamp itself, which is on record for the
clock when the desk is made. -/
namespace Attic
open Run

def clock : Hint := .cls (.declared 0)

def lamp : Hint := .cls (.declared 1)

def taking (owner name parameter : String) (type : Hint) (markers : List Marker) :
    String × Member :=
  (name, .method { name, owner, parameters := [{ name := parameter, type := some type }], markers })

def attic : World where
  moduleName := "attic"
  classes := [("Clock", [taking "Clock" "__init__" "lamp" lamp []]), ("Lamp", []),
    ("Desk", [taking "Desk" "__init__" "clock" clock [],
      taking "Desk" "set_lamp" "lamp" lamp [Marker.make .autowired]])].mapIdx
    fun n (name, members) => {
      name, qualifiedName := name, bases := [.builtin .object], members
      linearization := [.declared n, .builtin .object] }

def timepiece : Candidate where
  name := "clock"
  declaredType := clock

def light : Candidate where
  name := "lamp"
  declaredType := lamp
  index := 1

def store (entries : List Candidate) (instances : Entries Value) (providers : Entries Provider) :
    Store where
  world := attic
  heap := [{ cls := .declared 0 }, { cls := .declared 1 }]
  registries := [("main", { entries, instances, providers })]

def dark : Store := store [timepiece] [("clock", .object 0)] []

def lit : Store := store [timepiece, light] [("clock", .object 0), ("lamp", .object 1)] []

def winding : Store := store [timepiece, light] [("lamp", .object 1)]
  [("clock", .function { name := "make_clock", product := .created (.declared 0) "main" })]

def makeDesk : Run Value := create "main" (.declared 2) none []

theorem creates_nothing {entries : List Candidate} {instances : Entries Value} (after : Store)
    (title name : String) : ¬ (store entries instances []).Creates after title name := by
  rintro ⟨registry, key, f, c, provider, -⟩
  by_cases main : registry = "main"
  · simp [Store.registry, store, main] at provider
  · have other : (registry == "main") = false := by simpa using main
    simp [Store.registry, store, List.lookup, other] at provider

theorem desk_recorded : ∃ o after, exec makeDesk lit = (.ok o, after) ∧
    after.dependencies "main" "desk" = ["clock", "lamp"] ∧
    ∃ m supplied constructed gathered planned,
      Constructs "main" (.declared 2) none lit m supplied o constructed ∧
      Gathers perform "main" [] constructed m.points gathered planned ∧
      after.dependencies "main" "desk" = noted [] (named (supplied ++ gathered)) := by
  have ends : (exec makeDesk lit).1 = .ok (.object 2) := by cbv
  have listed : (exec makeDesk lit).2.dependencies "main" "desk" = ["clock", "lamp"] := by cbv
  have made : exec makeDesk lit = (.ok (.object 2), (exec makeDesk lit).2) := Prod.ext ends rfl
  obtain ⟨m, supplied, constructed, gathered, planned, constructs, gathers, records⟩ :=
    create_records made
  refine ⟨_, _, made, listed, m, supplied, constructed, gathered, planned, constructs, gathers, ?_⟩
  exact records "main" "desk" (creates_nothing _ _ _)

theorem clock_recorded : (exec makeDesk winding).1 = .ok (.object 3) ∧
    winding.dependencies "main" "clock" = [] ∧
    (exec makeDesk winding).2.dependencies "main" "clock" = ["lamp"] := by
  have ends : (exec makeDesk winding).1 = .ok (.object 3) := by cbv
  have listed : (exec makeDesk winding).2.dependencies "main" "clock" = ["lamp"] := by cbv
  exact ⟨ends, rfl, listed⟩

theorem dark_fails : ∃ e after, exec makeDesk dark = (.error e, after) ∧
    after.dependencies "main" "desk" = ["clock"] := by
  have ends : (exec makeDesk dark).1.toOption.isSome = false := by cbv
  have listed : (exec makeDesk dark).2.dependencies "main" "desk" = ["clock"] := by cbv
  cases ran : exec makeDesk dark with
  | mk result after =>
    rw [ran] at ends listed
    cases result with
    | ok o => cases ends
    | error e => exact ⟨e, after, rfl, listed⟩

theorem desk_undone : ∃ e after, exec makeDesk dark = (.error e, after) ∧
    after.dependencies "main" "clock" = dark.dependencies "main" "clock" ∧
    ∃ m supplied o constructed,
      Constructs "main" (.declared 2) none dark m supplied o constructed ∧
      after.dependencies "main" "desk" = noted [] (named supplied) := by
  obtain ⟨e, after, failed, listed⟩ := dark_fails
  have clocks := (create_failed_records failed (creates_nothing after "main" "clock")).2.mpr
  obtain ⟨records, unchanged⟩ :=
    create_failed_records failed (creates_nothing after "main" "desk")
  have changed : ¬ after.dependencies "main" "desk" = dark.dependencies "main" "desk" := by
    rw [listed]
    exact nofun
  obtain ⟨-, -, m, supplied, o, constructed, constructs, -⟩ :=
    not_not.mp (mt unchanged.mpr changed)
  refine ⟨e, after, failed, clocks ?_, m, supplied, o, constructed, constructs, ?_⟩
  · rintro ⟨-, named, -⟩
    exact absurd named (by decide)
  · exact records m supplied o constructed constructs rfl rfl

theorem desk_on_record : ∃ e after name, exec makeDesk dark = (.error e, after) ∧
    after.dependencies "main" name ≠ dark.dependencies "main" name := by
  obtain ⟨e, after, failed, listed⟩ := dark_fails
  refine ⟨e, after, "desk", failed, ?_⟩
  rw [listed]
  exact nofun

end Attic
end Wiring
