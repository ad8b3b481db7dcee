import Wiring.Proofs.Object.Keeping

/-! What injecting, creating and fetching components keeps of the store, however deep the components
that are built meanwhile nest. Nothing is registered, and fetching a component adds it to those at
hand only where there was none. -/
namespace Wiring

def World.componentName (w : World) (c : ClassRef) (name : Option String) : String :=
  (name.filter (!·.isEmpty)).getD (defaultName (w.name c))

namespace Run

section Planning
variable {R : Store → Store → Prop} [IsPreorder Store R] {perform : Perform}
  {registry component : String} (fetches : ∀ c, Keeps R (perform (.component registry c)))
include fetches

omit fetches in
theorem keeps_resolveNow (q : Request) : Keeps R (resolveNow registry q) :=
  .ite (.pure _) (.resolve _ _)

theorem keeps_materialise (q : Request) (result : Resolution) :
    Keeps R (materialise perform registry q result) := by
  refine .ite (.pure _) ?_
  cases result with
  | value c => exact fetches c
  | values cs => exact .bind (.mapM fetches cs) fun _ => .pure _
  | empty => exact .pure _
  | failure f => exact .pure _

theorem keeps_planField (p : InjectionPoint) (q : Request) :
    Keeps R (planField perform registry component p q) := by
  refine .bind (keeps_resolveNow q) fun result => ?_
  split
  · exact .throw _
  · exact .pure _
  · exact .bind (keeps_materialise fetches _ _) fun _ => .pure _

theorem keeps_planParameters (p : InjectionPoint) (qs : List Request) :
    Keeps R (planParameters perform registry component p qs) := by
  induction qs with
  | nil => exact .pure _
  | cons q qs ih =>
    refine .bind (keeps_resolveNow q) fun result => ?_
    split
    · split
      · exact .ite (.throw _) (.pure _)
      · exact .throw _
    · exact .bind (keeps_materialise fetches _ _) fun _ => .bind ih fun _ => .pure _

theorem keeps_planPoint (p : InjectionPoint) :
    Keeps R (planPoint perform registry component p) := by
  unfold planPoint
  split
  · exact keeps_planField fetches _ _
  · exact .pure _
  · exact .bind (keeps_planParameters fetches _ _) fun _ => .pure _

theorem keeps_planPoints (explicit : Entries Value) (points : List InjectionPoint) :
    Keeps R (planPoints perform registry component explicit points) := by
  induction points with
  | nil => exact .pure _
  | cons p points ih =>
    exact .ite ih (.bind (keeps_planPoint fetches p) fun _ => .bind ih fun _ => .pure _)

end Planning

section Injection
variable {R : Store → Store → Prop} [Tolerant R] {perform : Perform}
  (serves : Serves R True perform) {registry component : String}
  (records : ∀ injected, Keeps R (modifyRegistry registry (·.record injected component)))
include serves

theorem keeps_previous (target : Value) (name : String) :
    Keeps R (previous perform target name) := by
  refine .bind (keeps_readOptional serves _ _) fun own => ?_
  split
  · exact keeps_readOptional serves _ _
  · exact keeps_readOptional serves _ _
  · split
    · exact .pure _
    · exact .throw _

theorem keeps_takeStep (target : Value) (step : Step) :
    Keeps R (takeStep perform target step) := by
  cases step with
  | assign name value =>
    exact .bind (keeps_previous serves _ _) fun _ =>
      .bind (keeps_setAttribute serves (fun _ => trivial) _ _) fun _ => .pure _
  | call method arguments =>
    exact .bind (yields_callAttribute serves arguments.passes_all (.inl fun _ => trivial)).keeps
      fun _ => .pure _

theorem keeps_restore (target : Value) (undo : Undo) : Keeps R (restore perform target undo) := by
  induction undo with
  | nil => exact .pure _
  | cons entry undo ih =>
    obtain ⟨name, _ | v⟩ := entry
    · exact .bind (keeps_deleteAttribute serves _ _) fun _ => ih
    · exact .bind (keeps_setAttribute serves (fun _ => trivial) _ _) fun _ => ih

theorem keeps_takeSteps (target : Value) (undo : Undo) (planned : List Planned) :
    Keeps R (takeSteps perform component target undo planned) := by
  induction planned generalizing undo with
  | nil => exact .pure _
  | cons p planned ih =>
    refine .bind (.tryCatch (keeps_takeStep serves _ _) fun e => ?_) fun _ => ih _
    exact .bind (keeps_restore serves _ _) fun _ => .throw _

include records in
theorem keeps_inject (m : Metadata) (explicit : Entries Value) (target : Value) :
    Keeps R (inject perform registry component m explicit target) :=
  .bind (keeps_planPoints (fun c => serves.component trivial registry c) _ _) fun _ =>
    .bind (keeps_takeSteps serves _ _ _) fun _ => records _

end Injection

section Creation
variable {R : Store → Store → Prop} [Tolerant R]

theorem exec_nameFor (c : ClassRef) (name : Option String) (st : Store) :
    exec (nameFor c name) st = (.ok (st.world.componentName c name), st) := by
  unfold nameFor World.componentName
  cases name with
  | none => rfl
  | some n =>
    dsimp only
    split
    · rename_i empty
      simp only [Option.filter, empty, Bool.not_true, Bool.false_eq_true, if_false]
      rfl
    · rename_i given
      simp [Option.filter, given]

theorem keeps_metadata (c : ClassRef) : Keeps R (metadata c) := by
  refine .bind .get fun st => ?_
  split
  · exact .pure _
  · exact .bind (.lift _) fun _ => .bind (.lift _) fun _ =>
      .bind (.drift fun _ => ⟨.of_eq rfl rfl rfl, rfl, fun _ => rfl⟩) fun _ => .pure _

theorem keeps_selectConstructor (registry : String) (c : ClassRef) :
    Keeps R (selectConstructor registry c) := by
  refine .bind .get fun st => ?_
  split
  · exact .pure _
  · exact .bind (.lift _) fun _ =>
      .bind (.drift fun _ => ⟨.of_eq rfl rfl rfl, rfl, fun _ => rfl⟩) fun _ => .pure _

variable {perform : Perform} (serves : Serves R True perform) {registry component : String}
include serves

theorem keeps_constructorValues (results : List (Request × Resolution)) :
    Keeps R (constructorValues perform registry component results) := by
  induction results with
  | nil => exact .pure _
  | cons entry results ih =>
    obtain ⟨q, result⟩ := entry
    unfold constructorValues
    split
    · exact .throw _
    · exact .bind (keeps_materialise (fun c => serves.component trivial registry c) _ _) fun _ =>
        .bind ih fun _ => .pure _

theorem keeps_callConstructor (c : ClassRef) (name : String) (a : Arguments) :
    Keeps R (callConstructor perform c name a) :=
  .ite (yields_instantiate serves a.passes_all c).keeps
    (yields_callAttribute serves a.passes_all (.inl fun _ => trivial)).keeps

variable (records : ∀ injected, Keeps R (modifyRegistry registry (·.record injected component)))
include records

theorem keeps_construct (c : ClassRef) (selection : Selection) :
    Keeps R (construct perform registry component c selection) := by
  have finish (results : List (Request × Resolution)) (injected : List Candidate) : Keeps R (do
      let values ← constructorValues perform registry component results
      let o ← callConstructor perform c selection.constructor.name (.ofRequests values)
      modifyRegistry registry (·.record injected component)
      return o) :=
    .bind (keeps_constructorValues serves _) fun _ =>
      .bind (keeps_callConstructor serves _ _ _) fun _ => .bind (records _) fun _ => .pure _
  unfold construct
  dsimp only
  split
  · exact .bind (.pure _) fun _ => finish _ _
  · exact .bind (.mapM keeps_resolveNow _) fun _ => finish _ _

omit records in
theorem keeps_createWith (c : ClassRef) (name : Option String) (explicit : Entries Value)
    {st : Store} (records : ∀ injected,
      Keeps R (modifyRegistry registry (·.record injected (st.world.componentName c name)))) :
    R st (exec (createWith perform registry c name explicit) st).2 := by
  rw [createWith, exec_bind_of_ok (exec_nameFor c name st)]
  have rest : Keeps R (do
      let m ← metadata c
      let selection ← tryCatch (selectConstructor registry c) fun e =>
        throw (selectionError (st.world.componentName c name) e)
      let o ← construct perform registry (st.world.componentName c name) c selection
      inject perform registry (st.world.componentName c name) m explicit o
      return o) :=
    .bind (keeps_metadata _) fun _ =>
      .bind (.tryCatch (keeps_selectConstructor _ _) fun _ => .throw _) fun _ =>
        .bind (keeps_construct serves records _ _) fun _ =>
          .bind (keeps_inject serves records _ _ _) fun _ => .pure _
  exact rest st

end Creation

section Tasks
variable {R : Store → Store → Prop} [Tolerant R] {handles : Prop}

/-- Apart from creating a component, a provider only runs code, and hands no handle to it. -/
theorem keeps_build {perform : Perform} (serves : Serves R handles perform) (p : Provider)
    (creates : ∀ f c registry, p = .function f → f.product = .created c registry →
      Keeps R (createWith perform registry c none [])) : Keeps R (build perform p) := by
  cases p with
  | cls c => exact (yields_instantiate serves Arguments.passes_empty c).keeps
  | form h => exact (yields_callForm serves Arguments.passes_empty h).keeps
  | function f =>
    refine .bind (keeps_emit _) fun _ => ?_
    split
    · exact .throw _
    · split
      · exact .pure _
      · exact .bind (yields_newObject serves Arguments.passes_empty _).keeps fun _ =>
          .bind (keeps_emit _) fun _ => .pure _
      · exact creates f _ _ rfl ‹_›

/-- By induction on the depth: a task is performed by handing tasks over to the next depth. -/
theorem serves_performWithin (fetches : handles → ∀ n, Serves R handles (performWithin n) →
      ∀ registry c, Keeps R (component (performWithin n) registry c)) (n : Nat) :
    Serves R handles (performWithin n) := by
  induction n with
  | zero =>
    exact {
      component := fun _ _ _ => .throw _
      call := fun _ _ _ => .throw _
      send := fun _ _ => .throw _
      read := fun _ _ => .throw _
      assign := fun _ _ _ _ => .throw _
      remove := fun _ _ => .throw _
      make := fun _ => .throw _ }
  | succ n ih =>
    exact {
      component := fun allowed registry c => fetches allowed n ih registry c
      call := fun v _ passes => yields_callValue ih passes v
      send := fun on passes => yields_callAttribute ih passes on
      read := fun v name => keeps_readAttribute ih v name
      assign := fun v name _ on => .after (keeps_setAttribute ih on v name) fun _ => .pure nofun
      remove := fun v name => .bind (keeps_deleteAttribute ih v name) fun _ => .pure _
      make := fun c => yields_newObject ih Arguments.passes_empty c }

theorem serves_perform (fetches : handles → ∀ n, Serves R handles (performWithin n) →
      ∀ registry c, Keeps R (component (performWithin n) registry c)) :
    Serves R handles perform := by
  have within (n : Nat) : Serves R handles (performWithin n) := serves_performWithin fetches n
  exact {
    component := fun allowed registry c =>
      .bind .get fun st => (within st.depth).component allowed registry c
    call := fun v _ passes => .after .get fun st => (within st.depth).call v passes
    send := fun on passes => .after .get fun st => (within st.depth).send on passes
    read := fun v name => .bind .get fun st => (within st.depth).read v name
    assign := fun v name _ on => .after .get fun st => (within st.depth).assign v name on
    remove := fun v name => .bind .get fun st => (within st.depth).remove v name
    make := fun c => .after .get fun st => (within st.depth).make c }

theorem keeps_priorityOf (serves : Serves R handles perform) (v : Value) :
    Keeps R (priorityOf v) := by
  have optional (method : String) := keeps_readOptional serves v method
  have presents : Keeps R (presents v orderMethod) := by
    refine .bind (optional _) fun found => ?_
    split
    · exact .pure _
    · refine .bind (optional _) fun again => ?_
      split <;> exact .pure _
  have ordered : Keeps R (isOrdered v) := by
    refine .bind .get fun st => ?_
    split
    · exact .pure _
    · exact presents
  refine .bind .get fun _ => .bind .get fun _ => .bind ordered fun _ => .ite ?_ (.pure _)
  refine .bind (yields_callAttribute serves Arguments.passes_empty (.inr (by decide))).keeps
    fun answer => ?_
  split <;> exact .pure _

end Tasks

section Quiet
variable {perform : Perform} (serves : Serves Store.Grows True perform) (registry : String)

theorem quiet_record (component : String) (injected : List Candidate) :
    Quiet (modifyRegistry registry (·.record injected component)) :=
  fun st => .setRegistry (.refl st) (Registry.grows_record _ _ _)

include serves

theorem quiet_createWith (c : ClassRef) (name : Option String) (explicit : Entries Value) :
    Quiet (createWith perform registry c name explicit) :=
  fun _ => keeps_createWith serves c name explicit (quiet_record registry _)

theorem quiet_injectWith (target : Value) (name : Option String) (explicit : Entries Value) :
    Quiet (injectWith perform registry target name explicit) := by
  refine .bind .get fun st => .bind (keeps_metadata _) fun m => ?_
  refine .bind (fun now => ?_) fun component =>
    keeps_inject serves (quiet_record registry component) m explicit target
  rw [exec_nameFor]
  exact .refl now

theorem quiet_build (p : Provider) : Quiet (build perform p) :=
  keeps_build serves p fun _ c registry _ _ => quiet_createWith serves registry c none []

end Quiet

/-- How fetching a component can end: it is at hand, nothing is registered under its name, its
provider fails, or it is made and kept. -/
inductive Fetched (perform : Perform) (registry : String) (c : Candidate) (st : Store) :
    Except Error Value × Store → Prop
  | atHand {v : Value} : (st.registry registry).instances.lookup c.name = some v →
    Fetched perform registry c st (.ok v, st)
  | unknown : (st.registry registry).instances.lookup c.name = none →
    (st.registry registry).providers.lookup c.name = none →
    Fetched perform registry c st (.error (.noCandidate (.notRegistered c) none), st)
  | failed {p : Provider} {e : Error} {after : Store} :
    (st.registry registry).instances.lookup c.name = none →
    (st.registry registry).providers.lookup c.name = some p →
    exec (build perform p) st = (.error e, after) →
    Fetched perform registry c st (.error e, after)
  | made {p : Provider} {v : Value} {next : Store} :
    (st.registry registry).instances.lookup c.name = none →
    (st.registry registry).providers.lookup c.name = some p →
    exec (build perform p) st = (.ok v, next) →
    Fetched perform registry c st
      (.ok v, next.setRegistry registry ((next.registry registry).keepReturned c.name v))

theorem fetched_component (perform : Perform) (registry : String) (c : Candidate) (st : Store) :
    Fetched perform registry c st (exec (component perform registry c) st) := by
  rw [component, exec_bind, exec_get]
  dsimp only
  split
  · rename_i held
    exact .atHand held
  · rename_i missing
    split
    · rename_i unprovided
      exact .unknown missing unprovided
    · rename_i p provider
      rw [exec_bind]
      rcases ran : exec (build perform p) st with ⟨e | v, next⟩
      · exact .failed missing provider ran
      · exact .made missing provider ran

theorem quiet_component (n : Nat) (serves : Serves Store.Grows True (performWithin n))
    (registry : String) (c : Candidate) :
    Quiet (component (performWithin n) registry c) := by
  intro st
  have fetched := fetched_component (performWithin n) registry c st
  generalize exec (component (performWithin n) registry c) st = ended at fetched ⊢
  cases fetched with
  | atHand | unknown => exact .refl st
  | @failed p _ _ _ _ ran =>
    have begun := quiet_build serves p st
    rwa [ran] at begun
  | @made p v next missing provider ran =>
    have begun := quiet_build serves p st
    rw [ran] at begun
    have makes : Makes st next registry c.name p v :=
      ⟨n, st, next, .refl st, .refl next, missing, ran⟩
    exact begun.setRegistry ((begun.registry registry).keepReturned missing provider makes)

theorem serves_grows : Serves Store.Grows True perform :=
  serves_perform fun _ n serves registry c => quiet_component n serves registry c

theorem quiet_getComponent (registry : String) (c : Candidate) :
    Quiet (getComponent registry c) := serves_grows.component trivial registry c

theorem quiet_create (registry : String) (c : ClassRef) (name : Option String)
    (explicit : Entries Value) : Quiet (create registry c name explicit) :=
  quiet_createWith serves_grows _ _ _ _

theorem quiet_injectInto (registry : String) (target : Value) (name : Option String)
    (explicit : Entries Value) : Quiet (injectInto registry target name explicit) :=
  quiet_injectWith serves_grows _ _ _ _

theorem quiet_priorityOf (v : Value) : Quiet (priorityOf v) := keeps_priorityOf serves_grows v

end Run
end Wiring
