import Wiring.Registration
import Wiring.Proofs.Registry.History

/-! Runs of operations on registries: registering components in all ways, fetching them, and
creating and injecting others. An operation can fail, and the run goes on from the store it left. -/
namespace Wiring

inductive Operation where
  | register (name : String) (v : Value) (o : Registration)
  | registerProvider (name : String) (p : Provider) (o : Registration)
  | provide (name : Option String) (p : Provider) (o : Registration)
  | registerResolvable (type : Hint) (v : Value)
  | getComponent (c : Candidate)
  | create (c : ClassRef) (name : Option String) (explicit : Entries Value)
  | injectInto (target : Value) (name : Option String) (explicit : Entries Value)
deriving Repr

namespace Operation

/-- Performs the operation. A registration gives the candidate that it added. -/
def run (registry : String) : Operation → Run (Option Registered)
  | register name v o => do
    return some ⟨← Run.register registry name v o, .given v⟩
  | registerProvider name p o => do
    return some ⟨← Run.registerProvider registry name p o, .made p⟩
  | provide name p o => do
    return some ⟨← Run.provide registry name p o, .made p⟩
  | registerResolvable type v => do
    Run.registerResolvable registry type v
    return ((← get).registry registry).resolvable.getLast?.map fun entry => ⟨entry.1, .given v⟩
  | getComponent c => do
    let _ ← Run.getComponent registry c
    return none
  | create c name explicit => do
    let _ ← Run.create registry c name explicit
    return none
  | injectInto target name explicit => do
    Run.injectInto registry target name explicit
    return none

/-- Performs operations, each on its registry. The result is what the registry of the title
recorded, and the store in the end. -/
def runAll (title : String) : List (String × Operation) → Store → List Registered × Store
  | [], st => ([], st)
  | (registry, operation) :: rest, st =>
    let (result, next) := (operation.run registry).exec st
    let new := if registry = title then result.toOption.join.toList else []
    let (later, last) := runAll title rest next
    (new ++ later, last)

end Operation

namespace Run

/-- What the computation gives is what it registers in the registry. -/
def Registers (registry : String) (x : Run (Option Registered)) : Prop :=
  ∀ title (st : Store), st.Evolves title
    (if registry = title then (exec x st).1.toOption.join.toList else []) (exec x st).2

namespace Registers
variable {registry : String} {α : Type}

theorem of_quiet {x : Run α} (quiet : Quiet x) :
    Registers registry (do let _ ← x; return none) := by
  intro title st
  have grown := quiet st
  rw [exec_bind]
  rcases ran : exec x st with ⟨e | a, next⟩ <;> rw [ran] at grown
  · simpa [Except.toOption] using Store.Evolves.of_grows grown
  · simpa [Except.toOption] using Store.Evolves.of_grows grown

theorem bind {x : Run α} {f : α → Run (Option Registered)} (quiet : Quiet x)
    (rest : ∀ a, Registers registry (f a)) : Registers registry (x >>= f) := by
  intro title st
  have grown := quiet st
  rw [exec_bind]
  rcases ran : exec x st with ⟨e | a, next⟩ <;> rw [ran] at grown
  · simpa [Except.toOption] using Store.Evolves.of_grows grown
  · simpa using (Store.Evolves.of_grows grown).trans (rest a title next)

theorem fail (e : Error) : Registers registry (throw e) := by
  intro title st
  simpa [Except.toOption] using Store.Evolves.refl st

end Registers

theorem exec_addEntry (registry name : String) (type : Hint) (o : Registration) (st : Store) :
    exec (addEntry registry name type o) st =
      match (st.registry registry).add name type o with
      | .ok (c, r) => (.ok c, st.setRegistry registry r)
      | .error e => (.error e, st) := by
  rw [addEntry, exec_bind, exec_get]
  dsimp only
  cases (st.registry registry).add name type o <;> rfl

def Enters (registry : String) (source : Source) (x : Run Candidate) : Prop :=
  Registers registry (do return some ⟨← x, source⟩)

namespace Enters
variable {registry : String} {source : Source} {α : Type}

theorem bind {x : Run α} {f : α → Run Candidate} (quiet : Quiet x)
    (rest : ∀ a, Enters registry source (f a)) : Enters registry source (x >>= f) := by
  rw [Enters, bind_assoc]
  exact Registers.bind quiet rest

theorem fail (e : Error) : Enters registry source (throw e) := Registers.fail e

theorem add (name : String) (type : Hint) (o : Registration) (source : Source) :
    Enters registry source (do
      let c ← addEntry registry name type o
      modifyRegistry registry fun r => source.put name r
      return c) := by
  intro title st
  simp only [bind_assoc, pure_bind]
  rw [exec_bind, exec_addEntry]
  cases added : (st.registry registry).add name type o with
  | error e => simpa [Except.toOption] using Store.Evolves.refl st
  | ok entry =>
    obtain ⟨c, r⟩ := entry
    change st.Evolves title (if registry = title then [⟨c, source⟩] else [])
      ((st.setRegistry registry r).setRegistry registry
        (source.put name ((st.setRegistry registry r).registry registry)))
    refine ⟨.of_eq rfl rfl rfl, ?_⟩
    by_cases same : registry = title
    · subst same
      simpa using Registry.Evolves.refl.named source added
    · simpa [same, Store.registry_setRegistry_of_ne (Ne.symm same)] using Registry.Evolves.refl

theorem register (name : String) (v : Value) (o : Registration) :
    Enters registry (.given v) (Run.register registry name v o) := by
  have enter (priority : Option Int) : Enters registry (.given v) (do
      let st ← get
      let cls := st.classOf v
      let primary := o.primary || st.world.isPrimary (.cls cls)
      let c ← addEntry registry name (o.declaredType.getD (.cls cls)) { o with priority, primary }
      modifyRegistry registry (·.keep name v)
      return c) := bind .get fun st => add name _ _ (.given v)
  unfold Run.register
  dsimp only
  split
  · exact enter _
  · exact bind (quiet_priorityOf v) enter

theorem registerProvider (name : String) (p : Provider) (o : Registration) :
    Enters registry (.made p) (Run.registerProvider registry name p o) := by
  have enter (type : Hint) (o : Registration) : Enters registry (.made p) (do
      let c ← addEntry registry name type o
      modifyRegistry registry (·.provide name p)
      return c) := add name type o (.made p)
  refine bind .get fun st => ?_
  dsimp only
  split
  · exact enter _ _
  · exact bind (.lift _) fun type => enter type _

theorem provide (name : Option String) (p : Provider) (o : Registration) :
    Enters registry (.made p) (Run.provide registry name p o) := by
  refine bind .get fun st => ?_
  split
  · exact registerProvider _ p o
  · exact registerProvider _ p o
  · exact fail _

end Enters

theorem registers_registerResolvable (registry : String) (type : Hint) (v : Value) :
    Registers registry ((Operation.registerResolvable type v).run registry) := by
  intro title st
  simp only [Operation.run, registerResolvable, bind_assoc, exec_bind, exec_get]
  cases type.qualifiedName? st.world with
  | none => simpa [Except.toOption] using Store.Evolves.refl st
  | some name =>
    refine ⟨.of_eq rfl rfl rfl, ?_⟩
    simp only [modifyRegistry, exec_modify, exec_pure, Except.toOption, Option.join_some,
      Store.registry_setRegistry_self, Registry.addResolvable, Registry.keep,
      List.getLast?_concat, Option.map_some, Option.toList_some]
    by_cases same : registry = title
    · subst same
      rw [if_pos rfl, Store.registry_setRegistry_self]
      exact Registry.Evolves.refl.forType name type (st.classOf v) v
    · rw [if_neg same, Store.registry_setRegistry_of_ne (Ne.symm same)]
      exact .refl

theorem registers_run (registry : String) (operation : Operation) :
    Registers registry (operation.run registry) := by
  cases operation with
  | register name v o => exact Enters.register name v o
  | registerProvider name p o => exact Enters.registerProvider name p o
  | provide name p o => exact Enters.provide name p o
  | registerResolvable type v => exact registers_registerResolvable registry type v
  | getComponent c => exact .of_quiet (quiet_getComponent registry c)
  | create c name explicit => exact .of_quiet (quiet_create registry c name explicit)
  | injectInto target name explicit =>
    exact .of_quiet (quiet_injectInto registry target name explicit)

/-- Performs what is listed, each on its registry, and goes on after a failure. The result is what the
registry of the title recorded, and the store in the end. -/
def recordAll {α : Type} (run : String → α → Run (Option Registered)) (title : String) :
    List (String × α) → Store → List Registered × Store
  | [], st => ([], st)
  | (registry, a) :: rest, st =>
    let (result, next) := exec (run registry a) st
    let new := if registry = title then result.toOption.join.toList else []
    let (later, last) := recordAll run title rest next
    (new ++ later, last)

theorem evolves_recordAll {α : Type} {run : String → α → Run (Option Registered)}
    (registers : ∀ registry a, Registers registry (run registry a)) {title : String}
    {listed : List (String × α)} {st now : Store} {history : List Registered}
    (ran : recordAll run title listed st = (history, now)) : st.Evolves title history now := by
  induction listed generalizing st history with
  | nil =>
    cases ran
    exact .refl _
  | cons step rest ih =>
    obtain ⟨registry, a⟩ := step
    cases ran
    exact (registers registry a title st).trans (ih rfl)

theorem runAll_eq_recordAll (title : String) (operations : List (String × Operation)) (st : Store) :
    Operation.runAll title operations st = recordAll Operation.run title operations st := by
  induction operations generalizing st with
  | nil => rfl
  | cons step rest ih => simp only [Operation.runAll, recordAll, ih]

theorem evolves_runAll {title : String} {operations : List (String × Operation)} {st now : Store}
    {history : List Registered} (ran : Operation.runAll title operations st = (history, now)) :
    st.Evolves title history now := by
  rw [runAll_eq_recordAll] at ran
  exact evolves_recordAll registers_run ran

end Run
end Wiring
