import Wiring.Proofs.Outcome
import Wiring.Proofs.Registry.Growth

/-! What running code keeps of the store. By itself it changes objects and classes and reports
events; everything else it has done as tasks. So a relation between stores that bears such changes is
kept by every computation on values, if the tasks keep it. And code that is given no lazy handle does
not come to use one. -/
namespace Wiring

/-- What code does to a store by itself. No registry changes. -/
structure Store.Drifts (st after : Store) : Prop extends st.Precedes after where
  registries : after.registries = st.registries
  names : ∀ c, after.world.name c = st.world.name c

/-- The relation bears what code does by itself. -/
class Tolerant (R : Store → Store → Prop) : Prop extends IsPreorder Store R where
  drift : ∀ {st after : Store}, st.Drifts after → R st after

namespace Store.Drifts
variable {st mid after : Store}

theorem refl (st : Store) : st.Drifts st := ⟨.refl st, rfl, fun _ => rfl⟩

theorem trans (begun : st.Drifts mid) (ended : mid.Drifts after) : st.Drifts after where
  toPrecedes := begun.toPrecedes.trans ended.toPrecedes
  registries := ended.registries.trans begun.registries
  names c := (ended.names c).trans (begun.names c)

end Store.Drifts

instance : Tolerant Store.Drifts where
  refl := .refl
  trans _ _ _ := .trans
  drift drifts := drifts

instance : Tolerant Store.Grows where
  drift drifts := .of_registries drifts.toPrecedes drifts.registries

theorem World.name_setMember (w : World) (c k : ClassRef) (name : String) (m : Member) :
    (w.setMember c name m).name k = w.name k := by
  cases c with
  | builtin b => rfl
  | declared n =>
    cases k with
    | builtin b => rfl
    | declared i =>
      simp only [World.name, World.info, World.setMember, List.getElem?_modify]
      cases w.classes[i]? with
      | none => rfl
      | some info => by_cases same : n = i <;> simp [same]

theorem Store.drifts_setMember (st : Store) (c : ClassRef) (name : String) (m : Member) :
    st.Drifts { st with world := st.world.setMember c name m } :=
  ⟨.of_eq rfl rfl rfl, rfl, fun k => st.world.name_setMember c k name m⟩

namespace Value

def isHandle : Value → Bool
  | factory .. => true
  | _ => false

/-- A value that can be passed on: any if handles can, otherwise none that is one. -/
def Passes (handles : Prop) (v : Value) : Prop := v.isHandle → handles

end Value

structure Arguments.Passes (handles : Prop) (a : Arguments) : Prop where
  positional : ∀ v ∈ a.positional, v.Passes handles
  named : ∀ e ∈ a.named, e.2.Passes handles

namespace Arguments
variable {handles : Prop} {a : Arguments}

theorem passes_empty : ({} : Arguments).Passes handles := ⟨by simp, by simp⟩

theorem passes_all (a : Arguments) : a.Passes True :=
  ⟨fun _ _ _ => trivial, fun _ _ _ => trivial⟩

theorem Passes.cons {v : Value} (first : v.Passes handles) (passes : a.Passes handles) :
    Passes handles { a with positional := v :: a.positional } where
  positional := by simpa using ⟨first, passes.positional⟩
  named := passes.named

theorem Passes.tail {v : Value} {rest : List Value} (passes : a.Passes handles)
    (parts : a.positional = v :: rest) : Passes handles { a with positional := rest } where
  positional x mem := passes.positional x (parts ▸ List.mem_cons_of_mem v mem)
  named := passes.named

theorem passes_valueOf {title : String} {params : List Parameter} {p : Parameter} {v : Value}
    (passes : a.Passes handles) (given : a.valueOf title params p = .ok v) :
    v.Passes handles := by
  have byPosition : ∀ x, (a.filled params).lookup p.name = some x → x.Passes handles := by
    intro x found
    have mem := Entries.mem_of_lookup found
    simp only [filled, List.mem_map] at mem
    obtain ⟨pair, zipped, same⟩ := mem
    rw [← (Prod.mk.inj same).2]
    exact passes.positional _ (List.of_mem_zip zipped).2
  have byName : ∀ x, (if p.isNameable then a.named.lookup p.name else none) = some x →
      x.Passes handles := by
    intro x found
    split at found
    · exact passes.named _ (Entries.mem_of_lookup found)
    · cases found
  unfold valueOf at given
  split at given
  · cases given
    exact nofun
  · cases given
    exact nofun
  · dsimp only at given
    split at given
    · cases given
    · cases given
      exact byPosition _ ‹_›
    · cases given
      exact byName _ ‹_›
    · split at given
      · cases given
        exact nofun
      · cases given

theorem passes_bind {title : String} {params : List Parameter} {bound : Entries Value}
    (passes : a.Passes handles) (given : a.bind title params = .ok bound) :
    ∀ e ∈ bound, e.2.Passes handles := by
  intro e mem
  have walked : params.mapM (fun p => do return (p.name, ← a.valueOf title params p)) =
      .ok bound := by
    unfold bind at given
    split at given
    · cases given
    · split at given
      · cases given
      · exact given
  obtain ⟨p, -, made⟩ := Outcome.exists_of_mem_mapM walked mem
  obtain ⟨v, value, same⟩ := Outcome.bind_eq_ok.mp made
  cases same
  exact passes_valueOf passes value

end Arguments

theorem Builtin.subject_of_mem (b : Builtin) {name : String} {f : Function}
    (mem : (name, .method f) ∈ b.members) : f.subject = .receiver := by
  have native : (name, Member.method f) ∉ b.nativeMembers := by
    simp [nativeMembers]
  unfold members at mem
  split at mem
  · simp [given, access] at mem
    rcases mem with ⟨-, rfl⟩ | ⟨-, rfl⟩ <;> rfl
  · simp [given, access, structuralParts, abstractParts] at mem
    rcases mem with ⟨-, rfl⟩ | ⟨-, rfl⟩ <;> rfl
  · dsimp only at mem
    split at mem <;> simp [native] at mem

namespace World
variable (w : World) (h : Heap)

theorem mem_of_handle {v : Value} (handle : v.isHandle) {name : String} {owner : ClassRef}
    {m : Member} (found : w.member? (w.classOf h v) name = some (owner, m)) :
    ∃ b, owner = .builtin b ∧ (name, m) ∈ b.members := by
  cases v <;> cases handle
  obtain ⟨k, line, own⟩ := List.exists_of_findSome?_eq_some found
  have builtin : ∃ b, k = .builtin b := by
    obtain ⟨b, -, same⟩ := List.mem_map.mp line
    exact ⟨b, same.symm⟩
  obtain ⟨b, rfl⟩ := builtin
  obtain ⟨m, held, same⟩ := Option.map_eq_some_iff.mp own
  cases same
  exact ⟨b, rfl, Entries.mem_of_lookup held⟩

theorem passes_of_hook {handles : Prop} {v : Value} {name : String} {m : Member}
    (hook : Run.hook? w (w.classOf h v) name = some m) : v.Passes handles := by
  intro handle
  exfalso
  unfold Run.hook? at hook
  split at hook
  · obtain ⟨b, same, -⟩ := w.mem_of_handle h handle ‹_›
    cases same
  · cases hook

theorem workedOnObject_ne (v : Value) (name : String) (m : Member) :
    w.workedOnObject h v name ≠ .onObject m := by
  unfold workedOnObject
  split <;> grind

theorem subject_of_handle {v : Value} (handle : v.isHandle) {name : String} {f : Function}
    (found : w.find h v name = .onObject (.method f)) : f.subject = .receiver := by
  have onObject : w.findOnObject h v name = .onObject (.method f) := by
    cases v <;> cases handle
    exact found
  unfold findOnObject at onObject
  split at onObject
  · cases v <;> cases handle
    cases onObject
  · cases onObject
  · exact absurd onObject (w.workedOnObject_ne h v name _)
  · exact absurd onObject (w.workedOnObject_ne h v name _)
  · cases onObject
  · rename_i has _
    cases onObject
    obtain ⟨b, -, mem⟩ := w.mem_of_handle h handle has
    exact b.subject_of_mem mem
  · cases onObject

end World

namespace Run

/-- Tasks keep the relation. If no handle can be passed on, they are only asked to pass on other
values, and then give no handle either, unless an attribute is read. -/
structure Serves (R : Store → Store → Prop) (handles : Prop) (perform : Perform) : Prop where
  component : handles → ∀ registry c, Keeps R (perform (.component registry c))
  call : ∀ v {a : Arguments}, a.Passes handles →
    Yields R (Value.Passes handles) (perform (.call v a))
  send : ∀ {v : Value} {name : String} {a : Arguments}, v.Passes handles ∨ name ≠ lookupMethod →
    a.Passes handles → Yields R (Value.Passes handles) (perform (.send v name a))
  read : ∀ v name, Keeps R (perform (.read v name))
  assign : ∀ v name {x : Value}, x.Passes handles →
    Yields R (Value.Passes handles) (perform (.assign v name x))
  remove : ∀ v name, Keeps R (perform (.remove v name))
  make : ∀ c, Yields R (Value.Passes handles) (perform (.make c))

theorem Serves.weaken {R S : Store → Store → Prop} {handles : Prop} {perform : Perform}
    (serves : Serves R handles perform) (wider : ∀ {st after}, R st after → S st after) :
    Serves S handles perform where
  component allowed registry c st := wider (serves.component allowed registry c st)
  call v _ passes := (serves.call v passes).weaken wider
  send on passes := (serves.send on passes).weaken wider
  read v name st := wider (serves.read v name st)
  assign v name _ on := (serves.assign v name on).weaken wider
  remove v name st := wider (serves.remove v name st)
  make c := (serves.make c).weaken wider

section Objects
variable {R : Store → Store → Prop} [Tolerant R]

theorem Keeps.drift {α : Type} {f : Store → α × Store} (drifts : ∀ st : Store, st.Drifts (f st).2) :
    Keeps R (MonadState.modifyGet f : Run α) := fun st => Tolerant.drift (drifts st)

theorem keeps_emit (e : Event) : Keeps R (emit e) :=
  .drift fun _ => ⟨⟨rfl, Nat.le_refl _, List.prefix_append _ _⟩, rfl, fun _ => rfl⟩

theorem keeps_allocate (o : Object) : Keeps R (allocate o) :=
  .drift fun _ => ⟨⟨rfl, by simp, List.prefix_rfl⟩, rfl, fun _ => rfl⟩

theorem keeps_modifyObject (v : Value) (f : Object → Object) : Keeps R (modifyObject v f) := by
  cases v
  case object id =>
    exact .drift fun _ => ⟨⟨rfl, by simp, List.prefix_rfl⟩, rfl, fun _ => rfl⟩
  all_goals exact .pure _

theorem keeps_changeClass (v x : Value) : Keeps R (changeClass v x) := by
  cases x
  case cls c => exact .bind .get fun st => .ite (keeps_modifyObject _ _) (.throw _)
  all_goals exact .throw _

theorem keeps_setWorked (v : Value) (kind name : String) (x : Value) :
    Keeps R (setWorked v kind name x) := by
  refine .ite (keeps_changeClass v x) (.ite ?_ (.throw _))
  split
  · exact keeps_modifyObject _ _
  · exact .throw _

theorem keeps_setOnClass (c : ClassRef) (name : String) (x : Value) :
    Keeps R (setOnClass c name x) := by
  cases c with
  | builtin b => exact .throw _
  | declared n => exact .drift fun st => st.drifts_setMember _ _ _

variable {handles : Prop}

theorem yields_make (c : ClassRef) (a : Arguments) :
    Yields R (Value.Passes handles) (make c a) := by
  have fresh (o : Object) :
      Yields R (Value.Passes handles) (do return Value.object (← allocate o)) :=
    .after (keeps_allocate o) fun _ => .pure nofun
  have plain : Yields R (Value.Passes handles) (if c = .builtin .noneType then return Value.null
      else do return Value.object (← allocate { cls := c })) := .ite (.pure nofun) (fresh _)
  have data (own : Builtin) (number : Literal) (v : Value) (new : own.newData? number = some v) :
      v.Passes handles := by
    unfold Builtin.newData? at new
    split at new <;> cases new <;> exact nofun
  refine .after .get fun st => ?_
  cases c with
  | builtin own =>
    dsimp only
    split
    · refine .ite (.after (.lift _) fun number => ?_) (.after (.pure _) fun number => ?_) <;>
      · split
        · exact .pure (data _ _ _ ‹_›)
        · exact fresh _
    · exact .ite (.throw _) (.ite (.throw _) (.ite (.throw _) plain))
  | declared n =>
    dsimp only
    split
    · exact .ite (.after (.lift _) fun _ => fresh _) (.after (.pure _) fun _ => fresh _)
    · exact .ite (.throw _) (.ite (.throw _) (.ite (.throw _) plain))

end Objects

section Code
variable {R : Store → Store → Prop} [Tolerant R] {handles : Prop} {perform : Perform}
  (serves : Serves R handles perform) {a : Arguments}
include serves

theorem keeps_act (subject : Value) {arguments : Entries Value}
    (passes : ∀ e ∈ arguments, e.2.Passes handles) (action : Action) :
    Keeps R (act perform subject arguments action) := by
  have argument (p : String) : ((arguments.lookup p).getD .null).Passes handles := by
    cases found : arguments.lookup p with
    | none => exact nofun
    | some v => exact passes _ (Entries.mem_of_lookup found)
  cases action with
  | setParameter target p =>
    exact .bind (serves.assign subject target (argument p)).keeps fun _ => .pure _
  | setValue target v =>
    exact .bind (serves.assign subject target (x := .data v) nofun).keeps fun _ => .pure _
  | delete target => exact .bind (serves.remove subject target) fun _ => .pure _
  | setLookup target p =>
    refine .following (serves.send (.inl (argument p)) Arguments.passes_empty) fun x held => ?_
    exact .bind (serves.assign subject target held).keeps fun _ => .pure _
  | fail text => exact .throw _

theorem yields_runBody (f : Function) (subject : Value) {arguments : Entries Value}
    (passes : ∀ e ∈ arguments, e.2.Passes handles) :
    Yields R (Value.Passes handles) (runBody perform f subject arguments) := by
  unfold runBody
  split
  · exact .after (keeps_emit _) fun _ =>
      .after (.forM (keeps_act serves subject passes) _) fun _ => .pure nofun
  · exact .pure nofun
  · exact .throw _
  · exact .throw _
  · refine serves.assign _ _ ?_
    cases found : arguments.lookup "lookup" with
    | none => exact nofun
    | some v => exact passes _ (Entries.mem_of_lookup found)
  · exact serves.send (.inr (by decide)) Arguments.passes_empty

omit serves in
theorem yields_bindArguments (f : Function) (passes : a.Passes handles) :
    Yields R (fun bound => ∀ e ∈ bound, e.2.Passes handles) (bindArguments f a) := by
  unfold bindArguments
  split
  · exact .pure (Arguments.passes_bind passes ‹_›)
  · exact .throw _

theorem yields_newSubject (v : Value) :
    Yields R (Value.Passes handles) (newSubject perform v) := by
  cases v
  case cls c => exact serves.make c
  all_goals exact .throw _

theorem yields_invoke (f : Function) (passes : a.Passes handles) :
    Yields R (Value.Passes handles) (invoke perform f a) := by
  unfold invoke
  split
  · exact .bind (yields_bindArguments f passes) fun _ bound => yields_runBody serves f _ bound
  · exact .throw _
  · rename_i parts
    exact .bind (yields_bindArguments f (passes.tail parts)) fun _ bound =>
      yields_runBody serves f _ bound
  · rename_i parts
    exact .bind (yields_bindArguments f (passes.tail parts)) fun _ bound =>
      .bind (yields_newSubject serves _) fun _ own =>
        .after (yields_runBody serves f _ bound).keeps fun _ => .pure own

/-- What a function is called on need not be passed on to it. -/
theorem yields_invoke_on (f : Function) {receiver : Value} (passes : a.Passes handles)
    (on : receiver.Passes handles ∨ f.subject = .receiver) :
    Yields R (Value.Passes handles)
      (invoke perform f { a with positional := receiver :: a.positional }) := by
  rcases on with first | own
  · exact yields_invoke serves f (passes.cons first)
  · unfold invoke
    rw [own]
    exact .bind (yields_bindArguments f passes) fun _ bound => yields_runBody serves f _ bound

theorem yields_callMember (c : ClassRef) {receiver : Value} {m : Member}
    (passes : a.Passes handles)
    (on : receiver.Passes handles ∨ ∀ f, m = .method f → f.subject = .receiver) :
    Yields R (Value.Passes handles) (callMember perform c receiver a m) := by
  unfold callMember
  split
  · exact yields_invoke_on serves _ passes (on.imp_right fun own => own _ rfl)
  · exact yields_invoke serves _ (passes.cons nofun)
  · exact yields_invoke serves _ passes
  · exact .after (serves.read _ _) fun v => serves.call v passes
  · exact .after .get fun _ => .throw _

theorem yields_callClassMember (c : ClassRef) (m : Member) (passes : a.Passes handles) :
    Yields R (Value.Passes handles) (callClassMember perform c a m) := by
  unfold callClassMember
  split
  · exact yields_invoke serves _ passes
  · exact yields_invoke serves _ passes
  · exact yields_invoke serves _ (passes.cons nofun)
  · exact .after .get fun _ => .throw _

theorem keeps_readFound (v : Value) (name : String) : Keeps R (readFound perform v name) := by
  refine .bind .get fun st => ?_
  split
  · exact .pure _
  · exact serves.read _ _
  · exact .pure _
  · exact .pure _
  · exact .throw _

theorem yields_hook {st : Store} {v : Value} {name : String} {m : Member}
    (hook : hook? st.world (st.classOf v) name = some m) (passes : a.Passes handles) :
    Yields R (Value.Passes handles) (callMember perform (st.classOf v) v a m) :=
  yields_callMember serves _ passes (.inl (st.world.passes_of_hook st.heap hook))

theorem keeps_readAttribute (v : Value) (name : String) :
    Keeps R (readAttribute perform v name) := by
  have asked : Arguments.Passes handles { positional := [.text name] } :=
    Arguments.passes_empty.cons nofun
  refine .bind .get fun st => ?_
  dsimp only
  split
  · exact (yields_hook serves ‹_› asked).keeps
  · refine .tryCatch (keeps_readFound serves v name) fun e => ?_
    split
    · exact (yields_hook serves ‹_› asked).keeps
    · exact .throw _
  · exact keeps_readFound serves v name

theorem keeps_readOptional (v : Value) (name : String) :
    Keeps R (readOptional perform v name) := by
  refine .tryCatch (.map _ (keeps_readAttribute serves v name)) fun e => ?_
  split
  · exact .pure _
  · exact .throw _

variable {x : Value} (passes : x.Passes handles)

include passes in
theorem keeps_setProperty (v : Value) (p : Property) : Keeps R (setProperty perform v x p) := by
  refine .bind .get fun st => .ite (.throw _) (.bind (keeps_emit _) fun _ => ?_)
  split
  · exact .throw _
  · exact .bind (serves.assign v p.store passes).keeps fun _ => .pure _

include passes in
theorem keeps_setFound (v : Value) (name : String) : Keeps R (setFound perform v name x) := by
  refine .bind .get fun st => ?_
  dsimp only
  split
  · exact keeps_setOnClass _ _ _
  · exact keeps_setProperty serves passes _ _
  · exact keeps_modifyObject _ _
  · exact keeps_setWorked _ _ _ _
  · exact .throw _
  · exact .ite (keeps_modifyObject _ _) (.ite (.throw _) (.throw _))

include passes in
theorem keeps_setAttribute (v : Value) (name : String) :
    Keeps R (setAttribute perform v name x) := by
  have given : Arguments.Passes handles { positional := [.text name, x] } :=
    (Arguments.passes_empty.cons passes).cons nofun
  refine .bind .get fun st => ?_
  dsimp only
  split
  · exact .bind (yields_hook serves ‹_› given).keeps fun _ => .pure _
  · exact keeps_setFound serves passes v name

theorem keeps_deleteFound (v : Value) (name : String) :
    Keeps R (deleteFound perform v name) := by
  refine .bind .get fun st => ?_
  dsimp only
  split
  · exact .ite (.bind (serves.remove _ _) fun _ => .pure _) (.throw _)
  · split
    · exact keeps_modifyObject _ _
    · exact .throw _
  · exact .ite (.throw _) (.ite (keeps_modifyObject _ _) (.throw _))
  · exact .throw _
  · exact .ite (keeps_modifyObject _ _) (.throw _)

theorem keeps_deleteAttribute (v : Value) (name : String) :
    Keeps R (deleteAttribute perform v name) := by
  have named : Arguments.Passes handles { positional := [.text name] } :=
    Arguments.passes_empty.cons nofun
  refine .bind .get fun st => ?_
  dsimp only
  split
  · exact .bind (yields_hook serves ‹_› named).keeps fun _ => .pure _
  · exact keeps_deleteFound serves v name

end Code

section Creation
variable {R : Store → Store → Prop} [Tolerant R] {handles : Prop} {perform : Perform}
  (serves : Serves R handles perform) {a : Arguments} (passes : a.Passes handles)
include serves passes

theorem yields_newObject (c : ClassRef) :
    Yields R (Value.Passes handles) (newObject perform c a) := by
  refine .after .get fun st => ?_
  split
  · exact yields_callClassMember serves _ _ (passes.cons nofun)
  · exact yields_make c a

theorem keeps_runInitializer (c : ClassRef) {receiver : Value} (m : Member)
    (on : receiver.Passes handles) : Keeps R (runInitializer perform c receiver a m) := by
  unfold runInitializer
  split
  · refine .bind .get fun st => ?_
    split
    · exact .pure _
    · exact .ite (.throw _) (.pure _)
    · exact .ite (.throw _) (.pure _)
  · exact .bind .get fun _ => .throw _
  · refine .bind (yields_callMember serves _ passes (.inl on)).keeps fun result => ?_
    split
    · exact .pure _
    · exact .bind .get fun _ => .throw _

theorem keeps_setUp (c : ClassRef) {receiver : Value} (on : receiver.Passes handles) :
    Keeps R (setUp perform c receiver a) := by
  intro st
  rw [setUp, exec_bind, exec_get]
  have initialises (m : Member) (now : Store) :
      R now (exec (runInitializer perform c receiver a m) now).2 :=
    keeps_runInitializer serves passes c m on now
  refine iteInduction (motive := fun x => R st (exec x st).2) (fun _ => initialises _ st) fun _ =>
    iteInduction (motive := fun x => R st (exec x st).2) (fun _ => refl_of R st) fun _ => ?_
  rw [exec_bind, exec_modify]
  exact trans_of R (Tolerant.drift (st.drifts_setMember _ _ _)) (initialises _ _)

theorem yields_instantiate (c : ClassRef) :
    Yields R (Value.Passes handles) (instantiate perform c a) := by
  refine .bind (yields_newObject serves passes c) fun v on => .after .get fun st => ?_
  dsimp only
  split
  · exact .after (keeps_setUp serves passes _ on) fun _ => .pure on
  · exact .pure on

theorem yields_callForm (h : Hint) : Yields R (Value.Passes handles) (callForm perform h a) := by
  have keep (v : Value) (on : v.Passes handles) (forgiving : Error → Bool) :
      Yields R (Value.Passes handles) (do
        let _ ← tryCatch (perform (.assign v formAttribute (.form h))) fun e =>
          if forgiving e then return .null else throw e
        return v) :=
    .after (.tryCatch (serves.assign v formAttribute (x := .form h) nofun).keeps fun _ =>
      .ite (.pure _) (.throw _)) fun _ => .pure on
  unfold callForm
  dsimp only
  split
  · exact .bind (yields_instantiate serves passes _) fun _ on => keep _ on _
  · exact .bind (yields_instantiate serves passes _) fun _ on => keep _ on _
  · exact .ite (.throw _) (.bind (yields_instantiate serves passes _) fun _ on => keep _ on _)
  · exact .bind (yields_instantiate serves passes _) fun _ on => keep _ on _
  · exact .bind (serves.call _ passes) fun _ on => keep _ on _
  · exact .throw _

theorem yields_callValue (v : Value) :
    Yields R (Value.Passes handles) (callValue perform v a) := by
  refine .after .get fun st => ?_
  dsimp only
  split
  · exact yields_instantiate serves passes _
  · exact yields_callForm serves passes _
  · split
    · exact yields_hook serves ‹_› passes
    · exact .throw _

theorem yields_sendFound (v : Value) (name : String) :
    Yields R (Value.Passes handles) (sendFound perform v name a) := by
  refine .after .get fun st => ?_
  dsimp only
  split
  · rename_i found
    refine yields_callMember serves _ passes ?_
    by_cases handle : v.isHandle
    · refine .inr fun f same => ?_
      cases same
      exact st.world.subject_of_handle st.heap handle found
    · exact .inl fun on => absurd on handle
  · exact yields_callMember serves _ passes (.inr nofun)
  · exact yields_callMember serves _ passes (.inr nofun)
  · exact yields_callClassMember serves _ _ passes
  · exact .after (keeps_readAttribute serves _ _) fun _ => yields_callValue serves passes _

omit passes in
theorem yields_lookUp (allowed : handles) (q : Request) (registry : String) :
    Yields R (Value.Passes handles) (lookUp perform q registry) := by
  refine .after (.resolve _ _) fun result => ?_
  cases result with
  | value c => exact (serves.component allowed _ _).yields fun _ _ => allowed
  | failure f => exact .throw _
  | values cs => exact .throw _
  | empty => exact .throw _

theorem yields_callAttribute {v : Value} {name : String}
    (on : v.Passes handles ∨ name ≠ lookupMethod) :
    Yields R (Value.Passes handles) (callAttribute perform v name a) := by
  have found := yields_sendFound serves passes
  cases v
  case factory q registry =>
    unfold callAttribute
    dsimp only
    split
    · rename_i use
      have own : name = lookupMethod := by simpa using (Bool.and_eq_true_iff.mp use).1
      rcases on with on | other
      · exact yields_lookUp serves (on rfl) q registry
      · exact absurd own other
    · exact found _ _
  all_goals exact found _ _

end Creation

end Run
end Wiring
