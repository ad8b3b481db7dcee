import Wiring.Proofs.Object.Access

/-! What a failed injection leaves behind. Attributes assigned before the failure are put back to
what was recorded of them. An object that carries attributes of its own is asked for these alone, so
of a slot or a property nothing is recorded, and an attribute that had no value is deleted, which a
property can refuse. -/
namespace Wiring

namespace Run

variable {st : Store} {id : Nat} {c : ClassRef} {o : Object} {name : String} {r : Route}

theorem deep_of_propertyCount (st : Store) : Deep perform st.world.propertyCount st := by
  apply deep_perform
  unfold Store.depth
  dsimp only
  omega

theorem leads_of_route? (route : st.world.route? c name = some r) :
    st.world.Leads c st.world.propertyCount name r :=
  World.leads_of_routeWithin? route

def recorded (w : World) (c : ClassRef) (o : Object) (name : String) : Option Value :=
  (w.route? c name).bind fun r => o.content (if w.givesAttributes c then .own name else r.seat)

theorem exec_previous (holds : st.Holds id c o) (route : st.world.route? c name = some r) :
    exec (previous perform (.object id) name) st = (.ok (recorded st.world c o name), st) := by
  unfold previous recorded
  rw [exec_bind, exec_readOptional_dict holds, route, Option.bind_some]
  by_cases gives : st.world.givesAttributes c
  · rw [if_pos gives, if_pos gives]
    rfl
  · have bare : st.world.givesAttributes c = false := by simpa using gives
    have read := exec_readAttribute (leads_of_route? route) holds (deep_of_propertyCount st) bare
    rw [if_neg gives, if_neg gives]
    dsimp only
    unfold readOptional
    rw [exec_tryCatch, map_eq_pure_bind, exec_bind]
    cases held : o.content r.seat with
    | some x =>
      rw [read.1 x held]
      rfl
    | none =>
      obtain ⟨fault, missing⟩ := read.2 held
      rw [missing]
      rfl

theorem exec_takeStep_assign (holds : st.Holds id c o) (route : st.world.route? c name = some r)
    (x : Value) :
    (r.Settable → ∃ events, exec (takeStep perform (.object id) (.assign name x)) st =
      (.ok [(name, recorded st.world c o name)],
        { st with heap := st.heap.modify id (·.put x r.seat), events })) ∧
    (¬ r.Settable → ∃ e events, exec (takeStep perform (.object id) (.assign name x)) st =
      (.error e, { st with events })) := by
  have set := exec_setAttribute (leads_of_route? route) holds (deep_of_propertyCount st) x
  unfold takeStep
  rw [exec_bind, exec_previous holds route]
  dsimp only
  rw [exec_bind]
  constructor
  · intro settable
    obtain ⟨events, done⟩ := set.1 settable
    exact ⟨events, by rw [done]; rfl⟩
  · intro rejects
    obtain ⟨e, events, failed⟩ := set.2 rejects
    exact ⟨e, events, by rw [failed]⟩

theorem exec_readOptional_snd (holds : st.Holds id c o) (name : String) :
    (exec (readOptional perform (.object id) name) st).2 = st := by
  have kept := exec_readAttribute_snd holds name (deep_perform (Nat.zero_le _))
  unfold readOptional
  rw [exec_tryCatch, map_eq_pure_bind, exec_bind]
  rcases read : exec (readAttribute perform (.object id) name) st with ⟨_ | _, after⟩
  · rw [read] at kept
    cases kept
    dsimp only
    split <;> rfl
  · rw [read] at kept
    exact kept

theorem exec_previous_snd (holds : st.Holds id c o) (name : String) :
    (exec (previous perform (.object id) name) st).2 = st := by
  unfold previous
  rw [exec_bind, exec_readOptional_dict holds]
  by_cases gives : st.world.givesAttributes c
  · rw [if_pos gives]
    rfl
  · rw [if_neg gives]
    exact exec_readOptional_snd holds name

theorem exec_takeStep_assign_error (holds : st.Holds id c o) {x : Value} {e : Error} {after : Store}
    (failed : exec (takeStep perform (.object id) (.assign name x)) st = (.error e, after)) :
    SameObjects st after := by
  have kept := exec_previous_snd holds name
  unfold takeStep at failed
  rw [exec_bind] at failed
  rcases read : exec (previous perform (.object id) name) st with ⟨_ | before, next⟩
  · rw [read] at failed kept
    cases failed
    cases kept
    exact ⟨rfl, rfl⟩
  · rw [read] at failed kept
    cases kept
    dsimp only at failed
    rw [exec_bind] at failed
    split at failed
    · cases failed
    · rename_i set
      cases failed
      exact exec_setAttribute_error holds x (deep_perform (Nat.zero_le _)) set

end Run

namespace Object

def back (o : Object) (seat : Seat) : Option Value → Object
  | some x => o.put x seat
  | none => o.clear seat

theorem content_back_self (o : Object) (seat : Seat) (before : Option Value) :
    (o.back seat before).content seat = before := by
  cases before with
  | some x => exact o.content_put_self x seat
  | none => exact o.content_clear_self seat

theorem content_back_of_ne (o : Object) (before : Option Value) {seat other : Seat}
    (ne : other ≠ seat) : (o.back seat before).content other = o.content other := by
  cases before with
  | some x => exact o.content_put_of_ne x ne
  | none => exact o.content_clear_of_ne ne

end Object

namespace World

def seat? (w : World) (c : ClassRef) (name : String) : Option Seat :=
  (w.route? c name).map (·.seat)

end World

namespace Run

variable {st : Store} {id : Nat} {c : ClassRef} {o : Object} {name : String} {r : Route}

theorem exec_restore_cons (holds : st.Holds id c o) (route : st.world.route? c name = some r)
    (settable : r.Settable) {x : Value} (filled : o.content r.seat = some x)
    (before : Option Value) (us : Undo) :
    ((before = none → r.Deletable) → ∃ next,
      exec (restore perform (.object id) ((name, before) :: us)) st =
        exec (restore perform (.object id) us) next ∧
      next.Holds id c (o.back r.seat before) ∧ next.world = st.world) ∧
    (¬ (before = none → r.Deletable) → ∃ fault,
      exec (restore perform (.object id) ((name, before) :: us)) st =
        (.error (.badAttribute fault), st)) := by
  have leads := leads_of_route? route
  have deep := deep_of_propertyCount st
  cases before with
  | some v =>
    refine ⟨fun _ => ?_, fun kept => absurd (fun missing => by cases missing) kept⟩
    obtain ⟨events, set⟩ := (exec_setAttribute leads holds deep v).1 settable
    refine ⟨_, ?_, holds.put leads v events, rfl⟩
    rw [restore, exec_bind, set]
  | none =>
    have deleted := exec_deleteAttribute leads holds deep filled
    constructor
    · intro deletable
      refine ⟨_, ?_, holds.clear r.seat st.events, rfl⟩
      rw [restore, exec_bind, deleted.1 (deletable rfl)]
    · intro kept
      obtain ⟨fault, failed⟩ := deleted.2 fun deletable => kept fun _ => deletable
      exact ⟨fault, by rw [restore, exec_bind, failed]⟩

def Undoable (w : World) (c : ClassRef) (us : Undo) : Prop :=
  ∀ u ∈ us, u.2 = none → ∀ r, w.route? c u.1 = some r → r.Deletable

/-- Attributes with seats of their own are all put back, unless one of them had no value and cannot
be deleted. -/
theorem exec_restore {us : Undo} (holds : st.Holds id c o)
    (ready : ∀ u ∈ us, ∃ r x, st.world.route? c u.1 = some r ∧ r.Settable ∧
      o.content r.seat = some x)
    (distinct : (us.map fun u => st.world.seat? c u.1).Nodup) :
    (Undoable st.world c us → ∃ after o',
      exec (restore perform (.object id) us) st = (.ok (), after) ∧
      after.Holds id c o' ∧ after.world = st.world ∧
      (∀ u ∈ us, ∀ r, st.world.route? c u.1 = some r → o'.content r.seat = u.2) ∧
      ∀ seat, some seat ∉ us.map (fun u => st.world.seat? c u.1) →
        o'.content seat = o.content seat) ∧
    (¬ Undoable st.world c us → ∃ fault after,
      exec (restore perform (.object id) us) st = (.error (.badAttribute fault), after)) := by
  -- The object changes from one attribute to the next; seats still to come keep their values.
  induction us generalizing st o with
  | nil =>
    refine ⟨fun _ => ⟨st, o, rfl, holds, rfl, fun _ mem => by contradiction, fun _ _ => rfl⟩, ?_⟩
    intro kept
    exact absurd (fun _ mem => by contradiction) kept
  | cons u us ih =>
    obtain ⟨name, before⟩ := u
    obtain ⟨r, x, route, settable, filled⟩ := ready _ List.mem_cons_self
    rw [List.map_cons, List.nodup_cons] at distinct
    obtain ⟨alone, apart⟩ := distinct
    have seat : st.world.seat? c name = some r.seat := by rw [World.seat?, route]; rfl
    have others : ∀ v ∈ us, ∀ r', st.world.route? c v.1 = some r' → r'.seat ≠ r.seat := by
      intro v mem r' route' same
      refine alone (List.mem_map.mpr ⟨v, mem, ?_⟩)
      rw [seat, World.seat?, route', ← same]
      rfl
    have head := exec_restore_cons holds route settable filled before us
    have undoable : Undoable st.world c ((name, before) :: us) ↔
        (before = none → r.Deletable) ∧ Undoable st.world c us := by
      unfold Undoable
      rw [List.forall_mem_cons]
      refine and_congr_left fun _ => ⟨fun all missing => all missing r route, ?_⟩
      intro deletable missing r' route'
      cases route.symm.trans route'
      exact deletable missing
    rw [undoable]
    by_cases first : before = none → r.Deletable
    · obtain ⟨next, restored, here, world⟩ := head.1 first
      have ready' : ∀ v ∈ us, ∃ r' x, next.world.route? c v.1 = some r' ∧ r'.Settable ∧
          (o.back r.seat before).content r'.seat = some x := by
        intro v mem
        obtain ⟨r', x', route', settable', filled'⟩ := ready v (List.mem_cons_of_mem _ mem)
        rw [world]
        refine ⟨r', x', route', settable', ?_⟩
        rw [o.content_back_of_ne before (others v mem r' route')]
        exact filled'
      have rest := ih here ready' (by rw [world]; exact apart)
      rw [world] at rest
      rw [restored]
      constructor
      · rintro ⟨_, further⟩
        obtain ⟨after, o', done, held, same, put, left⟩ := rest.1 further
        refine ⟨after, o', done, held, same, ?_, ?_⟩
        · intro v mem r' route'
          rcases List.mem_cons.mp mem with rfl | mem
          · cases route.symm.trans route'
            rw [left r.seat (by rw [← seat]; exact alone), o.content_back_self]
          · exact put v mem r' route'
        · intro other free
          rw [List.map_cons, List.mem_cons, not_or] at free
          rw [left other free.2, o.content_back_of_ne before]
          rintro rfl
          exact free.1 seat.symm
      · intro kept
        exact rest.2 fun further => kept ⟨first, further⟩
    · refine ⟨fun all => absurd all.1 first, fun _ => ?_⟩
      obtain ⟨fault, failed⟩ := head.2 first
      exact ⟨fault, st, failed⟩

/-- From one store to the other, the object stays one of its class, and the attributes stay where
they are and keep what they hold. -/
structure Untouched (id : Nat) (c : ClassRef) (names : List String) (st after : Store) : Prop where
  object : ∀ o, st.Holds id c o → ∃ o', after.Holds id c o' ∧ ∀ name ∈ names,
    o'.content (.own name) = o.content (.own name) ∧
      ∀ r, st.world.route? c name = some r → o'.content r.seat = o.content r.seat
  routes : ∀ name ∈ names, after.world.route? c name = st.world.route? c name
  carries : after.world.givesAttributes c = st.world.givesAttributes c

theorem Untouched.refl (id : Nat) (c : ClassRef) (names : List String) (st : Store) :
    Untouched id c names st st :=
  ⟨fun o holds => ⟨o, holds, fun _ _ => ⟨rfl, fun _ _ => rfl⟩⟩, fun _ _ => rfl, rfl⟩

def assigned (steps : List Planned) : List String :=
  steps.filterMap fun p =>
    match p.step with
    | .assign name _ => some name
    | .call .. => none

/-- Steps that were all taken, where no call touched the attributes. -/
inductive Applied (id : Nat) (c : ClassRef) (names : List String) :
    Store → List Planned → Store → Prop
  | nil {st : Store} : Applied id c names st [] st
  | assign {st next last : Store} {p : Planned} {ps : List Planned} {name : String} {x : Value}
      {undo : Undo} (step : p.step = .assign name x)
      (taken : exec (takeStep perform (.object id) p.step) st = (.ok undo, next))
      (rest : Applied id c names next ps last) : Applied id c names st (p :: ps) last
  | call {st next last : Store} {p : Planned} {ps : List Planned} {method : String}
      {a : Arguments} {undo : Undo} (step : p.step = .call method a)
      (taken : exec (takeStep perform (.object id) p.step) st = (.ok undo, next))
      (untouched : Untouched id c names st next) (rest : Applied id c names next ps last) :
      Applied id c names st (p :: ps) last

structure Seated (w : World) (c : ClassRef) (names : List String) : Prop where
  routed : ∀ name ∈ names, ∃ r, w.route? c name = some r
  distinct : (names.map (w.seat? c)).Nodup

/-- While steps are taken: those of the attributes that were assigned have values, and the others
are as they were in the object `o₀`. -/
structure Midway (id : Nat) (c : ClassRef) (names done : List String) (w₀ : World) (o₀ : Object)
    (st : Store) (o : Object) : Prop where
  holds : st.Holds id c o
  routes : ∀ name ∈ names, st.world.route? c name = w₀.route? c name
  carries : st.world.givesAttributes c = w₀.givesAttributes c
  filled : ∀ name ∈ done, ∃ r x, w₀.route? c name = some r ∧ r.Settable ∧
    o.content r.seat = some x
  waiting : ∀ name ∈ names, name ∉ done → o.content (.own name) = o₀.content (.own name) ∧
    ∀ r, w₀.route? c name = some r → o.content r.seat = o₀.content r.seat

variable {names done : List String} {w₀ : World} {o₀ : Object}

theorem Seated.apart (seated : Seated w₀ c names) {a b : String} {ra rb : Route}
    (first : a ∈ names) (second : b ∈ names) (ne : a ≠ b) (routeA : w₀.route? c a = some ra)
    (routeB : w₀.route? c b = some rb) : ra.seat ≠ rb.seat := by
  intro same
  refine ne (List.inj_on_of_nodup_map seated.distinct first second ?_)
  rw [World.seat?, World.seat?, routeA, routeB, Option.map_some, Option.map_some, same]

theorem Seated.ne_own (seated : Seated w₀ c names) {a b : String} {ra : Route}
    (first : a ∈ names) (second : b ∈ names) (ne : a ≠ b) (routeA : w₀.route? c a = some ra) :
    ra.seat ≠ .own b := by
  intro own
  obtain ⟨rb, routeB⟩ := seated.routed b second
  have plain := ((World.leads_of_routeWithin? routeA).plain_of_own own).1
  have seat := (World.leads_of_routeWithin? routeB).seat_of_plain plain
  exact seated.apart first second ne routeA routeB (own.trans seat.symm)

theorem Midway.untouched {after : Store} (midway : Midway id c names done w₀ o₀ st o)
    (within : ∀ name ∈ done, name ∈ names) (untouched : Untouched id c names st after) :
    ∃ o', Midway id c names done w₀ o₀ after o' := by
  obtain ⟨o', holds, same⟩ := untouched.object o midway.holds
  refine ⟨o', holds, ?_, untouched.carries.trans midway.carries, ?_, ?_⟩
  · intro name mem
    exact (untouched.routes name mem).trans (midway.routes name mem)
  · intro name mem
    obtain ⟨r, x, route, settable, filled⟩ := midway.filled name mem
    have here := within name mem
    have current := (midway.routes name here).trans route
    exact ⟨r, x, route, settable, ((same name here).2 r current).trans filled⟩
  · intro name mem free
    obtain ⟨own, kept⟩ := midway.waiting name mem free
    refine ⟨(same name mem).1.trans own, fun r route => ?_⟩
    have current := (midway.routes name mem).trans route
    exact ((same name mem).2 r current).trans (kept r route)

theorem Midway.sameObjects {after : Store} (midway : Midway id c names done w₀ o₀ st o)
    (same : SameObjects st after) : Midway id c names done w₀ o₀ after o := by
  obtain ⟨heap, world⟩ := same
  have holds := midway.holds
  refine ⟨⟨?_, holds.cls, ?_, ?_⟩, ?_, ?_, midway.filled, midway.waiting⟩
  · rw [heap]
    exact holds.object
  · rw [world]
    exact holds.regular
  · rw [world]
    exact holds.bare
  · rw [world]
    exact midway.routes
  · rw [world]
    exact midway.carries

theorem Midway.recorded_eq (midway : Midway id c names done w₀ o₀ st o) (mem : name ∈ names)
    (free : name ∉ done) : recorded st.world c o name = recorded w₀ c o₀ name := by
  obtain ⟨own, kept⟩ := midway.waiting name mem free
  unfold recorded
  rw [midway.routes name mem, midway.carries]
  cases route : w₀.route? c name with
  | none => rfl
  | some r =>
    rw [Option.bind_some, Option.bind_some]
    split
    · exact own
    · exact kept r route

theorem Midway.assign (midway : Midway id c names done w₀ o₀ st o) (seated : Seated w₀ c names)
    (within : ∀ name ∈ done, name ∈ names) (mem : name ∈ names) (free : name ∉ done) {x : Value}
    {undo : Undo} {next : Store}
    (taken : exec (takeStep perform (.object id) (.assign name x)) st = (.ok undo, next)) :
    undo = [(name, recorded w₀ c o₀ name)] ∧
      ∃ o', Midway id c names (name :: done) w₀ o₀ next o' := by
  obtain ⟨r, route⟩ := seated.routed name mem
  have current := (midway.routes name mem).trans route
  have step := exec_takeStep_assign midway.holds current x
  by_cases settable : r.Settable
  · obtain ⟨events, set⟩ := step.1 settable
    rw [taken] at set
    cases set
    rw [midway.recorded_eq mem free]
    refine ⟨rfl, o.put x r.seat, midway.holds.put (leads_of_route? current) x events,
      midway.routes, midway.carries, ?_, ?_⟩
    · intro other listed
      rcases List.mem_cons.mp listed with rfl | earlier
      · exact ⟨r, x, route, settable, o.content_put_self x r.seat⟩
      · obtain ⟨r', x', route', settable', filled⟩ := midway.filled other earlier
        have ne : other ≠ name := by
          rintro rfl
          exact free earlier
        have apart := seated.apart (within other earlier) mem ne route' route
        exact ⟨r', x', route', settable', (o.content_put_of_ne x apart).trans filled⟩
    · intro other listed left
      rw [List.mem_cons, not_or] at left
      obtain ⟨own, kept⟩ := midway.waiting other listed left.2
      have ne := Ne.symm left.1
      refine ⟨?_, fun r' route' => ?_⟩
      · have apart := seated.ne_own mem listed ne route
        exact (o.content_put_of_ne x apart.symm).trans own
      · have apart := seated.apart listed mem left.1 route' route
        exact (o.content_put_of_ne x apart).trans (kept r' route')
  · obtain ⟨e, events, failed⟩ := step.2 settable
    rw [taken] at failed
    cases failed

theorem exec_takeSteps_cons {perform : Perform} {component : String} {target : Value}
    {undo done : Undo} {p : Planned} {ps : List Planned} {next : Store}
    (taken : exec (takeStep perform target p.step) st = (.ok done, next)) :
    exec (takeSteps perform component target undo (p :: ps)) st =
      exec (takeSteps perform component target (done ++ undo) ps) next := by
  rw [takeSteps, exec_bind, exec_tryCatch, taken]

theorem exec_takeSteps_error {perform : Perform} {component : String} {target : Value}
    {undo : Undo} {p : Planned} {ps : List Planned} {next : Store} {e : Error}
    (failed : exec (takeStep perform target p.step) st = (.error e, next)) :
    exec (takeSteps perform component target undo (p :: ps)) st =
      match exec (restore perform target undo) next with
      | (.ok _, after) => (.error (.injection component p.title e), after)
      | (.error e, after) => (.error e, after) := by
  rw [takeSteps, exec_bind, exec_tryCatch, failed]
  dsimp only
  rw [exec_bind]
  rcases exec (restore perform target undo) next with ⟨_ | _, after⟩ <;> rfl

theorem exec_takeStep_call {target : Value} {method : String} {a : Arguments} {undo : Undo}
    {next : Store}
    (taken : exec (takeStep perform target (.call method a)) st = (.ok undo, next)) :
    undo = [] := by
  unfold takeStep at taken
  rw [exec_bind] at taken
  split at taken
  · cases taken
    rfl
  · cases taken

def undoOf (w₀ : World) (c : ClassRef) (o₀ : Object) (done : List String) : Undo :=
  done.map fun name => (name, recorded w₀ c o₀ name)

theorem exec_takeSteps_applied (component : String) {last : Store} {pre : List Planned}
    (rest : List Planned) (applied : Applied id c names st pre last)
    (midway : Midway id c names done w₀ o₀ st o) (seated : Seated w₀ c names)
    (parts : names = done.reverse ++ assigned pre) :
    ∃ o', Midway id c names names.reverse w₀ o₀ last o' ∧
      exec (takeSteps perform component (.object id) (undoOf w₀ c o₀ done) (pre ++ rest)) st =
        exec (takeSteps perform component (.object id) (undoOf w₀ c o₀ names.reverse) rest)
          last := by
  have earlier : ∀ name ∈ done, name ∈ names := by
    intro name mem
    rw [parts]
    exact List.mem_append_left _ (List.mem_reverse.mpr mem)
  induction applied generalizing done o with
  | nil =>
    have all : done = names.reverse := by simp [parts, assigned]
    rw [← all]
    exact ⟨o, midway, rfl⟩
  | @assign _ _ _ p ps name x undo step taken _ ih =>
    have first : assigned (p :: ps) = name :: assigned ps := by simp [assigned, step]
    rw [first] at parts
    have mem : name ∈ names := by
      rw [parts]
      exact List.mem_append_right _ List.mem_cons_self
    have new : name ∉ done := by
      intro listed
      have nodup := seated.distinct.of_map
      rw [parts, List.nodup_append] at nodup
      exact nodup.2.2 name (List.mem_reverse.mpr listed) name List.mem_cons_self rfl
    rw [List.cons_append, exec_takeSteps_cons taken]
    rw [step] at taken
    obtain ⟨rfl, o', midway'⟩ := midway.assign seated earlier mem new taken
    have parts' : names = (name :: done).reverse ++ assigned ps := by simp [parts]
    refine ih midway' parts' fun other listed => ?_
    rcases List.mem_cons.mp listed with rfl | listed
    · exact mem
    · exact earlier other listed
  | @call _ _ _ p ps method a undo step taken untouched _ ih =>
    have first : assigned (p :: ps) = assigned ps := by simp [assigned, step]
    rw [first] at parts
    rw [List.cons_append, exec_takeSteps_cons taken]
    rw [step] at taken
    rw [exec_takeStep_call taken]
    obtain ⟨o', midway'⟩ := midway.untouched earlier untouched
    exact ih midway' parts earlier

/-- An attribute whose record is what its seat held, and which can be deleted if that was
nothing. -/
def Restorable (w : World) (c : ClassRef) (o : Object) (name : String) : Prop :=
  ∃ r, w.route? c name = some r ∧
    (w.givesAttributes c → o.content (.own name) = o.content r.seat) ∧
    (o.content r.seat = none → r.Deletable)

/-- The seat of the attribute holds the same in both stores, and the attribute reads the same. -/
def AsBefore (id : Nat) (c : ClassRef) (st after : Store) (name : String) : Prop :=
  (∃ o o' r, st.heap[id]? = some o ∧ after.heap[id]? = some o' ∧
    st.world.route? c name = some r ∧ o'.content r.seat = o.content r.seat) ∧
  (after.world.readValue after.heap (.object id) name).toOption =
    (st.world.readValue st.heap (.object id) name).toOption

theorem readValue_eq (holds : st.Holds id c o) (route : st.world.route? c name = some r) :
    (st.world.readValue st.heap (.object id) name).toOption = r.reading o := by
  have leads := leads_of_route? route
  exact readThrough_eq leads holds leads.length_le

theorem asBefore_iff {after : Store} {o' : Object} (holds : st.Holds id c o)
    (held : after.Holds id c o') (route : st.world.route? c name = some r)
    (same : after.world.route? c name = st.world.route? c name) :
    AsBefore id c st after name ↔ o'.content r.seat = o.content r.seat := by
  unfold AsBefore
  rw [readValue_eq holds route, readValue_eq held (same.trans route), Route.reading, Route.reading]
  constructor
  · rintro ⟨⟨_, _, _, object, object', route', kept⟩, _⟩
    cases holds.object.symm.trans object
    cases held.object.symm.trans object'
    cases route.symm.trans route'
    exact kept
  · intro kept
    exact ⟨⟨o, o', r, holds.object, held.object, route, kept⟩, by rw [kept]⟩

theorem recorded_eq_content_iff {w : World} (route : w.route? c name = some r) :
    recorded w c o name = o.content r.seat ↔
      (w.givesAttributes c → o.content (.own name) = o.content r.seat) := by
  unfold recorded
  rw [route, Option.bind_some]
  by_cases gives : w.givesAttributes c
  · simp [gives]
  · simp [gives]

theorem restorable_iff {w : World} (route : w.route? c name = some r) :
    Restorable w c o name ↔ recorded w c o name = o.content r.seat ∧
      (recorded w c o name = none → r.Deletable) := by
  rw [recorded_eq_content_iff route]
  have right := (recorded_eq_content_iff (o := o) route).mpr
  unfold Restorable
  constructor
  · rintro ⟨r', route', agree, deletable⟩
    cases route.symm.trans route'
    exact ⟨agree, fun missing => deletable ((right agree).symm.trans missing)⟩
  · rintro ⟨agree, deletable⟩
    exact ⟨r, route, agree, fun empty => deletable ((right agree).trans empty)⟩

theorem mem_undoOf {u : String × Option Value} :
    u ∈ undoOf w₀ c o₀ names.reverse ↔ u.1 ∈ names ∧ u.2 = recorded w₀ c o₀ u.1 := by
  simp only [undoOf, List.mem_map, List.mem_reverse]
  constructor
  · rintro ⟨name, mem, rfl⟩
    exact ⟨mem, rfl⟩
  · rintro ⟨mem, record⟩
    exact ⟨u.1, mem, by rw [← record]⟩

theorem Midway.seats_undoOf (midway : Midway id c names names.reverse w₀ o₀ st o) :
    (undoOf w₀ c o₀ names.reverse).map (fun u => st.world.seat? c u.1) =
      (names.map (w₀.seat? c)).reverse := by
  rw [undoOf, List.map_map, ← List.map_reverse]
  refine List.map_congr_left fun name listed => ?_
  simp only [Function.comp_apply, World.seat?, midway.routes name (List.mem_reverse.mp listed)]

/-- Every attribute whose record says that it had no value can be deleted. -/
def Removable (w : World) (c : ClassRef) (o : Object) (names : List String) : Prop :=
  ∀ name ∈ names, ∀ r, w.route? c name = some r → recorded w c o name = none → r.Deletable

theorem Midway.undoable_iff (midway : Midway id c names names.reverse w₀ o₀ st o) :
    Undoable st.world c (undoOf w₀ c o₀ names.reverse) ↔ Removable w₀ c o₀ names := by
  constructor
  · intro all name mem r route missing
    have listed : (name, recorded w₀ c o₀ name) ∈ undoOf w₀ c o₀ names.reverse :=
      mem_undoOf.mpr ⟨mem, rfl⟩
    have current := (midway.routes name mem).trans route
    exact all _ listed missing r current
  · intro all u listed missing r current
    obtain ⟨mem, record⟩ := mem_undoOf.mp listed
    have route := (midway.routes u.1 mem).symm.trans current
    exact all u.1 mem r route (record.symm.trans missing)

/-- Where every attribute has a value that can be replaced, restoration succeeds exactly if all that
had none before can be deleted, and then each of them holds what was recorded. -/
theorem Midway.restored (midway : Midway id c names names.reverse w₀ o₀ st o)
    (seated : Seated w₀ c names) :
    (Removable w₀ c o₀ names →
      ∃ after o', exec (restore perform (.object id) (undoOf w₀ c o₀ names.reverse)) st =
          (.ok (), after) ∧ after.Holds id c o' ∧ after.world = st.world ∧
        ∀ name ∈ names, ∀ r, w₀.route? c name = some r →
          o'.content r.seat = recorded w₀ c o₀ name) ∧
    (¬ Removable w₀ c o₀ names →
      ∃ fault after, exec (restore perform (.object id) (undoOf w₀ c o₀ names.reverse)) st =
        (.error (.badAttribute fault), after)) := by
  have ready : ∀ u ∈ undoOf w₀ c o₀ names.reverse, ∃ r x, st.world.route? c u.1 = some r ∧
      r.Settable ∧ o.content r.seat = some x := by
    intro u listed
    have mem := (mem_undoOf.mp listed).1
    rw [midway.routes u.1 mem]
    exact midway.filled u.1 (List.mem_reverse.mpr mem)
  have distinct : ((undoOf w₀ c o₀ names.reverse).map fun u => st.world.seat? c u.1).Nodup := by
    rw [midway.seats_undoOf]
    exact List.nodup_reverse.mpr seated.distinct
  have outcome := exec_restore midway.holds ready distinct
  rw [← midway.undoable_iff]
  refine ⟨fun all => ?_, outcome.2⟩
  obtain ⟨after, o', restored, held, world, put, _⟩ := outcome.1 all
  refine ⟨after, o', restored, held, world, fun name mem r route => ?_⟩
  have listed : (name, recorded w₀ c o₀ name) ∈ undoOf w₀ c o₀ names.reverse :=
    mem_undoOf.mpr ⟨mem, rfl⟩
  exact put _ listed r ((midway.routes name mem).trans route)

theorem Midway.failed (midway : Midway id c names done w₀ o₀ st o)
    (within : ∀ name ∈ done, name ∈ names) {step : Step} {e : Error} {after : Store}
    (failed : exec (takeStep perform (.object id) step) st = (.error e, after))
    (left : ∀ method a, step = .call method a → Untouched id c names st after) :
    ∃ o', Midway id c names done w₀ o₀ after o' := by
  cases step with
  | assign name x =>
    exact ⟨o, midway.sameObjects (exec_takeStep_assign_error midway.holds failed)⟩
  | call method a => exact midway.untouched within (left method a rfl)

theorem exec_inject_failed {registry component : String} {m : Metadata} {explicit : Entries Value}
    {target : Value} {st₀ st₁ st₂ : Store} {planned pre post : List Planned} {bad : Planned}
    {undo : Undo} {e : Error}
    (resolved : exec (planPoints perform registry component explicit m.points) st =
      (.ok planned, st₀))
    (steps : planned ++ planExplicit m.points explicit = pre ++ bad :: post)
    (taken : exec (takeSteps perform component target [] (pre ++ bad :: post)) st₀ =
      exec (takeSteps perform component target undo (bad :: post)) st₁)
    (failed : exec (takeStep perform target bad.step) st₁ = (.error e, st₂)) :
    exec (inject perform registry component m explicit target) st =
      match exec (restore perform target undo) st₂ with
      | (.ok _, after) => (.error (.injection component bad.title e), after)
      | (.error e, after) => (.error e, after) := by
  unfold inject
  rw [exec_bind, resolved]
  dsimp only
  rw [steps, exec_bind, taken, exec_takeSteps_error failed]
  rcases exec (restore perform target undo) st₂ with ⟨_ | _, after⟩ <;> rfl

/-- An injection whose steps fail after some were taken, where no call touched the attributes
assigned before: the error is that of the failing step, and all those attributes are as before the
injection, exactly if each of them could be restored. -/
theorem inject_rollback {registry component : String} {m : Metadata} {explicit : Entries Value}
    {st₀ st₁ st₂ : Store} {planned pre post : List Planned} {bad : Planned} {e : Error}
    (holds : st.Holds id c o)
    (resolved : exec (planPoints perform registry component explicit m.points) st =
      (.ok planned, st₀))
    (steps : planned ++ planExplicit m.points explicit = pre ++ bad :: post)
    (seated : Seated st.world c (assigned pre))
    (untouched : Untouched id c (assigned pre) st st₀)
    (applied : Applied id c (assigned pre) st₀ pre st₁)
    (failed : exec (takeStep perform (.object id) bad.step) st₁ = (.error e, st₂))
    (left : ∀ method a, bad.step = .call method a → Untouched id c (assigned pre) st₁ st₂) :
    (∃ after, exec (inject perform registry component m explicit (.object id)) st =
        (.error (.injection component bad.title e), after) ∧
      ∀ name ∈ assigned pre, AsBefore id c st after name) ↔
    ∀ name ∈ assigned pre, Restorable st.world c o name := by
  have start : Midway id c (assigned pre) [] st.world o st o :=
    ⟨holds, fun _ _ => rfl, rfl, fun _ mem => by contradiction, fun _ _ _ => ⟨rfl, fun _ _ => rfl⟩⟩
  obtain ⟨o₀, midway₀⟩ := start.untouched (fun _ mem => by contradiction) untouched
  obtain ⟨o₁, midway₁, run⟩ :=
    exec_takeSteps_applied component (bad :: post) applied midway₀ seated rfl
  obtain ⟨o₂, midway₂⟩ := midway₁.failed (fun _ mem => List.mem_reverse.mp mem) failed left
  have whole := exec_inject_failed resolved steps run failed
  obtain ⟨succeeds, fails⟩ := midway₂.restored seated
  have asBefore {after : Store} {o' : Object} (held : after.Holds id c o')
      (world : after.world = st₂.world) {name : String} (mem : name ∈ assigned pre) {r : Route}
      (route : st.world.route? c name = some r) :
      AsBefore id c st after name ↔ o'.content r.seat = o.content r.seat := by
    refine asBefore_iff holds held route ?_
    rw [world]
    exact midway₂.routes name mem
  rw [whole]
  constructor
  · rintro ⟨after, thrown, back⟩ name mem
    obtain ⟨r, route⟩ := seated.routed name mem
    by_cases deletable : Removable st.world c o (assigned pre)
    · obtain ⟨after', o', restored, held, world, put⟩ := succeeds deletable
      rw [restored] at thrown
      cases thrown
      have same := (asBefore held world mem route).mp (back name mem)
      rw [put name mem r route] at same
      exact (restorable_iff route).mpr ⟨same, deletable name mem r route⟩
    · obtain ⟨fault, after', stuck⟩ := fails deletable
      rw [stuck] at thrown
      cases thrown
  · intro restorable
    have deletable : Removable st.world c o (assigned pre) :=
      fun name mem r route => ((restorable_iff route).mp (restorable name mem)).2
    obtain ⟨after, o', restored, held, world, put⟩ := succeeds deletable
    refine ⟨after, by rw [restored], fun name mem => ?_⟩
    obtain ⟨r, route⟩ := seated.routed name mem
    rw [asBefore held world mem route, put name mem r route]
    exact ((restorable_iff route).mp (restorable name mem)).1

end Run

/-! A display carries its color itself, has a place for its size, and refuses a fuse. An injection
that fails at the fuse gives the color back, but not the size. -/
namespace Panel
open Run

def base : ClassInfo where
  name := "Base"
  qualifiedName := "Base"
  bases := [.builtin .object]
  layout := { places := ["size"] }
  linearization := [.declared 0, .builtin .object]
  members := [("size", .slot)]

def panel : ClassInfo where
  name := "Panel"
  qualifiedName := "Panel"
  bases := [.declared 0]
  mainBase := .declared 0
  layout := { attributes := true }
  linearization := [.declared 1, .declared 0, .builtin .object]
  members := [("__dict__", .native .computed),
    ("fuse", .property { name := "fuse", store := "_fuse", rejection := some "broken" })]

def shop : World where
  moduleName := "shop"
  classes := [base, panel]

def display : Object where
  cls := .declared 1
  attributes := [("color", .text "red")]
  places := [((.declared 0, "size"), .data (.int 3))]

def store : Store where
  world := shop
  heap := [display]

def points : Metadata where
  target := .declared 1
  points := []

def fuse : String × Value := ("fuse", .data (.int 1))

theorem holds : store.Holds 0 (.declared 1) display where
  object := rfl
  cls := rfl
  regular := ⟨rfl, rfl, rfl, rfl, rfl⟩
  bare free := by cases free

def giving (name : String) (x : Literal) : Planned where
  title := "explicit value '" ++ name ++ "'"
  step := .assign name (.data x)

def injecting (name : String) (x : Literal) : Run Unit :=
  inject perform "main" "panel" points [(name, .data x), fuse] (.object 0)

theorem color_restored : ∃ after, exec (injecting "color" (.text "blue")) store =
      (.error (.injection "panel" "explicit value 'fuse'" (.component "broken")), after) ∧
    AsBefore 0 (.declared 1) store after "color" := by
  have resolved : exec (planPoints perform "main" "panel" [("color", .text "blue"), fuse]
      points.points) store = (.ok [], store) := rfl
  have steps : [] ++ planExplicit points.points [("color", .text "blue"), fuse] =
      [giving "color" (.text "blue")] ++ giving "fuse" (.int 1) :: [] := rfl
  have seated : Seated store.world (.declared 1) (assigned [giving "color" (.text "blue")]) :=
    ⟨fun name mem => by cases List.mem_singleton.mp mem; exact ⟨_, rfl⟩, List.nodup_singleton _⟩
  have rollback := inject_rollback holds resolved steps seated (.refl _ _ _ store)
    (.assign rfl rfl .nil) rfl fun _ _ call => by cases call
  have restorable : ∀ name ∈ ["color"], Restorable shop (.declared 1) display name := by
    intro name mem
    cases List.mem_singleton.mp mem
    exact ⟨_, rfl, fun _ => rfl, fun empty => by cases empty⟩
  obtain ⟨after, thrown, back⟩ := rollback.mpr restorable
  exact ⟨after, thrown, back "color" (List.mem_singleton.mpr rfl)⟩

theorem size_lost : ∃ after, exec (injecting "size" (.int 7)) store =
      (.error (.injection "panel" "explicit value 'fuse'" (.component "broken")), after) ∧
    (shop.readValue store.heap (.object 0) "size").toOption = some (.data (.int 3)) ∧
    (after.world.readValue after.heap (.object 0) "size").toOption = none :=
  ⟨_, rfl, rfl, rfl⟩

end Panel
end Wiring
