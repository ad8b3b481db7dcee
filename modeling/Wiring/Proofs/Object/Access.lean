import Wiring.Proofs.Run
import Wiring.Proofs.Object.Seat

/-! What reading, setting and deleting an attribute do to an object of a class that leaves it to the
system. All of it happens in the seat to which the attribute leads. -/
namespace Wiring

/-- The class has no methods of its own for reading, setting and deleting attributes, and no member
in place of the attributes that its objects carry. -/
structure World.Regular (w : World) (c : ClassRef) : Prop where
  read : Run.hook? w c readMethod = none
  substitute : Run.hook? w c World.substituteMethod = none
  assign : Run.hook? w c assignMethod = none
  remove : Run.hook? w c removeMethod = none
  dict : (w.member? c "__dict__").map (·.2) =
    if w.givesAttributes c then some (.native .computed) else none

structure Store.Holds (st : Store) (id : Nat) (c : ClassRef) (o : Object) : Prop where
  object : st.heap[id]? = some o
  cls : o.cls = c
  regular : st.world.Regular c
  bare : st.world.givesAttributes c = false → o.attributes = []

namespace Store

variable {st : Store} {id : Nat} {c : ClassRef} {o : Object}

@[simp] theorem Holds.classOf (holds : st.Holds id c o) : st.classOf (.object id) = c := by
  simp [Store.classOf, World.classOf, holds.object, holds.cls]

theorem Holds.events (holds : st.Holds id c o) (events : List Event) :
    Holds { st with events } id c o := ⟨holds.object, holds.cls, holds.regular, holds.bare⟩

theorem Holds.put {limit : Nat} {name : String} {r : Route} (holds : st.Holds id c o)
    (leads : st.world.Leads c limit name r) (x : Value) (events : List Event) :
    Holds { st with heap := st.heap.modify id (·.put x r.seat), events } id c (o.put x r.seat) where
  object := by simp [holds.object]
  cls := by simp [holds.cls]
  regular := holds.regular
  bare free := by
    cases seat : r.seat with
    | own kept =>
      have gives := (leads.plain_of_own seat).2
      rw [gives] at free
      cases free
    | place owner name => exact holds.bare free

theorem Holds.clear (holds : st.Holds id c o) (seat : Seat) (events : List Event) :
    Holds { st with heap := st.heap.modify id (·.clear seat), events } id c (o.clear seat) where
  object := by simp [holds.object]
  cls := by simp [holds.cls]
  regular := holds.regular
  bare free := by
    have empty := holds.bare free
    cases seat with
    | own name => simp [Object.clear, empty, Entries.erase]
    | place owner name => exact empty

end Store

namespace Run

variable {st : Store} {id : Nat} {c : ClassRef} {o : Object} {limit : Nat} {name : String}
  {r : Route}

/-- Tasks are performed to the given depth, whatever has been recorded. -/
def Deep (perform : Perform) (limit : Nat) (st : Store) : Prop :=
  ∀ task events, ∃ n, limit ≤ n ∧
    exec (perform task) { st with events } = exec (performWithin n task) { st with events }

theorem deep_performWithin {n : Nat} (le : limit ≤ n) (st : Store) :
    Deep (performWithin n) limit st := fun _ _ => ⟨n, le, rfl⟩

theorem deep_perform (le : limit ≤ st.depth) : Deep perform limit st :=
  fun task events => ⟨st.depth, le, by rw [perform, exec_bind]; rfl⟩

theorem Deep.descend {perform : Perform} (deep : Deep perform (limit + 1) st) (task : Task)
    (events : List Event) : ∃ n, limit ≤ n ∧ exec (perform task) { st with events } =
      exec (performWithin (n + 1) task) { st with events } := by
  obtain ⟨n, enough, performed⟩ := deep task events
  obtain ⟨m, rfl⟩ : ∃ m, n = m + 1 := ⟨n - 1, by omega⟩
  exact ⟨m, by omega, performed⟩

theorem exec_setFound_place {perform : Perform} (holds : st.Holds id c o) {owner : ClassRef}
    (slot : st.world.member? c name = some (owner, .slot)) (x : Value) :
    exec (setFound perform (.object id) name x) st =
      (.ok (), { st with heap := st.heap.modify id (·.put x (.place owner name)) }) := by
  unfold setFound
  rw [exec_bind]
  simp only [exec_get, holds.classOf, slot]
  rfl

theorem exec_setFound_own {perform : Perform} (cls : st.classOf (.object id) = c)
    (plain : st.world.Plain c name) (gives : st.world.givesAttributes c = true) (x : Value) :
    exec (setFound perform (.object id) name x) st =
      (.ok (), { st with heap := st.heap.modify id (·.put x (.own name)) }) := by
  unfold setFound
  rw [exec_bind]
  simp only [exec_get, cls]
  split
  · contradiction
  · rename_i member _
    cases plain _ member
  · rename_i member _
    cases plain _ member
  · rename_i member _
    cases plain _ member
  · rename_i member _
    cases plain _ member
  · rw [if_pos gives]
    rfl

theorem exec_setFound_property {perform : Perform} (holds : st.Holds id c o) {owner : ClassRef}
    {p : Property} (member : st.world.member? c name = some (owner, .property p)) (x : Value) :
    exec (setFound perform (.object id) name x) st =
      exec (setProperty perform (.object id) x p) st := by
  unfold setFound
  rw [exec_bind]
  simp only [exec_get, holds.classOf, member]

theorem exec_setAttribute_eq {perform : Perform} (holds : st.Holds id c o) (x : Value) :
    exec (setAttribute perform (.object id) name x) st =
      exec (setFound perform (.object id) name x) st := by
  unfold setAttribute
  rw [exec_bind]
  simp only [exec_get, holds.classOf, holds.regular.assign]

theorem exec_setProperty {perform : Perform} {p : Property}
    (passes : p.readOnly = false ∧ p.rejection = none) (v x : Value) :
    exec (setProperty perform v x p) st =
      match exec (perform (.assign v p.store x))
        { st with events := st.events ++ [.assigned v p.name x] } with
      | (.ok _, after) => (.ok (), after)
      | (.error e, after) => (.error e, after) := by
  obtain ⟨writable, accepts⟩ := passes
  unfold setProperty
  rw [exec_bind]
  simp only [exec_get, writable, Bool.false_eq_true, if_false]
  rw [exec_bind]
  simp only [exec_emit, accepts]
  rw [exec_bind]
  rcases exec (perform (.assign v p.store x)) _ with ⟨_ | _, after⟩ <;> rfl

theorem exec_setProperty_rejects {perform : Perform} {p : Property}
    (rejects : ¬ (p.readOnly = false ∧ p.rejection = none)) (v x : Value) :
    ∃ e events, exec (setProperty perform v x p) st = (.error e, { st with events }) := by
  unfold setProperty
  rw [exec_bind]
  simp only [exec_get]
  by_cases readOnly : p.readOnly
  · rw [if_pos readOnly]
    exact ⟨_, st.events, rfl⟩
  · rw [if_neg readOnly, exec_bind]
    simp only [exec_emit]
    cases rejection : p.rejection with
    | some text => exact ⟨_, _, rfl⟩
    | none => exact absurd ⟨by simpa using readOnly, rejection⟩ rejects

/-- Setting an attribute fills its seat, if every property on the route lets values through;
otherwise nothing but the record of events changes. -/
theorem exec_setAttribute {perform : Perform} (leads : st.world.Leads c limit name r)
    (holds : st.Holds id c o) (deep : Deep perform limit st) (x : Value) :
    (r.Settable → ∃ events, exec (setAttribute perform (.object id) name x) st =
      (.ok (), { st with heap := st.heap.modify id (·.put x r.seat), events })) ∧
    (¬ r.Settable → ∃ e events, exec (setAttribute perform (.object id) name x) st =
      (.error e, { st with events })) := by
  -- Setting a property is recorded, so the store changes on the way and only its world stays.
  generalize world : st.world = w at leads
  induction leads generalizing st perform with
  | place slot =>
    subst world
    rw [exec_setAttribute_eq holds, exec_setFound_place holds slot]
    exact ⟨fun _ => ⟨st.events, rfl⟩, fun rejects => absurd (fun _ mem => by contradiction) rejects⟩
  | own plain gives =>
    subst world
    rw [exec_setAttribute_eq holds, exec_setFound_own holds.classOf plain gives]
    exact ⟨fun _ => ⟨st.events, rfl⟩, fun rejects => absurd (fun _ mem => by contradiction) rejects⟩
  | @property limit name owner p r member leads ih =>
    subst world
    rw [exec_setAttribute_eq holds, exec_setFound_property holds member]
    have settable : (r.behind p).Settable ↔
        (p.readOnly = false ∧ p.rejection = none) ∧ r.Settable := List.forall_mem_cons
    rw [settable]
    by_cases passes : p.readOnly = false ∧ p.rejection = none
    · obtain ⟨n, enough, performed⟩ := deep.descend (.assign (.object id) p.store x)
        (st.events ++ [.assigned (.object id) p.name x])
      have inner := ih (holds.events (st.events ++ [.assigned (.object id) p.name x]))
        (deep_performWithin enough _) rfl
      rw [exec_setProperty passes, performed]
      simp only [performWithin, exec_bind]
      constructor
      · intro further
        obtain ⟨events, set⟩ := inner.1 further.2
        exact ⟨events, by rw [set]; rfl⟩
      · intro rejects
        obtain ⟨e, events, failed⟩ := inner.2 fun further => rejects ⟨passes, further⟩
        exact ⟨e, events, by rw [failed]⟩
    · exact ⟨fun all => absurd all.1 passes, fun _ => exec_setProperty_rejects passes _ x⟩

theorem exec_deleteAttribute_eq {perform : Perform} (holds : st.Holds id c o) :
    exec (deleteAttribute perform (.object id) name) st =
      exec (deleteFound perform (.object id) name) st := by
  unfold deleteAttribute
  rw [exec_bind]
  simp only [exec_get, holds.classOf, holds.regular.remove]

theorem exec_deleteFound_place {perform : Perform} (holds : st.Holds id c o) {owner : ClassRef}
    (slot : st.world.member? c name = some (owner, .slot)) {x : Value}
    (filled : o.content (.place owner name) = some x) :
    exec (deleteFound perform (.object id) name) st =
      (.ok (), { st with heap := st.heap.modify id (·.clear (.place owner name)) }) := by
  have placed : World.placed st.heap (.object id) owner name = .value x := by
    have found : o.places.lookup (owner, name) = some x := filled
    simp [World.placed, holds.object, found]
  unfold deleteFound
  rw [exec_bind]
  simp only [exec_get, holds.classOf, slot, placed]
  rfl

theorem exec_deleteFound_own {perform : Perform} (holds : st.Holds id c o)
    (plain : st.world.Plain c name) {x : Value} (filled : o.content (.own name) = some x) :
    exec (deleteFound perform (.object id) name) st =
      (.ok (), { st with heap := st.heap.modify id (·.clear (.own name)) }) := by
  have carried : ((World.ownAttributes st.heap (.object id)).lookup name).isSome := by
    have found : o.attributes.lookup name = some x := filled
    simp [World.ownAttributes, holds.object, found]
  unfold deleteFound
  rw [exec_bind]
  simp only [exec_get, holds.classOf]
  split
  · rename_i member
    cases plain _ member
  · rename_i member
    cases plain _ member
  · rename_i member
    cases plain _ member
  · rename_i member
    cases plain _ member
  · rw [if_pos carried]
    rfl

/-- Deleting an attribute that has a value empties its seat, if every property on the route can be
deleted; otherwise nothing changes. -/
theorem exec_deleteAttribute {perform : Perform} (leads : st.world.Leads c limit name r)
    (holds : st.Holds id c o) (deep : Deep perform limit st) {x : Value}
    (filled : o.content r.seat = some x) :
    (r.Deletable → exec (deleteAttribute perform (.object id) name) st =
      (.ok (), { st with heap := st.heap.modify id (·.clear r.seat) })) ∧
    (¬ r.Deletable → ∃ fault, exec (deleteAttribute perform (.object id) name) st =
      (.error (.badAttribute fault), st)) := by
  induction leads generalizing perform with
  | place slot =>
    rw [exec_deleteAttribute_eq holds, exec_deleteFound_place holds slot filled]
    exact ⟨fun _ => rfl, fun keeps => absurd (fun _ mem => by contradiction) keeps⟩
  | own plain gives =>
    rw [exec_deleteAttribute_eq holds, exec_deleteFound_own holds plain filled]
    exact ⟨fun _ => rfl, fun keeps => absurd (fun _ mem => by contradiction) keeps⟩
  | @property limit name owner p r member leads ih =>
    rw [exec_deleteAttribute_eq holds]
    unfold deleteFound
    rw [exec_bind]
    simp only [exec_get, holds.classOf, member]
    have deletable : (r.behind p).Deletable ↔ p.deletable = true ∧ r.Deletable :=
      List.forall_mem_cons
    rw [deletable]
    by_cases removes : p.deletable
    · obtain ⟨n, enough, performed⟩ := deep.descend (.remove (.object id) p.store) st.events
      have inner := ih (deep_performWithin enough _) filled
      rw [if_pos removes, exec_bind, performed]
      simp only [performWithin, exec_bind]
      constructor
      · intro passes
        rw [inner.1 passes.2]
        rfl
      · intro keeps
        obtain ⟨fault, failed⟩ := inner.2 fun passes => keeps ⟨removes, passes⟩
        exact ⟨fault, by rw [failed]⟩
    · rw [if_neg removes]
      refine ⟨fun passes => absurd passes.1 removes, fun _ => ⟨_, rfl⟩⟩

theorem exec_readAttribute_eq {perform : Perform} (holds : st.Holds id c o) (name : String) :
    exec (readAttribute perform (.object id) name) st =
      exec (readFound perform (.object id) name) st := by
  unfold readAttribute
  rw [exec_bind]
  simp only [exec_get, holds.classOf, holds.regular.read, holds.regular.substitute]

theorem exec_readFound {perform : Perform} (holds : st.Holds id c o) (name : String) :
    exec (readFound perform (.object id) name) st =
      match st.world.findOnObject st.heap (.object id) name with
      | .value x => (.ok x, st)
      | .onObject (.property p) => exec (perform (.read (.object id) p.store)) st
      | .onObject m => (.ok m.onObject, st)
      | .onClass _ m => (.ok m.onClass, st)
      | .missing => (.error (.badAttribute (.missing (st.world.name c) name)), st) := by
  unfold readFound
  rw [exec_bind]
  simp only [exec_get, holds.classOf, World.find]
  cases found : st.world.findOnObject st.heap (.object id) name with
  | value x => rfl
  | onObject m => cases m <;> rfl
  | onClass k m => rfl
  | missing => rfl

theorem placed_eq (holds : st.Holds id c o) (owner : ClassRef) (name : String) :
    World.placed st.heap (.object id) owner name =
      match o.content (.place owner name) with
      | some x => .value x
      | none => .missing := by
  cases held : o.places.lookup (owner, name) with
  | none => simp [World.placed, holds.object, Object.content, held]
  | some x => simp [World.placed, holds.object, Object.content, held]

theorem ownAttributes_eq (holds : st.Holds id c o) :
    World.ownAttributes st.heap (.object id) = o.attributes := by
  simp [World.ownAttributes, holds.object]

theorem worldClassOf_eq (holds : st.Holds id c o) :
    st.world.classOf st.heap (.object id) = c := holds.classOf

theorem findOnObject_place (holds : st.Holds id c o) {owner : ClassRef}
    (slot : st.world.member? c name = some (owner, .slot)) :
    st.world.findOnObject st.heap (.object id) name =
      match o.content (.place owner name) with
      | some x => .value x
      | none => .missing := by
  unfold World.findOnObject
  rw [worldClassOf_eq holds, slot]
  exact placed_eq holds owner name

theorem findOnObject_property (holds : st.Holds id c o) {owner : ClassRef} {p : Property}
    (member : st.world.member? c name = some (owner, .property p)) :
    st.world.findOnObject st.heap (.object id) name = .onObject (.property p) := by
  unfold World.findOnObject
  rw [worldClassOf_eq holds, member]

theorem findOnObject_own (holds : st.Holds id c o) (plain : st.world.Plain c name) :
    st.world.findOnObject st.heap (.object id) name =
      match o.content (.own name), st.world.member? c name with
      | some x, _ => .value x
      | none, some (_, m) => .onObject m
      | none, none => .missing := by
  unfold World.findOnObject
  rw [worldClassOf_eq holds, ownAttributes_eq holds]
  split
  · rename_i member
    cases plain _ member
  · rename_i member
    cases plain _ member
  · rename_i member
    cases plain _ member
  · rename_i member
    cases plain _ member
  · rename_i x filled _ _ _ _
    rw [show o.content (.own name) = some x from filled]
  · rename_i member empty
    rw [show o.content (.own name) = none from empty, member]
  · rename_i member empty
    rw [show o.content (.own name) = none from empty, member]

theorem exec_readAttribute {perform : Perform} (leads : st.world.Leads c limit name r)
    (holds : st.Holds id c o) (deep : Deep perform limit st)
    (bare : st.world.givesAttributes c = false) :
    (∀ x, o.content r.seat = some x →
      exec (readAttribute perform (.object id) name) st = (.ok x, st)) ∧
    (o.content r.seat = none → ∃ fault,
      exec (readAttribute perform (.object id) name) st = (.error (.badAttribute fault), st)) := by
  induction leads generalizing perform with
  | @place _ name owner slot =>
    rw [exec_readAttribute_eq holds, exec_readFound holds, findOnObject_place holds slot]
    constructor
    · intro x filled
      rw [filled]
    · intro empty
      rw [empty]
      exact ⟨_, rfl⟩
  | own plain gives =>
    rw [bare] at gives
    cases gives
  | @property limit name owner p r member leads ih =>
    rw [exec_readAttribute_eq holds, exec_readFound holds, findOnObject_property holds member]
    obtain ⟨n, enough, performed⟩ := deep.descend (.read (.object id) p.store) st.events
    have inner := ih (deep_performWithin enough _)
    dsimp only
    rw [show exec (perform (.read (.object id) p.store)) st = _ from performed]
    exact inner

theorem findOnObject_dict (holds : st.Holds id c o) :
    st.world.findOnObject st.heap (.object id) "__dict__" =
      if st.world.givesAttributes c then .value (.dict o.attributes) else .missing := by
  have dict := holds.regular.dict
  unfold World.findOnObject
  rw [worldClassOf_eq holds, ownAttributes_eq holds]
  by_cases gives : st.world.givesAttributes c
  · rw [if_pos gives] at dict ⊢
    obtain ⟨⟨owner, m⟩, member, computed⟩ := Option.map_eq_some_iff.mp dict
    cases computed
    rw [member]
    simp [World.workedOnObject, worldClassOf_eq holds, ownAttributes_eq holds, gives]
  · rw [if_neg gives] at dict ⊢
    have member := Option.map_eq_none_iff.mp dict
    rw [member, holds.bare (by simpa using gives)]
    rfl

theorem exec_readOptional_dict {perform : Perform} (holds : st.Holds id c o) :
    exec (readOptional perform (.object id) "__dict__") st =
      (.ok (if st.world.givesAttributes c then some (.dict o.attributes) else none), st) := by
  unfold readOptional
  rw [exec_tryCatch, map_eq_pure_bind, exec_bind, exec_readAttribute_eq holds,
    exec_readFound holds, findOnObject_dict holds]
  by_cases gives : st.world.givesAttributes c
  · rw [if_pos gives, if_pos gives]
    rfl
  · rw [if_neg gives, if_neg gives]
    rfl

theorem answersMissing_eq_false (holds : st.Holds id c o) :
    st.world.answersMissing c = false := by
  have substitute := holds.regular.substitute
  unfold hook? at substitute
  unfold World.answersMissing
  split
  · rename_i member
    rw [member] at substitute
    cases substitute
  · rfl

theorem readThrough_missing (holds : st.Holds id c o) (most : Nat)
    (missing : st.world.findOnObject st.heap (.object id) name = .missing) :
    (st.world.readThrough st.heap (.object id) most name).toOption = none := by
  unfold World.readThrough World.find
  dsimp only
  rw [missing]
  simp [worldClassOf_eq holds, answersMissing_eq_false holds, Except.toOption]

theorem readThrough_value (most : Nat) {x : Value}
    (found : st.world.findOnObject st.heap (.object id) name = .value x) :
    (st.world.readThrough st.heap (.object id) most name).toOption = some x := by
  unfold World.readThrough World.find
  dsimp only
  rw [found]
  rfl

theorem readThrough_eq (leads : st.world.Leads c limit name r) (holds : st.Holds id c o)
    {most : Nat} (enough : r.properties.length ≤ most) :
    (st.world.readThrough st.heap (.object id) most name).toOption = r.reading o := by
  induction leads generalizing most with
  | @place _ name owner slot =>
    have found := findOnObject_place holds slot
    cases held : o.content (.place owner name) with
    | some x =>
      rw [held] at found
      rw [readThrough_value most found, Route.reading, held]
      rfl
    | none =>
      rw [held] at found
      rw [readThrough_missing holds most found, Route.reading, held]
      rfl
  | @own _ name plain gives =>
    have found := findOnObject_own holds plain
    cases held : o.content (.own name) with
    | some x =>
      rw [held] at found
      rw [readThrough_value most found, Route.reading, held]
      rfl
    | none =>
      rw [held] at found
      cases member : st.world.member? c name with
      | none =>
        rw [member] at found
        rw [readThrough_missing holds most found, Route.reading, held]
        rfl
      | some entry =>
        obtain ⟨owner, m⟩ := entry
        rw [member] at found
        rw [Route.reading, held]
        unfold World.readThrough World.find
        dsimp only
        rw [found]
        cases m with
        | property p => cases plain _ member
        | _ => rfl
  | @property limit name owner p r member leads ih =>
    obtain ⟨less, rfl⟩ : ∃ less, most = less + 1 := by
      simp only [Route.behind, List.length_cons] at enough
      exact ⟨most - 1, by omega⟩
    have shorter : r.properties.length ≤ less := by
      simpa [Route.behind] using enough
    unfold World.readThrough World.find
    dsimp only
    rw [findOnObject_property holds member]
    exact ih shorter

theorem exec_readAttribute_snd {perform : Perform} (holds : st.Holds id c o) (name : String)
    (deep : Deep perform 0 st) : (exec (readAttribute perform (.object id) name) st).2 = st := by
  have step {perform : Perform} {name : String}
      (further : ∀ kept, (exec (perform (.read (.object id) kept)) st).2 = st) :
      (exec (readAttribute perform (.object id) name) st).2 = st := by
    rw [exec_readAttribute_eq holds, exec_readFound holds]
    split
    · rfl
    · exact further _
    · rfl
    · rfl
    · rfl
  have within (n : Nat) : ∀ kept, (exec (performWithin n (.read (.object id) kept)) st).2 = st := by
    induction n with
    | zero => exact fun _ => rfl
    | succ n ih => exact fun kept => step ih
  refine step fun kept => ?_
  obtain ⟨n, _, performed⟩ := deep (.read (.object id) kept) st.events
  rw [show exec (perform (.read (.object id) kept)) st = _ from performed]
  exact within n kept

/-- The objects and the classes are the same. -/
def SameObjects (st after : Store) : Prop := after.heap = st.heap ∧ after.world = st.world

theorem exec_changeClass_error {v x : Value} {e : Error} {after : Store}
    (failed : exec (changeClass v x) st = (.error e, after)) : SameObjects st after := by
  unfold changeClass at failed
  split at failed
  · rw [exec_bind] at failed
    simp only [exec_get] at failed
    split at failed
    · exact absurd failed exec_modifyObject_ne_error
    · cases failed
      exact ⟨rfl, rfl⟩
  · cases failed
    exact ⟨rfl, rfl⟩

theorem exec_setWorked_error {v x : Value} {kind : String} {e : Error} {after : Store}
    (failed : exec (setWorked v kind name x) st = (.error e, after)) : SameObjects st after := by
  unfold setWorked at failed
  split at failed
  · exact exec_changeClass_error failed
  · split at failed
    · split at failed
      · exact absurd failed exec_modifyObject_ne_error
      · cases failed
        exact ⟨rfl, rfl⟩
    · cases failed
      exact ⟨rfl, rfl⟩

theorem exec_setProperty_error {perform : Perform} {v x : Value} {p : Property} {e : Error}
    {after : Store} (further : ∀ events e after,
      exec (perform (.assign v p.store x)) { st with events } = (.error e, after) →
        SameObjects st after)
    (failed : exec (setProperty perform v x p) st = (.error e, after)) : SameObjects st after := by
  unfold setProperty at failed
  rw [exec_bind] at failed
  simp only [exec_get] at failed
  split at failed
  · cases failed
    exact ⟨rfl, rfl⟩
  · rw [exec_bind] at failed
    simp only [exec_emit] at failed
    split at failed
    · cases failed
      exact ⟨rfl, rfl⟩
    · rw [exec_bind] at failed
      split at failed
      · cases failed
      · rename_i performed
        cases failed
        exact further _ _ _ performed

theorem exec_setFound_error {perform : Perform} {v x : Value} {e : Error} {after : Store}
    (object : ∀ k, v ≠ .cls k) (further : ∀ kept events e after,
      exec (perform (.assign v kept x)) { st with events } = (.error e, after) →
        SameObjects st after)
    (failed : exec (setFound perform v name x) st = (.error e, after)) : SameObjects st after := by
  unfold setFound at failed
  rw [exec_bind] at failed
  simp only [exec_get] at failed
  split at failed
  · exact absurd rfl (object _)
  · exact exec_setProperty_error (further _) failed
  · exact absurd failed exec_modifyObject_ne_error
  · exact exec_setWorked_error failed
  · cases failed
    exact ⟨rfl, rfl⟩
  · split at failed
    · exact absurd failed exec_modifyObject_ne_error
    · split at failed
      · cases failed
        exact ⟨rfl, rfl⟩
      · cases failed
        exact ⟨rfl, rfl⟩

theorem exec_setAttribute_error {perform : Perform} (holds : st.Holds id c o) (x : Value)
    (deep : Deep perform 0 st) {e : Error} {after : Store}
    (failed : exec (setAttribute perform (.object id) name x) st = (.error e, after)) :
    SameObjects st after := by
  have object : ∀ k, Value.object id ≠ .cls k := fun _ same => by cases same
  have within (n : Nat) : ∀ kept events e after,
      exec (performWithin n (.assign (.object id) kept x)) { st with events } = (.error e, after) →
        SameObjects st after := by
    induction n with
    | zero =>
      intro kept events e after failed
      cases failed
      exact ⟨rfl, rfl⟩
    | succ n ih =>
      intro kept events e after failed
      simp only [performWithin, exec_bind] at failed
      split at failed
      · cases failed
      · rename_i tried
        cases failed
        rw [exec_setAttribute_eq (holds.events events)] at tried
        change SameObjects { st with events } after
        exact exec_setFound_error object ih tried
  rw [exec_setAttribute_eq holds] at failed
  refine exec_setFound_error object (fun kept events e after failed => ?_) failed
  obtain ⟨n, _, performed⟩ := deep (.assign (.object id) kept x) events
  rw [performed] at failed
  exact within n kept events e after failed

end Run
end Wiring
