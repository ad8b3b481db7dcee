import Wiring.Proofs.Registry.Collection
import Wiring.Proofs.Registry.Refusal

/-! When answers stay the same. A request is answered from the entries of the registry and, where an
entry is for a type, from the class and the attributes of the object behind it. Components that are
built on first use stand behind no such entry. If an object changes its attributes, only the entries
that ask this very object can answer otherwise, and only where they declare another class than the
object has; besides, a test of the object can come to be refused. -/
namespace Wiring

namespace World
variable {w : World} {h h' : Heap} {v : Value}

/-- The value has the same class and the same attributes in both heaps. -/
structure Alike (w : World) (h h' : Heap) (v : Value) : Prop where
  cls : w.classOf h' v = w.classOf h v
  read : ∀ name, w.readValue h' v name = w.readValue h v name

theorem Alike.isInstanceOf (alike : w.Alike h h' v) (k : ClassRef) :
    w.isInstanceOf h' v k = w.isInstanceOf h v k := by
  have presents : w.presents h' k v = w.presents h k v := by
    funext name
    simp only [World.presents, alike.read]
  simp only [World.isInstanceOf, alike.cls, presents]

theorem Alike.isInstance (alike : w.Alike h h' v) (target : Hint) :
    w.isInstance h' v target = w.isInstance h v target := by
  simp only [World.isInstance, alike.cls, alike.isInstanceOf]

theorem readThrough_of_find (cls : w.classOf h' v = w.classOf h v)
    (find : ∀ name, w.find h' v name = w.find h v name) (limit : Nat) (name : String) :
    w.readThrough h' v limit name = w.readThrough h v limit name := by
  induction limit generalizing name with
  | zero =>
    unfold readThrough
    rw [find, cls]
    cases w.find h v name with
    | onObject m => cases m <;> rfl
    | _ => rfl
  | succ limit ih =>
    unfold readThrough
    rw [find, cls]
    cases w.find h v name with
    | onObject m =>
      cases m with
      | property p => exact ih p.store
      | _ => rfl
    | _ => rfl

theorem Alike.of_find (cls : w.classOf h' v = w.classOf h v)
    (find : ∀ name, w.find h' v name = w.find h v name) : w.Alike h h' v :=
  ⟨cls, readThrough_of_find cls find w.propertyCount⟩

theorem alike_modify {id : Nat} (other : v ≠ .object id) (w : World) (h : Heap)
    (f : Object → Object) : w.Alike h (h.modify id f) v := by
  cases v with
  | object i =>
    have ne : id ≠ i := by
      rintro rfl
      exact other rfl
    have kept : (h.modify id f)[i]? = h[i]? := by simp [ne]
    have cls : w.classOf (h.modify id f) (.object i) = w.classOf h (.object i) := by
      simp only [classOf, kept]
    have carried : ownAttributes (h.modify id f) (.object i) = ownAttributes h (.object i) := by
      simp only [ownAttributes, kept]
    have placed (owner : ClassRef) (name : String) :
        placed (h.modify id f) (.object i) owner name = placed h (.object i) owner name := by
      simp only [World.placed, kept]
    have worked (name : String) :
        w.workedOnObject (h.modify id f) (.object i) name =
          w.workedOnObject h (.object i) name := by
      simp only [workedOnObject, cls, carried, numberOf, kept]
    have find (name : String) :
        w.find (h.modify id f) (.object i) name = w.find h (.object i) name := by
      change w.findOnObject _ _ _ = w.findOnObject _ _ _
      unfold findOnObject
      rw [cls, carried]
      simp only [placed, worked]
    exact .of_find cls find
  | _ => exact .of_find rfl fun _ => rfl

/-- While its class stays, a value that changes its attributes can become an instance of a class, or
cease to be one, only if its class is no subclass of it. -/
theorem isInstanceOf_of_cls (cls : w.classOf h' v = w.classOf h v) (k : ClassRef) :
    w.isInstanceOf h' v k = w.isInstanceOf h v k ∨
      w.isSubclass (.cls (w.classOf h v)) (.cls k) = false := by
  unfold isInstanceOf
  rw [cls]
  by_cases own : w.classOf h v = k
  · simp [own]
  by_cases any : k = .builtin .any
  · simp [any]
  by_cases protocol : k = .builtin .protocol
  · simp [protocol]
  by_cases structural : (w.info k).structural
  · by_cases checks : w.allowsChecks k
    · by_cases fits : w.routinesOnly k && w.fits (w.classOf h v) k
      · simp [fits]
      by_cases derives : w.derives (w.classOf h v) k
      · simp [derives]
      · right
        have object : k ≠ .builtin .object := by
          rintro rfl
          cases structural
        have tested : (w.subclass? (w.classOf h v) k).toOption.getD (w.derives (w.classOf h v) k) =
            false := by
          unfold subclass?
          by_cases routines : w.routinesOnly k <;>
            simp_all [Except.toOption]
        unfold isSubclass
        split <;> simp_all
    · simp [structural, checks]
  · simp [structural]

end World

namespace Registry
variable {r after : Registry} {w : World} {h h' : Heap} {s : Settings} {required : Hint}
  {entry : Candidate × Hint}

/-- If it can be told whether the entry takes part, it is the same in both heaps, or the candidate
fits in neither. -/
def Settled (r : Registry) (w : World) (h h' : Heap) (required : Hint) (entry : Candidate × Hint) :
    Prop :=
  ∀ before after, r.takesPart w h required.raw entry = .ok before →
    r.takesPart w h' required.raw entry = .ok after →
    after = before ∨ w.assignable entry.1.declaredType required = false

theorem settled_of_asks (same : AsksComponent w required.raw entry →
    w.isInstance h' (r.componentOf entry) required.raw =
      w.isInstance h (r.componentOf entry) required.raw) :
    r.Settled w h h' required entry := by
  intro before after told told'
  unfold takesPart at told told'
  by_cases above : w.isSubclass entry.2 required.raw
  · simp_all
  by_cases below : w.isSubclass required.raw entry.2
  · rw [if_neg above, if_pos below] at told told'
    have same : Except.ok after = Except.ok before :=
      told'.symm.trans ((same ⟨above, below⟩).trans told)
    exact .inl (Except.ok.inj same)
  · simp_all

theorem Evolves.declares_class {title : String} {first last : Store} {history : List Registered}
    (evolves : Evolves title first last {} history after) :
    ∀ entry ∈ after.resolvable, ∃ c, entry.1.declaredType = .cls c := by
  induction evolves with
  | refl => simp
  | grows _ grown ih => rwa [grown.resolvable]
  | named source _ added ih =>
    obtain ⟨-, -, -, -, -, rfl⟩ := add_eq_ok added
    cases source <;> exact ih
  | forType name type cls v _ ih =>
    intro entry mem
    rcases List.mem_append.mp mem with old | new
    · exact ih entry old
    · rw [List.mem_singleton.mp new]
      exact ⟨cls, rfl⟩

/-- If what the entry declares fits the class that is required, it is the class of the component. -/
def Faithful (w : World) (h : Heap) (v : Value) (required : Hint) (entry : Candidate × Hint) :
    Prop :=
  ∀ k, required.raw = .cls k → w.assignable entry.1.declaredType required →
    entry.1.declaredType = .cls (w.classOf h v)

theorem Faithful.settled {v : Value} (faithful : Faithful w h v required entry)
    (own : r.componentOf entry = v) (declared : ∃ c, entry.1.declaredType = .cls c)
    (cls : w.classOf h' v = w.classOf h v) : r.Settled w h h' required entry := by
  by_cases single : ∃ k, required.raw = .cls k
  · obtain ⟨k, wants⟩ := single
    rcases World.isInstanceOf_of_cls cls k with same | unfit
    · apply settled_of_asks
      intro _
      rw [own, wants]
      exact same
    · refine fun _ _ _ _ => .inr ?_
      by_contra fits
      have fits : w.assignable entry.1.declaredType required := by simpa using fits
      rw [World.assignable, faithful k wants fits, wants] at fits
      exact Bool.false_ne_true (unfit.symm.trans fits)
  by_cases several : ∃ ms, required.raw = .union .bar ms
  · -- A class is no subclass of a union.
    obtain ⟨ms, wants⟩ := several
    obtain ⟨c, declared⟩ := declared
    refine fun _ _ _ _ => .inr ?_
    simp [World.assignable, declared, wants, World.isSubclass, Hint.isVar, Hint.raw, Hint.same]
  · apply settled_of_asks
    intro _
    rw [own]
    unfold World.isInstance
    split
    · exact absurd ⟨_, ‹_›⟩ single
    · rw [cls]
    · rw [cls]
    · exact absurd ⟨_, ‹_›⟩ several
    · rfl

/-- An object that changes its attributes and not its class leaves an entry settled, if the entry is
faithful where it asks this object. -/
theorem settled_modify {id : Nat} {f : Object → Object} (keeps : ∀ o, (f o).cls = o.cls)
    (declared : ∃ c, entry.1.declaredType = .cls c)
    (faithful : r.componentOf entry = .object id → AsksComponent w required.raw entry →
      Faithful w h (.object id) required entry) :
    r.Settled w h (h.modify id f) required entry := by
  by_cases own : r.componentOf entry = .object id
  · have cls : w.classOf (h.modify id f) (.object id) = w.classOf h (.object id) := by
      cases found : h[id]? <;> simp [World.classOf, found, keeps]
    by_cases asks : AsksComponent w required.raw entry
    · exact (faithful own asks).settled own declared cls
    · exact settled_of_asks fun asks' => (asks asks').elim
  · exact settled_of_asks fun _ => (World.alike_modify own w h f).isInstance _

variable {q : Request}

theorem accepted_filter (q : Request) (w : World) (mode : Mode) (cs : List Candidate) :
    q.accepted w mode (cs.filter fun c => w.assignable c.declaredType q.type) =
      q.accepted w mode cs := by
  induction cs with
  | nil => rfl
  | cons c cs ih =>
    by_cases fits : w.assignable c.declaredType q.type
    · rw [List.filter_cons_of_pos (by simpa using fits)]
      simp only [Request.accepted, ih]
    · have closed : c.declaredType.isVar = false := by
        by_contra open'
        exact fits (by simp [World.assignable, open'])
      have rejected : q.accepts w mode c = .ok false := by
        simp [Request.accepts, World.matchesHint, closed, fits, Except.mapError, Bind.bind,
          Except.bind, pure, Except.pure]
      rw [List.filter_cons_of_neg (by simpa using fits), ih, Request.accepted, rejected]
      cases q.accepted w mode cs <;> rfl

theorem participants_cons {required : Hint} {entries : List (Candidate × Hint)}
    {cs : List Candidate} :
    r.participants w h required (entry :: entries) = .ok cs ↔
      ∃ taken rest, r.takesPart w h required entry = .ok taken ∧
        r.participants w h required entries = .ok rest ∧
        (if taken then entry.1 :: rest else rest) = cs := by
  simp only [participants, Outcome.bind_eq_ok]
  refine exists_congr fun taken => ?_
  cases taken <;> simp [Outcome.map_eq_ok]

theorem participants_settled {entries : List (Candidate × Hint)} {cs cs' : List Candidate}
    (settled : ∀ entry ∈ entries, r.Settled w h h' required entry)
    (listed : r.participants w h required.raw entries = .ok cs)
    (again : r.participants w h' required.raw entries = .ok cs') :
    (cs'.filter fun c => w.assignable c.declaredType required) =
      cs.filter fun c => w.assignable c.declaredType required := by
  induction entries generalizing cs cs' with
  | nil =>
    cases listed
    cases again
    rfl
  | cons entry entries ih =>
    obtain ⟨here, later⟩ := List.forall_mem_cons.mp settled
    obtain ⟨before, rest, told, walked, rfl⟩ := participants_cons.mp listed
    obtain ⟨after, rest', told', walked', rfl⟩ := participants_cons.mp again
    have same := ih later walked walked'
    rcases here before after told told' with rfl | unfit
    · cases after with
      | true => rw [if_pos rfl, if_pos rfl, List.filter_cons, List.filter_cons, same]
      | false => exact same
    · have dropped (taken : Bool) (cs : List Candidate) :
          ((if taken then entry.1 :: cs else cs).filter fun c =>
            w.assignable c.declaredType required) =
              cs.filter fun c => w.assignable c.declaredType required := by
        cases taken <;> simp [unfit]
      rw [dropped, dropped, same]

theorem participants_of_taken {entries : List (Candidate × Hint)}
    (taken : ∀ entry ∈ entries, after.takesPart w h' required entry = r.takesPart w h required entry) :
    after.participants w h' required entries = r.participants w h required entries := by
  induction entries with
  | nil => rfl
  | cons entry entries ih =>
    obtain ⟨here, later⟩ := List.forall_mem_cons.mp taken
    simp only [Registry.participants, here, ih later]

/-- The heap matters only as far as it shows in the objects behind the entries for a type. -/
theorem resolve_of_alike
    (alike : ∀ entry ∈ r.resolvable, w.Alike h h' (r.componentOf entry)) (s : Settings)
    (q : Request) : r.resolve s w h' q = r.resolve s w h q := by
  have taken (entry : Candidate × Hint) (mem : entry ∈ r.resolvable) :
      r.takesPart w h' q.type.raw entry = r.takesPart w h q.type.raw entry := by
    have same := (alike entry mem).isInstance q.type.raw
    unfold componentOf at same
    simp only [takesPart, same]
  simp only [Registry.resolve, Registry.matching, Registry.eligible, participants_of_taken taken]

namespace Recorded
variable {title : String} {start finish st last : Store} {history : List Registered}
  (recorded : Recorded title start finish history r)
include recorded

/-- Lists of registered candidates in the order of their places are the same if they have the same
members. -/
theorem eq_of_perm {xs ys : List Candidate} (first : xs.Sublist (candidates history))
    (second : ys.Sublist (candidates history)) (perm : xs.Perm ys) : xs = ys := by
  have order := recorded.pairwise_index
  refine perm.eq_of_pairwise ?_ (order.sublist first) (order.sublist second)
  intro a b _ _ before after
  omega

theorem eligible_settled {cs cs' : List Candidate}
    (settled : ∀ entry ∈ r.resolvable, r.Settled w h h' required entry)
    (lookup : r.eligible w h required = .ok cs) (lookup' : r.eligible w h' required = .ok cs') :
    (cs'.filter fun c => w.assignable c.declaredType required) =
      cs.filter fun c => w.assignable c.declaredType required := by
  -- Both lists are in the order of the places, so that the same members make them the same list.
  refine recorded.eq_of_perm (List.filter_sublist.trans (recorded.eligible_sublist lookup').1)
    (List.filter_sublist.trans (recorded.eligible_sublist lookup).1) ?_
  obtain ⟨others, listed, made⟩ := Outcome.bind_eq_ok.mp lookup
  obtain ⟨others', again, made'⟩ := Outcome.bind_eq_ok.mp lookup'
  have alike := participants_settled settled listed again
  cases made
  cases made'
  refine ((List.mergeSort_perm _ _).filter _).trans ?_
  refine List.Perm.trans ?_ ((List.mergeSort_perm _ _).filter _).symm
  rw [List.filter_append, List.filter_append, alike]

theorem resolve_settled {s : Settings} {answer : Resolution}
    (settled : ∀ entry ∈ r.resolvable, r.Settled w h h' q.type entry)
    (resolved : r.resolve s w h q = .ok answer) :
    r.resolve s w h' q = .ok answer ∨ ∃ e, r.resolve s w h' q = .error e := by
  cases again : r.resolve s w h' q with
  | error e => exact .inr ⟨e, rfl⟩
  | ok answer' =>
    left
    obtain ⟨cs, lookup⟩ := eligible_of_resolve resolved
    obtain ⟨cs', lookup'⟩ := eligible_of_resolve again
    have same := recorded.eligible_settled settled lookup lookup'
    have accepted (mode : Mode) : q.accepted w mode cs' = q.accepted w mode cs := by
      rw [← accepted_filter q w mode cs', same, accepted_filter]
    have matching : r.matching w h' q = r.matching w h q := by
      rw [Registry.matching, Registry.matching, lookup, lookup']
      simp only [Except.mapError, Bind.bind, Except.bind, accepted]
    rw [← again, ← resolved, Registry.resolve, Registry.resolve, matching]

theorem componentOf_grows (grows : r.Grows title st last after) (mem : entry ∈ r.resolvable) :
    after.componentOf entry = r.componentOf entry := by
  have listed : entry.1 ∈ r.resolvable.map (·.1) := List.mem_map_of_mem mem
  rw [recorded.resolvable, List.mem_filter, candidates, List.mem_map] at listed
  obtain ⟨⟨e, registered, same⟩, forType⟩ := listed
  rw [← same] at forType
  obtain ⟨⟨v, given⟩, -⟩ := recorded.forType e registered forType
  obtain ⟨x, latest⟩ := Option.isSome_iff_exists.mp (lastGiven_isSome registered given)
  rw [same] at latest
  have held := recorded.given _ _ latest
  rw [componentOf, componentOf, held, grows.kept _ _ held]

theorem resolve_grows (grows : r.Grows title st last after) (s : Settings) (w : World) (h : Heap)
    (q : Request) : after.resolve s w h q = r.resolve s w h q := by
  have taken (entry : Candidate × Hint) (mem : entry ∈ r.resolvable) :
      after.takesPart w h q.type.raw entry = r.takesPart w h q.type.raw entry := by
    unfold takesPart
    rw [show (after.instances.lookup entry.1.name).getD .null = _ from
      recorded.componentOf_grows grows mem]
    rfl
  simp only [Registry.resolve, Registry.matching, Registry.eligible, grows.entries,
    grows.resolvable, participants_of_taken taken]

end Recorded
end Registry
end Wiring
