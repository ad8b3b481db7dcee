import Wiring.Proofs.Registry.Collection
import Wiring.Proofs.Registry.Packaging

/-! What the order of registration means for a single value: nothing. Neither the places of the
candidates nor their priorities decide which one is taken, or which ones are in the way of each
other. All else that a registration says is read off the classes while the call is made, so the
order counts only if the code that such a call runs changes the classes. -/
namespace Wiring

namespace Candidate

/-- What counts for a single value: all but the priority and the place. -/
def core (c : Candidate) : Candidate := { c with priority := none, index := 0 }

def prioritized (priority : Candidate → Option Int) (c : Candidate) : Candidate :=
  { c with priority := priority c }

/-- The same candidates, apart from priorities and places. -/
def Rearranged (cs others : List Candidate) : Prop := (cs.map core).Perm (others.map core)

namespace Rearranged
variable {cs others : List Candidate}

theorem filter {P : Candidate → Bool} (same : Rearranged cs others) (stable : ∀ c, P c.core = P c) :
    Rearranged (cs.filter P) (others.filter P) := by
  have kept : P ∘ core = P := funext stable
  have through (cs : List Candidate) : (cs.filter P).map core = (cs.map core).filter P := by
    rw [List.filter_map, kept]
  unfold Rearranged
  rw [through, through]
  exact List.Perm.filter P same

theorem forall_mem {P : Candidate → Prop} (same : Rearranged cs others)
    (stable : ∀ c, P c.core ↔ P c) : (∀ c ∈ cs, P c) ↔ ∀ c ∈ others, P c := by
  have through (cs : List Candidate) : (∀ c ∈ cs, P c) ↔ ∀ c ∈ cs.map core, P c := by
    simp only [List.forall_mem_map, stable]
  rw [through cs, through others]
  exact forall_congr' fun c => imp_congr_left (List.Perm.mem_iff same)

theorem isEmpty_eq (same : Rearranged cs others) : cs.isEmpty = others.isEmpty := by
  have length : cs.length = others.length := by simpa using List.Perm.length_eq same
  rw [Bool.eq_iff_iff, List.isEmpty_iff_length_eq_zero, List.isEmpty_iff_length_eq_zero, length]

end Rearranged
end Candidate

namespace Resolution
open Candidate

/-- The same outcome, apart from the priorities and the places of the candidates. -/
inductive Same : Resolution → Resolution → Prop
  | value {c other : Candidate} : c.core = other.core → Same (.value c) (.value other)
  | empty : Same .empty .empty
  | notFound (q : Request) : Same (.failure (.notFound q)) (.failure (.notFound q))
  | ambiguous (q : Request) {tied others : List Candidate} : Rearranged tied others →
    Same (.failure (.ambiguous q tied)) (.failure (.ambiguous q others))

end Resolution

namespace Request
open Candidate
variable {q : Request} {w : World} {cs others : List Candidate}

theorem decided_of_rearranged (same : Rearranged cs others) (mode : Mode) :
    q.Decided w mode cs ↔ q.Decided w mode others :=
  same.forall_mem fun _ => .rfl

theorem fits_of_rearranged (same : Rearranged cs others) (mode : Mode) :
    Rearranged (cs.filter (q.fits w mode)) (others.filter (q.fits w mode)) :=
  same.filter fun _ => rfl

theorem answerable_of_rearranged (same : Rearranged cs others) :
    q.Answerable w cs ↔ q.Answerable w others := by
  have strict := (fits_of_rearranged (q := q) (w := w) same .strict).isEmpty_eq
  rw [Bool.eq_iff_iff, List.isEmpty_iff, List.isEmpty_iff] at strict
  unfold Answerable
  rw [decided_of_rearranged same, decided_of_rearranged same, strict]

theorem best_of_rearranged (same : Rearranged cs others) :
    Rearranged (q.best w cs) (q.best w others) := by
  unfold best
  dsimp only
  rw [(fits_of_rearranged same .strict).isEmpty_eq]
  split
  · exact fits_of_rearranged same .fallback
  · exact fits_of_rearranged same .strict

theorem sole?_perm {α : Type} {as bs : List α} (perm : as.Perm bs) : sole? as = sole? bs := by
  match as, bs, perm.length_eq with
  | [], [], _ => rfl
  | [a], [b], _ => rw [List.singleton_perm_singleton.mp perm]
  | _ :: _ :: _, _ :: _ :: _, _ => rfl

theorem sole?_of_rearranged (same : Rearranged cs others) :
    (sole? cs).map core = (sole? others).map core := by
  have through (cs : List Candidate) : (sole? cs).map core = sole? (cs.map core) := by
    match cs with
    | [] | [_] | _ :: _ :: _ => rfl
  rw [through, through, sole?_perm same]

theorem pick?_of_rearranged (same : Rearranged cs others) :
    (q.pick? cs).map core = (q.pick? others).map core := by
  have named : Rearranged (cs.filter fun c => some c.name == q.name)
      (others.filter fun c => some c.name == q.name) := same.filter fun _ => rfl
  have primary : Rearranged (cs.filter (·.primary)) (others.filter (·.primary)) :=
    same.filter fun _ => rfl
  simp only [pick?, Option.map_or, sole?_of_rearranged same, sole?_of_rearranged named,
    sole?_of_rearranged primary]

theorem single_of_rearranged (same : Rearranged cs others) :
    Resolution.Same (q.single cs) (q.single others) := by
  have picked := pick?_of_rearranged (q := q) same
  rw [single_eq, single_eq, same.isEmpty_eq]
  cases first : q.pick? cs with
  | some c =>
    rw [first] at picked
    obtain ⟨other, second, cores⟩ := Option.map_eq_some_iff.mp picked.symm
    rw [second]
    exact .value cores.symm
  | none =>
    rw [first] at picked
    rw [Option.map_eq_none_iff.mp picked.symm]
    dsimp only
    split
    · rcases q.nothing_cases with nothing | nothing
      · rw [nothing]
        exact .notFound q
      · rw [nothing]
        exact .empty
    · exact .ambiguous q same

end Request

namespace Registry
open Candidate
variable {r other : Registry} {s s' : Settings} {w : World} {h h' : Heap} {q : Request}

/-- What a single value resolves to is a matter of the eligible candidates, in whatever order and
with whatever priorities. -/
theorem resolve_of_eligible (one : q.cardinality.isMultiple = false)
    (eligible : Outcome.Agree Rearranged (r.eligible w h q.type) (other.eligible w h' q.type)) :
    Outcome.Agree Resolution.Same (r.resolve s w h q) (other.resolve s' w h' q) := by
  have refused {r : Registry} {s : Settings} {h : Heap} {e : CheckRefusal}
      (refusal : r.eligible w h q.type = .error e) :
      r.resolve s w h q = .error (.badType (.refused e)) := by
    rw [resolve, matching, refusal]
    rfl
  cases first : r.eligible w h q.type with
  | error e =>
    rw [first] at eligible
    obtain ⟨e', second⟩ := eligible.error_right
    rw [refused first, refused second]
    trivial
  | ok cs =>
    rw [first] at eligible
    obtain ⟨others, second, same⟩ := eligible.ok_right
    have alike := Request.answerable_of_rearranged (q := q) (w := w) same
    have answers : Resolution.Same (q.answer s (q.best w cs)) (q.answer s' (q.best w others)) := by
      rw [Request.answer_of_single one, Request.answer_of_single one]
      exact Request.single_of_rearranged (Request.best_of_rearranged same)
    refine .of_ok (fun answer resolved => ?_) fun answer resolved => ?_
    · obtain ⟨answerable, rfl⟩ := (resolve_eq_ok first).mp resolved
      exact ⟨_, (resolve_eq_ok second).mpr ⟨alike.mp answerable, rfl⟩, answers⟩
    · obtain ⟨answerable, rfl⟩ := (resolve_eq_ok second).mp resolved
      exact ⟨_, (resolve_eq_ok first).mpr ⟨alike.mpr answerable, rfl⟩, answers⟩

theorem eligible_of_named (named : r.resolvable = []) (type : Hint) :
    r.eligible w h type = .ok ((r.entries.filter fun c =>
      c.injectable && w.assignable c.declaredType type.raw).mergeSort
        fun a b => a.index ≤ b.index) := by
  unfold eligible
  rw [named]
  change Except.ok ((_ ++ []).mergeSort _) = _
  rw [List.append_nil]

theorem eligible_of_rearranged (named : r.resolvable = []) (named' : other.resolvable = [])
    (same : Rearranged r.entries other.entries) :
    Outcome.Agree Rearranged (r.eligible w h q.type) (other.eligible w h' q.type) := by
  rw [eligible_of_named named, eligible_of_named named']
  have fitting := same.filter (P := fun c => c.injectable && w.assignable c.declaredType q.type.raw)
    fun _ => rfl
  exact ((List.mergeSort_perm _ _).map core).trans
    (fitting.trans ((List.mergeSort_perm _ _).map core).symm)

def prioritized (priority : Candidate → Option Int) (r : Registry) : Registry :=
  { r with
    entries := r.entries.map (·.prioritized priority)
    resolvable := r.resolvable.map fun entry => (entry.1.prioritized priority, entry.2) }

theorem participants_prioritized (priority : Candidate → Option Int) (required : Hint)
    (entries : List (Candidate × Hint)) :
    (r.prioritized priority).participants w h required
        (entries.map fun entry => (entry.1.prioritized priority, entry.2)) =
      (r.participants w h required entries).map (List.map (·.prioritized priority)) := by
  induction entries with
  | nil => rfl
  | cons entry entries ih =>
    have here : (r.prioritized priority).takesPart w h required
        (entry.1.prioritized priority, entry.2) = r.takesPart w h required entry := rfl
    rw [List.map_cons, participants, participants, here, ih]
    rcases r.takesPart w h required entry with _ | _ | _ <;>
      rcases r.participants w h required entries with _ | _ <;> rfl

theorem eligible_prioritized (priority : Candidate → Option Int) (type : Hint) :
    Outcome.Agree Rearranged (r.eligible w h type)
      ((r.prioritized priority).eligible w h type) := by
  let named (r : Registry) : List Candidate :=
    r.entries.filter fun c => c.injectable && w.assignable c.declaredType type.raw
  have same : named (r.prioritized priority) = (named r).map (·.prioritized priority) :=
    List.filter_map
  have listed : (r.prioritized priority).participants w h type.raw
      (r.prioritized priority).resolvable = _ := participants_prioritized priority type.raw _
  unfold eligible
  dsimp only
  rw [listed]
  cases r.participants w h type.raw r.resolvable with
  | error refusal => trivial
  | ok others =>
    -- Both are sorted by place, which is left out of the comparison: they are compared unsorted.
    change Rearranged ((named r ++ others).mergeSort _) ((named (r.prioritized priority) ++
      others.map (·.prioritized priority)).mergeSort _)
    rw [same, ← List.map_append]
    refine ((List.mergeSort_perm _ _).map core).trans (.trans ?_
      ((List.mergeSort_perm _ _).map core).symm)
    rw [List.map_map]
    exact .refl _

end Registry

def Registration.core (o : Registration) (name : String) (type : Hint) : Candidate where
  name := name
  declaredType := type
  qualifiers := o.qualifiers.eraseDups
  primary := o.primary
  injectable := o.injectable

namespace Operation

def unprioritized : Operation → Operation
  | register name v o => .register name v { o with priority := none }
  | registerProvider name p o => .registerProvider name p { o with priority := none }
  | other => other

/-- The candidate that a call enters under a name, apart from the priority and the place, as classes
and those of objects are while the call is made. -/
def core? (w : World) (classOf : Value → ClassRef) : Operation → Option Candidate
  | register name v o =>
    let primary := o.primary || w.isPrimary (.cls (classOf v))
    some ({ o with primary }.core name (o.declaredType.getD (.cls (classOf v))))
  | registerProvider name p o =>
    (o.declaredType.or (p.declaredType w).toOption).map fun type =>
      { o with primary := o.primary || w.isPrimary type.raw }.core name type
  | _ => none

variable {w : World} {classOf : Value → ClassRef}

theorem core?_unprioritized (operation : Operation) :
    operation.unprioritized.core? w classOf = operation.core? w classOf := by
  cases operation <;> rfl

theorem resolvable_of_core? {operation : Operation} {c : Candidate}
    (entered : operation.core? w classOf = some c) : c.resolvable = false := by
  cases operation with
  | register name v o =>
    cases entered
    rfl
  | registerProvider name p o =>
    obtain ⟨type, -, rfl⟩ := Option.map_eq_some_iff.mp entered
    rfl
  | _ => cases entered

end Operation

namespace Run
open Candidate

/-- Successful calls that register objects and providers lead from a store whose registry is empty
to another. Meanwhile the classes stay as they are in the world, and the objects are of the classes
given. -/
inductive Builds (title : String) (w : World) (classOf : Value → ClassRef) :
    List Operation → Store → Prop
  | start {st : Store} : st.registry title = {} → st.world = w → Builds title w classOf [] st
  | register {calls : List Operation} {st now : Store} {name : String} {v : Value}
      {o : Registration} {c : Candidate} :
    Builds title w classOf calls st → exec (Run.register title name v o) st = (.ok c, now) →
      now.world = w → now.classOf v = classOf v →
      Builds title w classOf (calls ++ [.register name v o]) now
  | registerProvider {calls : List Operation} {st now : Store} {name : String} {p : Provider}
      {o : Registration} {c : Candidate} :
    Builds title w classOf calls st →
      exec (Run.registerProvider title name p o) st = (.ok c, now) →
      Builds title w classOf (calls ++ [.registerProvider name p o]) now

section
variable {title name : String} {st now : Store} {c : Candidate} {o : Registration}

theorem core_of_added (source : Source) {type : Hint}
    (added : exec (do
      let c ← addEntry title name type o
      modifyRegistry title fun r => source.put name r
      return c) st = (.ok c, now)) :
    now.world = st.world ∧ now.heap = st.heap ∧ c.core = o.core name type := by
  obtain ⟨entry, mid, entered, rest⟩ := exec_bind_eq_ok.mp added
  cases rest
  rw [exec_addEntry] at entered
  unfold Registry.add at entered
  split at entered
  · rename_i fresh
    split at fresh
    · cases fresh
    · cases fresh
      cases entered
      exact ⟨rfl, rfl, rfl⟩
  · cases entered

theorem core_of_register {v : Value}
    (called : exec (Run.register title name v o) st = (.ok c, now)) :
    (Operation.register name v o).core? now.world now.classOf = some c.core := by
  -- Code of the object may run to read off its priority, so it is the store after that which counts.
  have entered {priority : Option Int} {mid : Store} (rest : exec (do
      let st ← get
      let cls := st.classOf v
      let primary := o.primary || st.world.isPrimary (.cls cls)
      let c ← addEntry title name (o.declaredType.getD (.cls cls)) { o with priority, primary }
      modifyRegistry title (·.keep name v)
      return c) mid = (.ok c, now)) :
      (Operation.register name v o).core? now.world now.classOf = some c.core := by
    obtain ⟨world, heap, core⟩ := core_of_added (.given v) rest
    have own : now.classOf v = mid.classOf v := by rw [Store.classOf, world, heap]; rfl
    rw [core, Operation.core?, world, own]
    rfl
  unfold Run.register at called
  dsimp only at called
  split at called
  · exact entered called
  · obtain ⟨priority, mid, -, rest⟩ := exec_bind_eq_ok.mp called
    exact entered rest

theorem core_of_registerProvider {p : Provider} (classOf : Value → ClassRef)
    (called : exec (Run.registerProvider title name p o) st = (.ok c, now)) :
    now.world = st.world ∧
      (Operation.registerProvider name p o).core? now.world classOf = some c.core := by
  have entered {type : Hint} {priority : Option Int}
      (known : o.declaredType.or (p.declaredType st.world).toOption = some type)
      (rest : exec (do
        let primary := o.primary || st.world.isPrimary type.raw
        let c ← addEntry title name type { o with priority, primary }
        modifyRegistry title (·.provide name p)
        return c) st = (.ok c, now)) :
      now.world = st.world ∧
        (Operation.registerProvider name p o).core? now.world classOf = some c.core := by
    obtain ⟨world, -, core⟩ := core_of_added (.made p) rest
    refine ⟨world, ?_⟩
    rw [core, Operation.core?, world, known]
    rfl
  rw [Run.registerProvider, exec_bind, exec_get] at called
  dsimp only at called
  split at called
  · rename_i type declared
    exact entered (by rw [declared]; rfl) called
  · rename_i declared
    obtain ⟨type, mid, found, rest⟩ := exec_bind_eq_ok.mp called
    cases known : p.declaredType st.world with
    | error e =>
      rw [known] at found
      cases found
    | ok type =>
      rw [known] at found
      cases found
      exact entered (by rw [declared, known]; rfl) rest

end

namespace Builds
variable {title : String} {w : World} {classOf : Value → ClassRef} {calls : List Operation}
  {now : Store}

theorem world (built : Builds title w classOf calls now) : now.world = w := by
  induction built with
  | start _ world => exact world
  | register _ _ world _ _ => exact world
  | registerProvider _ called ih => exact (core_of_registerProvider classOf called).1.trans ih

theorem evolves (built : Builds title w classOf calls now) :
    ∃ (first : Store) (history : List Registered), first.registry title = {} ∧
      first.Evolves title history now ∧
      (candidates history).map core = calls.filterMap (·.core? w classOf) := by
  have next {st now : Store} {history : List Registered} {operation : Operation} {e : Registered}
      {calls : List Operation}
      (ran : exec (operation.run title) st = (.ok (some e), now))
      (entered : operation.core? w classOf = some e.candidate.core)
      (cores : (candidates history).map core = calls.filterMap (·.core? w classOf)) :
      st.Evolves title [e] now ∧ (candidates (history ++ [e])).map core =
        (calls ++ [operation]).filterMap (·.core? w classOf) := by
    have step := registers_run title operation title st
    rw [ran, if_pos rfl] at step
    refine ⟨step, ?_⟩
    rw [List.filterMap_append, ← cores]
    simp [candidates, entered]
  induction built with
  | @start st empty _ => exact ⟨st, [], empty, .refl st, rfl⟩
  | @register calls st now name v o c _ called world own ih =>
    obtain ⟨first, history, empty, evolved, cores⟩ := ih
    have ran : exec ((Operation.register name v o).run title) st =
        (.ok (some ⟨c, .given v⟩), now) := exec_bind_of_ok called _
    have entered : (Operation.register name v o).core? w classOf = some c.core := by
      rw [← core_of_register called, Operation.core?, Operation.core?, world, own]
    obtain ⟨step, cores⟩ := next ran entered cores
    exact ⟨first, _, empty, evolved.trans step, cores⟩
  | @registerProvider calls st now name p o c built called ih =>
    obtain ⟨first, history, empty, evolved, cores⟩ := ih
    have ran : exec ((Operation.registerProvider name p o).run title) st =
        (.ok (some ⟨c, .made p⟩), now) := exec_bind_of_ok called _
    obtain ⟨world, entered⟩ := core_of_registerProvider classOf called
    rw [world, built.world] at entered
    obtain ⟨step, cores⟩ := next ran entered cores
    exact ⟨first, _, empty, evolved.trans step, cores⟩

theorem entries (built : Builds title w classOf calls now) :
    (now.registry title).entries.map core = calls.filterMap (·.core? w classOf) ∧
      (now.registry title).resolvable = [] := by
  obtain ⟨first, history, empty, evolved, cores⟩ := built.evolves
  have recorded := evolved.recorded empty
  have named : ∀ c ∈ candidates history, c.resolvable = false := by
    intro c mem
    have listed : c.core ∈ calls.filterMap (·.core? w classOf) := by
      rw [← cores]
      exact List.mem_map_of_mem mem
    obtain ⟨operation, -, entered⟩ := List.mem_filterMap.mp listed
    exact (Operation.resolvable_of_core? entered : c.core.resolvable = false)
  refine ⟨?_, ?_⟩
  · rw [← cores, recorded.entries, List.filter_eq_self.mpr]
    simpa using named
  · have none : (candidates history).filter (·.resolvable) = [] := by
      rw [List.filter_eq_nil_iff]
      simpa using named
    rw [← recorded.resolvable] at none
    exact List.map_eq_nil_iff.mp none

end Builds

/-- The same calls in another order, and with other priorities, lead to a registry that resolves a
request for a single value alike: to the candidate of the same name, to nothing in both, or to a
failure for the same reason, about the same candidates. It is an error in both if a comparison of
types that answering takes is refused. The priorities that candidates end up with make no difference
in any registry. -/
theorem resolve_reordered {title other : String} {w : World} {classOf : Value → ClassRef}
    {calls others : List Operation} {now now' : Store} {q : Request}
    (built : Builds title w classOf calls now) (rebuilt : Builds other w classOf others now')
    (same : (calls.map (·.unprioritized)).Perm (others.map (·.unprioritized)))
    (one : q.cardinality.isMultiple = false) :
    Outcome.Agree Resolution.Same (now.resolve title q) (now'.resolve other q) ∧
    (∃ cs, (now.registry title).eligible w now.heap q.type = .ok cs ∧
      ((∃ answer, now.resolve title q = .ok answer) ↔ q.Answerable w cs)) ∧
    ∀ (r : Registry) (s : Settings) (h : Heap) (priority : Candidate → Option Int),
      Outcome.Agree Resolution.Same (r.resolve s w h q)
        ((r.prioritized priority).resolve s w h q) := by
  obtain ⟨entries, named⟩ := built.entries
  obtain ⟨entries', named'⟩ := rebuilt.entries
  have world := built.world
  have world' := rebuilt.world
  have rearranged : Rearranged (now.registry title).entries (now'.registry other).entries := by
    have through (calls : List Operation) : calls.filterMap (·.core? w classOf) =
        (calls.map (·.unprioritized)).filterMap (·.core? w classOf) := by
      rw [List.filterMap_map]
      exact congrArg (List.filterMap · calls)
        (funext fun operation => operation.core?_unprioritized.symm)
    unfold Rearranged
    rw [entries, entries', through calls, through others]
    exact same.filterMap _
  unfold Store.resolve
  rw [world, world']
  refine ⟨?_, ⟨_, Registry.eligible_of_named named q.type, ?_⟩, fun r s h priority => ?_⟩
  · exact Registry.resolve_of_eligible one
      (Registry.eligible_of_rearranged named named' rearranged)
  · simp only [Registry.resolve_eq_ok (Registry.eligible_of_named named q.type), exists_and_left,
      exists_eq', and_true]
  · exact Registry.resolve_of_eligible one (Registry.eligible_prioritized priority q.type)

end Run

/-! The lamps of the hall, put up in both orders. The right one is primary. -/
namespace Hall
open Run

def store : Store where
  world := hall
  heap := [{ cls := .declared 0 }]

def putUp (priority : Int) : Operation := .register "left" (.object 0) { priority := some priority }

def plugIn : Operation := .registerProvider "right" (.cls (.declared 0)) { primary := true }

def brightest (index : Nat) : Candidate := { lamp "right" none index with primary := true }

def lit (entries : List Candidate) : Store :=
  { store with registries := [("main", {
      entries, instances := [("left", .object 0)]
      providers := [("right", .cls (.declared 0))] })] }

def leftFirst : Store := lit [lamp "left" (some 1) 0, brightest 1]

def rightFirst : Store := lit [brightest 0, lamp "left" (some 2) 1]

theorem builds_leftFirst : Builds "main" hall store.classOf [putUp 1, plugIn] leftFirst := by
  have empty : Builds "main" hall store.classOf [] store := .start rfl rfl
  have left : Builds "main" hall store.classOf [putUp 1] _ := .register empty rfl rfl rfl
  exact .registerProvider left rfl

theorem builds_rightFirst : Builds "main" hall store.classOf [plugIn, putUp 2] rightFirst := by
  have empty : Builds "main" hall store.classOf [] store := .start rfl rfl
  have right : Builds "main" hall store.classOf [plugIn] _ := .registerProvider empty rfl
  exact .register right rfl rfl rfl

theorem right_either_way :
    Outcome.Agree Resolution.Same (leftFirst.resolve "main" aLamp)
      (rightFirst.resolve "main" aLamp) ∧
    leftFirst.resolve "main" aLamp = .ok (.value (brightest 1)) ∧
    rightFirst.resolve "main" aLamp = .ok (.value (brightest 0)) := by
  have first : leftFirst.resolve "main" aLamp = .ok (.value (brightest 1)) := by cbv
  have second : rightFirst.resolve "main" aLamp = .ok (.value (brightest 0)) := by cbv
  exact ⟨(resolve_reordered builds_leftFirst builds_rightFirst (.swap _ _ _) rfl).1, first, second⟩

end Hall

/-! A lamp and two switches. What is asked for the priority of the lamp makes a switch, and making
one marks the class of switches as primary: of the two, the switch that is registered after the lamp
is taken. A feed that cannot be compared with the request is refused in every order. -/
namespace Switchboard
open Run

def lamp : ClassInfo where
  name := "Lamp"
  qualifiedName := "Lamp"
  bases := [.builtin .object]
  layout := { attributes := true }
  linearization := [.declared 0, .builtin .object]

def maker : Member := .staticMethod {
  name := "__new__", owner := "Switch"
  body := .steps [.setValue primaryMember (.bool true)] }

def switch (members : Namespace) : ClassInfo where
  name := "Switch"
  qualifiedName := "Switch"
  bases := [.builtin .object]
  linearization := [.declared 1, .builtin .object]
  members := members

def store : Store where
  world := { moduleName := "board", classes := [lamp, switch [("__new__", maker)]] }
  heap := [{ cls := .declared 0, attributes := [(orderMethod, .cls (.declared 1))] }]

def aSwitch (name : String) : Operation := .registerProvider name (.cls (.declared 1)) {}

def theLamp : Operation := .register "lamp" (.object 0) {}

def entry (name : String) (primary : Bool) (index : Nat) : Candidate where
  name := name
  declaredType := .cls (.declared 1)
  primary := primary
  index := index

def lampEntry : Candidate where
  name := "lamp"
  declaredType := .cls (.declared 0)
  index := 1

def begun (name : String) : Store :=
  { store with registries := [("main", {
      entries := [entry name false 0], providers := [(name, .cls (.declared 1))] })] }

def asked (name : String) : Store :=
  { begun name with
    world := { store.world with
      classes := [lamp, switch [("__new__", maker), (primaryMember, .value (.bool true))]] }
    events := [.called "Switch.__new__" (.cls (.declared 1)) []] }

def lit (name : String) : Store :=
  { asked name with registries := [("main", {
      entries := [entry name false 0, lampEntry], instances := [("lamp", .object 0)]
      providers := [(name, .cls (.declared 1))] })] }

def now (first second : String) : Store :=
  { asked first with registries := [("main", {
      entries := [entry first false 0, lampEntry, entry second true 2]
      instances := [("lamp", .object 0)]
      providers := [(first, .cls (.declared 1)), (second, .cls (.declared 1))] })] }

theorem priority_lamp {name : String} (side : name = "left" ∨ name = "right") :
    exec (priorityOf (.object 0)) (begun name) = (.ok none, asked name) := by
  have presented : exec (presents (.object 0) orderMethod) (begun name) =
      (.ok true, begun name) := by rcases side with rfl | rfl <;> rfl
  have ordered : exec (isOrdered (.object 0)) (begun name) = (.ok true, begun name) := by
    unfold isOrdered
    rw [exec_bind_of_ok (exec_get _)]
    split
    · rfl
    · exact presented
  have given : exec (callAttribute perform (.object 0) orderMethod {}) (begun name) =
      (.ok .null, asked name) := by rcases side with rfl | rfl <;> rfl
  unfold priorityOf
  rw [exec_bind_of_ok (exec_get _), exec_bind_of_ok (exec_get _), exec_bind_of_ok ordered]
  exact exec_bind_of_ok given _

def calls (first second : String) : List (String × Operation) :=
  [("main", aSwitch first), ("main", theLamp), ("main", aSwitch second)]

def history (first second : String) : List Registered :=
  [⟨entry first false 0, .made (.cls (.declared 1))⟩, ⟨lampEntry, .given (.object 0)⟩,
    ⟨entry second true 2, .made (.cls (.declared 1))⟩]

theorem runAll_calls {first second : String}
    (sides : first = "left" ∧ second = "right" ∨ first = "right" ∧ second = "left") :
    Operation.runAll "main" (calls first second) store =
      (history first second, now first second) := by
  have side : first = "left" ∨ first = "right" := sides.imp And.left And.left
  have begins : exec ((aSwitch first).run "main") store =
      (.ok (some ⟨entry first false 0, .made (.cls (.declared 1))⟩), begun first) := rfl
  have registered : exec (Run.register "main" "lamp" (.object 0) {}) (begun first) =
      (.ok lampEntry, lit first) := by
    refine (exec_bind_of_ok (priority_lamp side) _).trans ?_
    rcases side with rfl | rfl <;> rfl
  have asks : exec (theLamp.run "main") (begun first) =
      (.ok (some ⟨lampEntry, .given (.object 0)⟩), lit first) := exec_bind_of_ok registered _
  have ends : exec ((aSwitch second).run "main") (lit first) =
      (.ok (some ⟨entry second true 2, .made (.cls (.declared 1))⟩), now first second) := by
    rcases sides with ⟨rfl, rfl⟩ | ⟨rfl, rfl⟩ <;> rfl
  simp only [calls, Operation.runAll, begins, asks, ends]
  rfl

def request : Request where
  type := .cls (.declared 1)

def feed : Request := { Feeds.request with cardinality := .single }

theorem order_decides :
    ((calls "left" "right").Perm (calls "right" "left") ∧ store.registry "main" = {} ∧
      Operation.runAll "main" (calls "left" "right") store =
        (history "left" "right", now "left" "right") ∧
      Operation.runAll "main" (calls "right" "left") store =
        (history "right" "left", now "right" "left") ∧
      (now "left" "right").resolve "main" request = .ok (.value (entry "right" true 2)) ∧
      (now "right" "left").resolve "main" request = .ok (.value (entry "left" true 2))) ∧
    (∀ cs ∈ [[Feeds.last, Feeds.bad],
        [{ Feeds.bad with index := 0 }, { Feeds.last with index := 1 }]],
      Operation.runAll "main" (Feeds.providing cs) Feeds.store =
        (Feeds.history cs, Feeds.after cs) ∧
      (Feeds.providing cs).Perm (Feeds.providing [Feeds.last, Feeds.bad]) ∧
      (Feeds.after cs).resolve "main" feed = .error (.badType (.badHint .notAType))) := by
  have right : (now "left" "right").resolve "main" request =
      .ok (.value (entry "right" true 2)) := by cbv
  have left : (now "right" "left").resolve "main" request =
      .ok (.value (entry "left" true 2)) := by cbv
  have swapped : (calls "left" "right").Perm (calls "right" "left") :=
    ((List.Perm.swap _ _ _).trans (.cons _ (.swap _ _ _))).trans (.swap _ _ _)
  refine ⟨⟨swapped, rfl, runAll_calls (.inl ⟨rfl, rfl⟩), runAll_calls (.inr ⟨rfl, rfl⟩), right,
    left⟩, ?_⟩
  intro cs order
  rcases List.mem_pair.mp order with rfl | rfl
  · exact ⟨rfl, .refl _, by cbv⟩
  · exact ⟨rfl, .swap _ _ _, by cbv⟩

end Switchboard
end Wiring
