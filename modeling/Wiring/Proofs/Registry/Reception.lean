import Wiring.Proofs.Registry.Refusal
import Wiring.Proofs.Registry.Separation

/-! Who receives a value that is registered for a type. The type decides whether the entry takes
part in a request, but what is compared with the request afterwards is the class of the value. An
entry for a class thus takes part in every request for the class or an ancestor, and is found only if
the class of its value counts as a subclass as well. -/
namespace Wiring

namespace World
variable {w : World} {k : ClassRef}

theorem comparable_cls (w : World) (candidate : Hint) (k : ClassRef) :
    w.Comparable candidate (.cls k) := .inr (.inr (.inl rfl))

theorem matchesHint_cls (w : World) (mode : Mode) (c k : ClassRef) :
    w.matchesHint mode (.cls c) (.cls k) = .ok (w.isSubclass (.cls c) (.cls k)) := by
  have fits : w.assignable (.cls c) (.cls k) = w.isSubclass (.cls c) (.cls k) := Bool.false_or _
  cases is : w.isSubclass (.cls c) (.cls k) <;>
    simp [matchesHint, fits, is, Hint.isVar, Hint.arguments, pure, Except.pure]

end World

namespace Request
variable {q : Request} {w : World} {k : ClassRef}

theorem answerable_cls (wants : q.type = .cls k) (unqualified : q.qualifier = none)
    (cs : List Candidate) : q.Answerable w cs := by
  refine answerable_iff.mpr ⟨fun c _ => ?_, .inl ?_⟩
  · rw [wants]
    exact w.comparable_cls c.declaredType k
  · simp [QualifierComparable, unqualified]

variable {c : Candidate} {cls : ClassRef}

theorem fits_cls (wants : q.type = .cls k) (unqualified : q.qualifier = none)
    (declared : c.declaredType = .cls cls) (mode : Mode) :
    q.fits w mode c = w.isSubclass (.cls cls) (.cls k) := by
  simp [fits, wants, unqualified, declared, w.matchesHint_cls, Except.toOption]

/-- Both ways of matching agree on a candidate that declares a class, so that no other candidate can
keep it out. -/
theorem mem_best_cls (wants : q.type = .cls k) (unqualified : q.qualifier = none)
    (declared : c.declaredType = .cls cls) {cs : List Candidate} (mem : c ∈ cs) :
    c ∈ q.best w cs ↔ w.isSubclass (.cls cls) (.cls k) := by
  have fits := fits_cls (w := w) wants unqualified declared
  unfold best
  dsimp only
  split
  · simp [mem, fits .fallback]
  · simp [mem, fits .strict]

theorem mem_multiple {s : Settings} {cs : List Candidate} :
    (∃ found, q.multiple s cs = .values found ∧ c ∈ found) ↔ c ∈ cs := by
  unfold multiple
  split
  · rename_i none
    rw [List.isEmpty_iff.mp none]
    simp only [nothing, List.not_mem_nil, iff_false, not_exists, not_and]
    split <;> simp
  · simp only [Resolution.values.injEq, exists_eq_left']
    split
    · exact List.mem_mergeSort
    · rfl

end Request

namespace Registry
variable {r : Registry} {w : World} {h : Heap} {taken : List Candidate}

theorem takesPart_of_derives (r : Registry) (h : Heap) {c : Candidate} {d k : ClassRef}
    (derives : w.derives d k) : r.takesPart w h (.cls k) (c, .cls d) = .ok true := by
  rw [takesPart, if_pos (World.isSubclass_of_derives derives)]

theorem mem_participants {required : Hint} {entries : List (Candidate × Hint)}
    {entry : Candidate × Hint} (listed : r.participants w h required entries = .ok taken)
    (mem : entry ∈ entries) (takes : r.takesPart w h required entry = .ok true) :
    entry.1 ∈ taken := by
  induction entries generalizing taken with
  | nil => contradiction
  | cons first entries ih =>
    obtain ⟨takesPart, asked, listed⟩ := Outcome.bind_eq_ok.mp listed
    rcases List.mem_cons.mp mem with rfl | mem
    · cases takes.symm.trans asked
      obtain ⟨rest, -, listed⟩ := Outcome.bind_eq_ok.mp listed
      cases Outcome.pure_eq_ok.mp listed
      exact List.mem_cons_self
    · split at listed
      · obtain ⟨rest, later, listed⟩ := Outcome.bind_eq_ok.mp listed
        cases Outcome.pure_eq_ok.mp listed
        exact List.mem_cons_of_mem _ (ih later mem)
      · exact ih listed mem

theorem mem_eligible {required : Hint} {entry : Candidate × Hint}
    (lookup : r.eligible w h required = .ok taken) (mem : entry ∈ r.resolvable)
    (takes : r.takesPart w h required.raw entry = .ok true) : entry.1 ∈ taken := by
  obtain ⟨others, listed, sorted⟩ := Outcome.bind_eq_ok.mp lookup
  cases Outcome.pure_eq_ok.mp sorted
  exact List.mem_mergeSort.mpr (List.mem_append_right _ (mem_participants listed mem takes))

theorem Evolves.resolvable_prefix {title : String} {first last : Store} {after : Registry}
    {history : List Registered} (evolves : r.Evolves title first last history after) :
    r.resolvable <+: after.resolvable := by
  induction evolves with
  | refl => exact List.prefix_rfl
  | grows _ grown ih => rwa [grown.resolvable]
  | named source _ added ih =>
    obtain ⟨-, -, -, -, -, rfl⟩ := add_eq_ok added
    cases source <;> exact ih
  | forType => exact (by assumption : _ <+: _).trans (List.prefix_append _ _)

variable {s : Settings} {q : Request} {c : Candidate} {d cls k : ClassRef}

theorem received_iff (listed : (c, .cls d) ∈ r.resolvable) (declared : c.declaredType = .cls cls)
    (derives : w.derives d k) (wants : q.type = .cls k) (unqualified : q.qualifier = none)
    (multiple : q.cardinality.isMultiple) :
    (∃ cs, r.resolve s w h q = .ok (.values cs) ∧ c ∈ cs) ↔
      (∀ entry ∈ r.resolvable, AsksComponent w (.cls k) entry →
        w.AllowsTest h (r.componentOf entry) (.cls k)) ∧ w.isSubclass (.cls cls) (.cls k) := by
  have takes : r.takesPart w h q.type.raw (c, .cls d) = .ok true := by
    rw [wants]
    exact takesPart_of_derives r h derives
  have returns : (∃ cs, r.eligible w h q.type = .ok cs) ↔ ∀ entry ∈ r.resolvable,
      AsksComponent w (.cls k) entry → w.AllowsTest h (r.componentOf entry) (.cls k) := by
    rw [wants]
    exact eligible_returns
  have answered {cs : List Candidate} (lookup : r.eligible w h q.type = .ok cs) :
      (∃ found, r.resolve s w h q = .ok (.values found) ∧ c ∈ found) ↔
        w.isSubclass (.cls cls) (.cls k) := by
    have mem := mem_eligible lookup listed takes
    rw [← Request.mem_best_cls wants unqualified declared mem,
      ← Request.mem_multiple (q := q) (s := s)]
    simp only [resolve_eq_ok lookup, Request.answerable_cls wants unqualified, true_and,
      Request.answer, multiple, if_true]
  rw [← returns]
  constructor
  · rintro ⟨found, resolved, mem⟩
    obtain ⟨cs, lookup⟩ := eligible_of_resolve resolved
    exact ⟨⟨cs, lookup⟩, (answered lookup).mp ⟨found, resolved, mem⟩⟩
  · rintro ⟨⟨cs, lookup⟩, received⟩
    exact (answered lookup).mpr received

theorem resolve_sole (unnamed : r.entries = []) (sole : r.resolvable = [(c, .cls d)])
    (declared : c.declaredType = .cls cls) (derives : w.derives d k) (wants : q.type = .cls k)
    (unqualified : q.qualifier = none) (single : q.cardinality = .single) :
    r.resolve s w h q = .ok (if w.isSubclass (.cls cls) (.cls k) then .value c else q.nothing) := by
  have takes := takesPart_of_derives r h (c := c) derives
  have lookup : r.eligible w h q.type = .ok [c] := by
    simp [eligible, unnamed, sole, participants, wants, Hint.raw, takes, Bind.bind, Except.bind,
      pure, Except.pure]
  have best : q.best w [c] = if w.isSubclass (.cls cls) (.cls k) then [c] else [] := by
    have fits := Request.fits_cls (w := w) wants unqualified declared
    by_cases received : w.isSubclass (.cls cls) (.cls k) <;> simp [Request.best, fits, received]
  refine (resolve_eq_ok lookup).mpr ⟨Request.answerable_cls wants unqualified _, ?_⟩
  rw [best, Request.answer, single]
  by_cases received : w.isSubclass (.cls cls) (.cls k) <;>
    simp [received, Cardinality.isMultiple, Request.single]

end Registry

namespace Run
variable {title : String} {now last : Store} {d : ClassRef} {v : Value}

theorem evolves_registerResolvable (title : String) (d : ClassRef) (v : Value) (now : Store) :
    let name := (now.world.info d).qualifiedName
    ∃ after, exec (registerResolvable title (.cls d) v) now = (.ok (), after) ∧
      now.Evolves title
        [⟨(now.registry title).typeCandidate name (now.classOf v), .given v⟩] after ∧
      ((now.registry title).typeCandidate name (now.classOf v), .cls d) ∈
        (after.registry title).resolvable := by
  intro name
  refine ⟨_, rfl, ⟨.of_eq rfl rfl rfl, ?_⟩, ?_⟩
  · simpa using Registry.Evolves.refl.forType name (.cls d) (now.classOf v) v
  · simp [Registry.addResolvable, Registry.keep, Registry.typeCandidate, name]

/-- Registering a value for a class always succeeds. From then on, an unqualified collection of the
class or of an ancestor is answered with the new candidate among the others exactly if no test of an
entry is refused and the class of the value counts as a subclass of the requested one. A registry
that holds nothing else gives the candidate to a required request for a single value under the same
condition, and finds nothing otherwise. Values whose class descends from the requested one meet
it. -/
theorem registerResolvable_received {operations : List (String × Operation)}
    {history : List Registered} {st : Store} (empty : st.registry title = {})
    (ran : Operation.runAll title operations st = (history, now)) (d : ClassRef) (v : Value) :
    let name := (now.world.info d).qualifiedName
    let c := (now.registry title).typeCandidate name (now.classOf v)
    ∃ after, exec (registerResolvable title (.cls d) v) now = (.ok (), after) ∧
      ∀ more later last, Operation.runAll title more after = (later, last) →
      ∀ k, last.world.derives d k →
      let received := last.world.isSubclass (.cls (now.classOf v)) (.cls k)
      (∀ q, q.type = .cls k → q.qualifier = none → q.cardinality.isMultiple →
        ((∃ cs, last.resolve title q = .ok (.values cs) ∧ c ∈ cs) ↔
          (∀ entry ∈ (last.registry title).resolvable,
            Registry.AsksComponent last.world (.cls k) entry → last.world.AllowsTest last.heap
              ((last.registry title).componentOf entry) (.cls k)) ∧ received)) ∧
      (history = [] → later = [] →
        ∀ q, q.type = .cls k → q.qualifier = none → q.cardinality = .single → q.required →
          last.resolve title q = .ok (if received then .value c else .failure (.notFound q))) ∧
      (last.world.derives (now.classOf v) k → received) := by
  intro name c
  obtain ⟨after, registered, evolves, entered⟩ := evolves_registerResolvable title d v now
  refine ⟨after, registered, fun more later last ranOn k derives => ?_⟩
  intro received
  have evolved := evolves_runAll ranOn
  have listed : (c, .cls d) ∈ (last.registry title).resolvable :=
    evolved.registry.resolvable_prefix.subset entered
  refine ⟨?_, ?_, World.isSubclass_of_derives⟩
  · intro q wants unqualified multiple
    exact Registry.received_iff listed rfl derives wants unqualified multiple
  · rintro rfl rfl q wants unqualified single required
    have recorded := (((evolves_runAll ran).trans evolves).trans evolved).recorded empty
    have sole : (last.registry title).resolvable = [(c, .cls d)] := by
      have alone : (last.registry title).resolvable.length = 1 := by
        rw [← List.length_map (·.1), recorded.resolvable]
        rfl
      obtain ⟨entry, only⟩ := List.length_eq_one_iff.mp alone
      rw [only, List.mem_singleton] at listed
      rw [only, listed]
    rw [Store.resolve, Registry.resolve_sole recorded.entries sole rfl derives wants unqualified
      single, Request.nothing, if_pos required]

end Run

/-! A shelf for sources, which are known by what they offer, without checks. A book descends from
the class of sources and is found where it is put up; a tape only offers the same. -/
namespace Shelf
open Run

def offer (owner : String) : Entries Member := [("read", .method { name := "read", owner })]

def source : ClassInfo where
  name := "Source"
  qualifiedName := "Source"
  bases := [.builtin .protocol]
  linearization := [.declared 0, .builtin .protocol, .builtin .generic, .builtin .object]
  members := offer "Source"
  structural := true

def book : ClassInfo where
  name := "Book"
  qualifiedName := "Book"
  bases := [.declared 0]
  linearization :=
    [.declared 1, .declared 0, .builtin .protocol, .builtin .generic, .builtin .object]

def tape : ClassInfo where
  name := "Tape"
  qualifiedName := "Tape"
  bases := [.builtin .object]
  linearization := [.declared 2, .builtin .object]
  members := offer "Tape"

def store : Store where
  world := { moduleName := "shelf", classes := [source, book, tape] }
  heap := [{ cls := .declared 1 }, { cls := .declared 2 }]

def holding (id : Nat) : Store :=
  (exec (registerResolvable "main" (.cls (.declared 0)) (.object id)) store).2

def entry (id : Nat) : Candidate where
  name := "Source@resolvable"
  declaredType := .cls (store.classOf (.object id))
  resolvable := true

def sources : Request where
  type := .cls (.declared 0)
  cardinality := .orderedList

def oneSource : Request where
  type := .cls (.declared 0)

theorem book_received :
    (∃ cs, (holding 0).resolve "main" sources = .ok (.values cs) ∧ entry 0 ∈ cs) ∧
      (holding 0).resolve "main" oneSource = .ok (.value (entry 0)) := by
  have ran : Operation.runAll "main" [] store = ([], store) := rfl
  obtain ⟨after, registered, received⟩ :=
    registerResolvable_received rfl ran (.declared 0) (.object 0)
  obtain rfl : holding 0 = after := congrArg Prod.snd registered
  have derives : (holding 0).world.derives (.declared 0) (.declared 0) := by rfl
  obtain ⟨collected, sole, descends⟩ := received [] [] _ rfl _ derives
  have counts := descends rfl
  have alone : ((holding 0).registry "main").resolvable = [(entry 0, sources.type)] := by rfl
  constructor
  · refine (collected sources rfl rfl rfl).mpr ⟨?_, counts⟩
    intro other mem asks
    rw [alone, List.mem_singleton] at mem
    rw [mem] at asks
    exact absurd (World.isSubclass_of_derives derives) asks.1
  · rw [sole rfl rfl oneSource rfl rfl rfl rfl, if_pos counts]
    rfl

theorem tape_lost : store.registry "main" = {} ∧
    exec (registerResolvable "main" sources.type (.object 1)) store = (.ok (), holding 1) ∧
    ((holding 1).registry "main").resolvable = [(entry 1, sources.type)] ∧
    ((holding 1).registry "main").eligible (holding 1).world (holding 1).heap sources.type =
      .ok [entry 1] ∧
    (holding 1).resolve "main" sources = .ok (.failure (.notFound sources)) ∧
    (holding 1).resolve "main" oneSource = .ok (.failure (.notFound oneSource)) := by
  have lookup : ((holding 1).registry "main").eligible (holding 1).world (holding 1).heap
      sources.type = .ok [entry 1] := by cbv
  have collection : (holding 1).resolve "main" sources = .ok (.failure (.notFound sources)) := by
    cbv
  have single : (holding 1).resolve "main" oneSource = .ok (.failure (.notFound oneSource)) := by
    cbv
  exact ⟨rfl, rfl, rfl, lookup, collection, single⟩

end Shelf
end Wiring
