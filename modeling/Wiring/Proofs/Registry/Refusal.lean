import Mathlib
import Wiring.Proofs.Operations
import Wiring.Proofs.Registry.Matching

/-! When a request is answered at all. On the way to an answer the value of an entry may be tested
against the requested class, which not every hint allows, type arguments are worked out, which may
come to impossible ones, and the qualifier is compared. What is refused there is passed on. -/
namespace Wiring

def Member.isProperty : Member → Bool
  | property _ => true
  | _ => false

namespace World
variable {w : World} {h : Heap} {v : Value} {c k : ClassRef}

def AllowsSubclassTest (w : World) (k : ClassRef) : Prop :=
  (w.info k).structural → w.allowsChecks k ∧ w.routinesOnly k

/-- The test whether the value is of the class is carried out: it is the class of the value, or it
stands for a test, and a structural class allows it. -/
def AllowsInstanceTest (w : World) (h : Heap) (v : Value) (k : ClassRef) : Prop :=
  w.classOf h v = k ∨
    k ≠ .builtin .any ∧ k ≠ .builtin .protocol ∧ ((w.info k).structural → w.allowsChecks k)

/-- The instance test of the value against the hint is carried out. The members of a union are
tested in order, up to the first that accepts. -/
def AllowsTest (w : World) (h : Heap) (v : Value) : Hint → Prop
  | .cls k => w.AllowsInstanceTest h v k
  | .bare origin => w.AllowsSubclassTest origin
  | .union .typing members => ∀ before m after, members = before ++ m :: after →
      (∀ m' ∈ before, w.subclassOf? (w.classOf h v) m' = .ok false) →
      ∃ k, m = .cls k ∧ w.AllowsSubclassTest k
  | .union .bar members => (∀ m ∈ members, ∃ k, m = .cls k) ∧
      ∀ before k after, members = before ++ .cls k :: after →
        (∀ k', .cls k' ∈ before → w.isInstanceOf h v k' = .ok false) → w.AllowsInstanceTest h v k
  | _ => False

theorem subclass?_returns :
    (∃ answer, w.subclass? c k = .ok answer) ↔ w.AllowsSubclassTest k := by
  unfold subclass? AllowsSubclassTest
  by_cases structural : (w.info k).structural
  · by_cases checks : w.allowsChecks k
    · by_cases routines : w.routinesOnly k <;> simp [structural, checks, routines]
    · simp [structural, checks]
  · rw [if_neg structural]
    refine iff_of_true ?_ fun is => absurd is structural
    split <;> exact ⟨_, rfl⟩

theorem isInstanceOf_returns :
    (∃ answer, w.isInstanceOf h v k = .ok answer) ↔ w.AllowsInstanceTest h v k := by
  unfold isInstanceOf AllowsInstanceTest
  dsimp only
  by_cases own : w.classOf h v = k
  · simp [own]
  rw [if_neg own, or_iff_right own]
  by_cases any : k = .builtin .any
  · simp [any]
  by_cases protocol : k = .builtin .protocol
  · simp [protocol]
  by_cases structural : (w.info k).structural
  · by_cases checks : w.allowsChecks k <;> simp [any, protocol, structural, checks]
  · have carried : ∃ answer, w.subclass? (w.classOf h v) k = .ok answer :=
      subclass?_returns.mpr fun is => absurd is structural
    simpa [any, protocol, structural] using carried

theorem subclassOf?_returns {m : Hint} :
    (∃ answer, w.subclassOf? c m = .ok answer) ↔ ∃ k, m = .cls k ∧ w.AllowsSubclassTest k := by
  unfold subclassOf?
  split
  · rename_i k
    rw [subclass?_returns]
    simp
  · rename_i noClass
    simp only [reduceCtorEq, exists_false, false_iff, not_exists, not_and]
    exact fun k same => absurd same (noClass k)

theorem anyAccepts_returns {accepts : Hint → Except CheckRefusal Bool} {members : List Hint} :
    (∃ answer, anyAccepts accepts members = .ok answer) ↔
      ∀ before m after, members = before ++ m :: after →
        (∀ m' ∈ before, accepts m' = .ok false) → ∃ answer, accepts m = .ok answer := by
  induction members with
  | nil => simp [anyAccepts]
  | cons first rest ih =>
    cases tested : accepts first with
    | error refusal =>
      refine iff_of_false ?_ fun all => ?_
      · simp [anyAccepts, tested, Bind.bind, Except.bind]
      · obtain ⟨answer, carried⟩ := all [] first rest rfl (by simp)
        rw [tested] at carried
        cases carried
    | ok taken =>
      cases taken with
      | true =>
        refine iff_of_true ⟨true, by simp [anyAccepts, tested, Bind.bind, Except.bind]; rfl⟩ ?_
        intro before m after split refused
        cases before with
        | nil =>
          cases split
          exact ⟨true, tested⟩
        | cons _ before =>
          cases split
          rw [refused first List.mem_cons_self] at tested
          cases tested
      | false =>
        have goesOn : anyAccepts accepts (first :: rest) = anyAccepts accepts rest := by
          simp [anyAccepts, tested, Bind.bind, Except.bind]
        rw [goesOn, ih]
        constructor
        · intro later before m after split refused
          cases before with
          | nil =>
            cases split
            exact ⟨false, tested⟩
          | cons _ before =>
            cases split
            exact later before m after rfl fun m' mem => refused m' (List.mem_cons_of_mem _ mem)
        · intro all before m after split refused
          refine all (first :: before) m after (by rw [split]; rfl) fun m' mem => ?_
          rcases List.mem_cons.mp mem with rfl | mem
          · exact tested
          · exact refused m' mem

theorem isInstance_returns {target : Hint} :
    (∃ answer, w.isInstance h v target = .ok answer) ↔ w.AllowsTest h v target := by
  unfold isInstance
  split
  · exact isInstanceOf_returns
  · exact subclass?_returns
  · rw [anyAccepts_returns]
    simp only [subclassOf?_returns, AllowsTest]
  · rename_i members
    by_cases classes : members.all (·.class?.isSome)
    · have listed : ∀ m ∈ members, ∃ k, m = .cls k := by
        intro m mem
        have isClass := List.all_eq_true.mp classes m mem
        unfold Hint.class? at isClass
        split at isClass
        · exact ⟨_, rfl⟩
        · cases isClass
      rw [if_pos classes, anyAccepts_returns, AllowsTest, and_iff_right listed]
      constructor
      · intro all before k after split refused
        refine isInstanceOf_returns.mp (all before (.cls k) after split fun m' mem => ?_)
        obtain ⟨k', rfl⟩ := listed m' (by rw [split]; exact List.mem_append_left _ mem)
        exact refused k' mem
      · intro all before m after split refused
        obtain ⟨k, rfl⟩ := listed m (by rw [split]; simp)
        exact isInstanceOf_returns.mpr (all before k after split fun k' mem => refused _ mem)
    · rw [if_neg classes]
      refine iff_of_false (by simp) fun allowed => classes (List.all_eq_true.mpr fun m mem => ?_)
      obtain ⟨k, rfl⟩ := allowed.1 m mem
      rfl
  · rename_i noClass noBare noTyping noBar
    refine iff_of_false (by simp) fun allowed => ?_
    unfold AllowsTest at allowed
    split at allowed
    · exact noClass _ rfl
    · exact noBare _ rfl
    · exact noTyping _ rfl
    · exact noBar _ rfl
    · exact allowed

/-- Reading an attribute of the value runs no code of its class: the class neither sees to reading
itself nor answers for missing attributes, and none of them is a property. -/
structure Silent (w : World) (h : Heap) (v : Value) : Prop where
  reads : Run.hook? w (w.classOf h v) readMethod = none
  answers : Run.hook? w (w.classOf h v) substituteMethod = none
  computes : ∀ name p, w.find h v name ≠ .onObject (.property p)

theorem workedOnObject_ne_onObject {name : String} {m : Member} :
    w.workedOnObject h v name ≠ .onObject m := by
  unfold workedOnObject
  dsimp only
  repeat' split
  all_goals nofun

theorem member?_of_findOnObject {name : String} {p : Property}
    (found : w.findOnObject h v name = .onObject (.property p)) :
    ∃ owner, w.member? (w.classOf h v) name = some (owner, .property p) := by
  unfold findOnObject at found
  split at found
  · unfold placed at found
    split at found
    · split at found <;> cases found
    · cases found
  · cases found
    exact ⟨_, ‹_›⟩
  · exact (workedOnObject_ne_onObject found).elim
  · exact (workedOnObject_ne_onObject found).elim
  · cases found
  · cases found
    exact ⟨_, ‹_›⟩
  · cases found

theorem silent_of_members {id : Nat} (reads : Run.hook? w (w.classOf h (.object id)) readMethod = none)
    (answers : Run.hook? w (w.classOf h (.object id)) substituteMethod = none)
    (plain : ∀ owner name p, w.member? (w.classOf h (.object id)) name ≠ some (owner, .property p)) :
    w.Silent h (.object id) where
  reads := reads
  answers := answers
  computes name p found := by
    obtain ⟨owner, held⟩ := member?_of_findOnObject (v := .object id) found
    exact plain owner name p held

theorem Silent.answersMissing (silent : w.Silent h v) : w.answersMissing (w.classOf h v) = false := by
  have absent := silent.answers
  unfold Run.hook? at absent
  unfold World.answersMissing
  split at absent
  · cases absent
  · rename_i other
    split
    · rename_i held
      exact (other _ _ held).elim
    · rfl

/-- What a test takes from the value is what reading it gives, and nothing happens meanwhile. -/
theorem Silent.exec_readOptional {st : Store} (silent : st.world.Silent st.heap v) (name : String) :
    Run.exec (Run.readOptional Run.perform v name) st =
      (.ok (st.world.readValue st.heap v name).toOption, st) := by
  have plain : Run.exec (Run.readAttribute Run.perform v name) st =
      Run.exec (Run.readFound Run.perform v name) st := by
    rw [Run.readAttribute, Run.exec_bind, Run.exec_get]
    simp only [Store.classOf, silent.reads, silent.answers]
  have read : Run.exec (Run.readFound Run.perform v name) st =
      ((st.world.readValue st.heap v name).mapError .badAttribute, st) := by
    rw [Run.readFound, Run.exec_bind, Run.exec_get]
    dsimp only
    unfold World.readValue World.readThrough
    cases found : st.world.find st.heap v name with
    | onObject m =>
      cases m with
      | property p => exact (silent.computes name p found).elim
      | _ => rfl
    | missing =>
      simp only [silent.answersMissing]
      rfl
    | _ => rfl
  rw [Run.readOptional, Run.exec_tryCatch, map_eq_pure_bind, Run.exec_bind, plain, read]
  cases st.world.readValue st.heap v name <;> rfl

/-- Comparing the types is not refused: the arguments of the candidate do not matter, since it is
open, or its class does not fit, or any arguments will do; or they can be worked out. -/
def Comparable (w : World) (candidate required : Hint) : Prop :=
  candidate.isVar ∨ ¬ w.assignable candidate required ∨ required.arguments.all Hint.isWildcard ∨
    ∃ supplied, w.argumentsFor required.raw candidate = .ok supplied

theorem matchesHint_returns (mode : Mode) {candidate required : Hint} :
    (∃ answer, w.matchesHint mode candidate required = .ok answer) ↔
      w.Comparable candidate required := by
  unfold matchesHint Comparable
  by_cases open' : candidate.isVar
  · simp [open', pure, Except.pure]
  by_cases fits : w.assignable candidate required
  · by_cases wildcards : required.arguments.all Hint.isWildcard
    · simp [open', fits, wildcards, pure, Except.pure]
    · cases supplied : w.argumentsFor required.raw candidate with
      | error fault => simp [open', fits, wildcards, Bind.bind, Except.bind]
      | ok arguments =>
        cases arguments with
        | none => simp [open', fits, wildcards, pure, Except.pure, Bind.bind, Except.bind]
        | some arguments =>
          by_cases count : arguments.length = required.arguments.length <;>
            simp [open', fits, wildcards, count, pure, Except.pure, Bind.bind, Except.bind]
  · simp [open', fits, pure, Except.pure]

end World

namespace Request
variable {q : Request} {w : World} {cs : List Candidate}

def QualifierComparable (q : Request) : Prop := q.qualifier.all Literal.isHashable

theorem accepts_returns {mode : Mode} {c : Candidate} :
    (∃ taken, q.accepts w mode c = .ok taken) ↔ w.Comparable c.declaredType q.type ∧
      (q.QualifierComparable ∨ w.matchesHint mode c.declaredType q.type ≠ .ok true) := by
  rw [← World.matchesHint_returns mode]
  unfold accepts QualifierComparable
  cases compared : w.matchesHint mode c.declaredType q.type with
  | error fault => simp [Except.mapError, Bind.bind, Except.bind]
  | ok matched =>
    cases matched with
    | false => simp [Except.mapError, Bind.bind, Except.bind, pure, Except.pure]
    | true =>
      cases tagged : q.qualifier with
      | none => simp [Except.mapError, Bind.bind, Except.bind, pure, Except.pure]
      | some qualifier =>
        by_cases hashable : qualifier.isHashable <;>
          simp [Except.mapError, Bind.bind, Except.bind, pure, Except.pure, hashable, throw,
            throwThe, MonadExceptOf.throw]

theorem answerable_iff : q.Answerable w cs ↔
    (∀ c ∈ cs, w.Comparable c.declaredType q.type) ∧ (q.QualifierComparable ∨
      ∀ c ∈ cs, ∀ mode, w.matchesHint mode c.declaredType q.type ≠ .ok true) := by
  unfold Answerable Decided
  simp only [accepts_returns]
  constructor
  · rintro ⟨strict, fallback⟩
    refine ⟨fun c mem => (strict c mem).1, or_iff_not_imp_left.mpr fun bad => ?_⟩
    have apart (c : Candidate) (mem : c ∈ cs) := (strict c mem).2.resolve_left bad
    have none : cs.filter (q.fits w .strict) = [] := by
      rw [List.filter_eq_nil_iff]
      intro c mem fit
      obtain ⟨taken, accepts⟩ := accepts_returns.mpr (strict c mem)
      cases (fits_of_accepts accepts).symm.trans fit
      exact apart c mem (Registry.matchesHint_of_accepts accepts)
    intro c mem mode
    cases mode with
    | strict => exact apart c mem
    | fallback => exact (fallback none c mem).2.resolve_left bad
  · rintro ⟨comparable, answerable⟩
    have decided (mode : Mode) (c : Candidate) (mem : c ∈ cs) :=
      And.intro (comparable c mem) (answerable.imp_right fun apart => apart c mem mode)
    exact ⟨decided .strict, fun _ => decided .fallback⟩

end Request

namespace Registry
variable {r : Registry} {s : Settings} {w : World} {h : Heap} {q : Request}

def componentOf (r : Registry) (entry : Candidate × Hint) : Value :=
  (r.instances.lookup entry.1.name).getD .null

/-- Whether the entry takes part is left to its component: its type is no subclass of the required
class, but the required class is a subclass of its type. -/
def AsksComponent (w : World) (required : Hint) (entry : Candidate × Hint) : Prop :=
  ¬ w.isSubclass entry.2 required ∧ w.isSubclass required entry.2

theorem takesPart_returns {required : Hint} {entry : Candidate × Hint} :
    (∃ answer, r.takesPart w h required entry = .ok answer) ↔
      (AsksComponent w required entry → w.AllowsTest h (r.componentOf entry) required) := by
  unfold takesPart AsksComponent componentOf
  by_cases above : w.isSubclass entry.2 required
  · simp [above]
  by_cases below : w.isSubclass required entry.2
  · rw [if_neg above, if_pos below, World.isInstance_returns]
    simp [above, below]
  · simp [above, below]

theorem participants_returns {required : Hint} {entries : List (Candidate × Hint)} :
    (∃ cs, r.participants w h required entries = .ok cs) ↔ ∀ entry ∈ entries,
      AsksComponent w required entry → w.AllowsTest h (r.componentOf entry) required := by
  induction entries with
  | nil => simp [participants]
  | cons entry entries ih =>
    rw [List.forall_mem_cons, ← ih, ← takesPart_returns]
    simp only [participants, Outcome.bind_eq_ok]
    constructor
    · rintro ⟨cs, taken, here, later⟩
      refine ⟨⟨taken, here⟩, ?_⟩
      split at later
      · obtain ⟨rest, listed, -⟩ := Outcome.bind_eq_ok.mp later
        exact ⟨rest, listed⟩
      · exact ⟨cs, later⟩
    · rintro ⟨⟨taken, here⟩, rest, listed⟩
      refine ⟨if taken then entry.1 :: rest else rest, taken, here, ?_⟩
      rw [listed]
      cases taken <;> rfl

theorem eligible_returns {required : Hint} :
    (∃ cs, r.eligible w h required = .ok cs) ↔ ∀ entry ∈ r.resolvable,
      AsksComponent w required.raw entry → w.AllowsTest h (r.componentOf entry) required.raw := by
  rw [← participants_returns]
  simp only [eligible, Outcome.bind_eq_ok, Outcome.pure_eq_ok]
  constructor
  · rintro ⟨cs, others, listed, -⟩
    exact ⟨others, listed⟩
  · rintro ⟨others, listed⟩
    exact ⟨_, others, listed, rfl⟩

theorem eligible_of_resolve {answer : Resolution} (resolved : r.resolve s w h q = .ok answer) :
    ∃ cs, r.eligible w h q.type = .ok cs := by
  obtain ⟨taken, matching, -⟩ := Outcome.bind_eq_ok.mp resolved
  obtain ⟨cs, lookup, -⟩ := Outcome.bind_eq_ok.mp matching
  exact ⟨cs, Outcome.mapError_eq_ok.mp lookup⟩

/-- Components that are tested against the class run no code of theirs when attributes are read. -/
def TestsSilently (r : Registry) (w : World) (h : Heap) (required : Hint) : Prop :=
  ∀ entry ∈ r.resolvable, AsksComponent w required entry → w.Silent h (r.componentOf entry)

/-- If the components that are tested run no code of theirs, testing them changes nothing and finds
the attributes that reading them gives. Then a request is answered, if only by a failure, exactly if
no test of a component against the requested class is refused, the type arguments that have to be
compared can be worked out, and the qualifier can be compared where it has to be. A request for a
class that allows instance tests is always answered. -/
theorem resolve_returns {r : Registry} {w : World} {h : Heap} {q : Request} (s : Settings)
    (silent : r.TestsSilently w h q.type.raw) :
    (∀ st : Store, st.world = w → st.heap = h → ∀ entry ∈ r.resolvable,
      AsksComponent w q.type.raw entry → ∀ name,
        Run.exec (Run.readOptional Run.perform (r.componentOf entry) name) st =
          (.ok (w.readValue h (r.componentOf entry) name).toOption, st)) ∧
    ((∃ answer, r.resolve s w h q = .ok answer) ↔
      (∀ entry ∈ r.resolvable, AsksComponent w q.type.raw entry →
        w.AllowsTest h (r.componentOf entry) q.type.raw) ∧
      ∀ cs, r.eligible w h q.type = .ok cs →
        (∀ c ∈ cs, w.Comparable c.declaredType q.type) ∧ (q.QualifierComparable ∨
          ∀ c ∈ cs, ∀ mode, w.matchesHint mode c.declaredType q.type ≠ .ok true)) ∧
    (∀ k, q.type = .cls k → k ≠ .builtin .any → k ≠ .builtin .protocol →
      ((w.info k).structural → w.allowsChecks k) → q.QualifierComparable →
      ∃ answer, r.resolve s w h q = .ok answer) := by
  have law : (∃ answer, r.resolve s w h q = .ok answer) ↔
      (∀ entry ∈ r.resolvable, AsksComponent w q.type.raw entry →
        w.AllowsTest h (r.componentOf entry) q.type.raw) ∧
      ∀ cs, r.eligible w h q.type = .ok cs →
        (∀ c ∈ cs, w.Comparable c.declaredType q.type) ∧ (q.QualifierComparable ∨
          ∀ c ∈ cs, ∀ mode, w.matchesHint mode c.declaredType q.type ≠ .ok true) := by
    rw [← eligible_returns]
    simp only [← Request.answerable_iff]
    constructor
    · rintro ⟨answer, resolved⟩
      refine ⟨eligible_of_resolve resolved, fun cs lookup => ?_⟩
      exact ((resolve_eq_ok lookup).mp resolved).1
    · rintro ⟨⟨cs, lookup⟩, answerable⟩
      exact ⟨_, (resolve_eq_ok lookup).mpr ⟨answerable cs lookup, rfl⟩⟩
  refine ⟨?_, law, fun k wants noAny noProtocol checks comparable => law.mpr ?_⟩
  · rintro st rfl rfl entry registered asks
    exact (silent entry registered asks).exec_readOptional
  rw [wants]
  refine ⟨fun _ _ _ => .inr ⟨noAny, noProtocol, checks⟩,
    fun cs _ => ⟨fun c _ => ?_, .inl comparable⟩⟩
  exact .inr (.inr (.inl rfl))

end Registry

/-! A clock is kept for everything. A source is known by its members, but allows no checks. The
subclass test that is refused counts as failed, but the test whether the clock is a source is passed
on, though finding no source would be fine. -/
namespace Sources
open Run

def clock : ClassInfo where
  name := "Clock"
  qualifiedName := "Clock"
  bases := [.builtin .object]
  linearization := [.declared 0, .builtin .object]

def source : ClassInfo where
  name := "Source"
  qualifiedName := "Source"
  bases := [.builtin .protocol]
  linearization := [.declared 1, .builtin .protocol, .builtin .generic, .builtin .object]
  members := [("read", .method { name := "read", owner := "Source" })]
  structural := true

def store : Store where
  world := { moduleName := "sources", classes := [clock, source] }
  heap := [{ cls := .declared 0 }]

def entry : Candidate where
  name := "object@resolvable"
  declaredType := .cls (.declared 0)
  resolvable := true

def now : Store :=
  { store with registries := [("main", {
      resolvable := [(entry, Hint.object)], instances := [(entry.name, .object 0)] })] }

def request : Request where
  type := .cls (.declared 1)
  required := false

theorem source_refused : store.registry "main" = {} ∧
    Operation.runAll "main" [("main", .registerResolvable Hint.object (.object 0))] store =
      ([⟨entry, .given (.object 0)⟩], now) ∧
    now.world.subclass? (.builtin .object) (.declared 1) = .error .notCheckable ∧
    ¬ now.world.isSubclass Hint.object request.type ∧
    now.resolve "main" request = .error (.badType (.refused .notCheckable)) := by
  have guarded : now.world.isSubclass Hint.object request.type = false := by cbv
  have refused : now.resolve "main" request = .error (.badType (.refused .notCheckable)) := by cbv
  exact ⟨rfl, rfl, by cbv, by simp [guarded], refused⟩

def anyClock : Request where
  type := .cls (.declared 0)

theorem silent_clock : now.world.Silent now.heap (.object 0) := by
  refine World.silent_of_members (by decide) (by decide) fun owner name p held => ?_
  have plain : Builtin.object.members.all (!·.2.isProperty) := by decide
  obtain ⟨_, line, own⟩ := List.exists_of_findSome?_eq_some held
  obtain ⟨m, holds, same⟩ := Option.map_eq_some_iff.mp own
  cases same
  have listed := Entries.mem_of_lookup holds
  have line : owner ∈ [ClassRef.declared 0, .builtin .object] := line
  rcases List.mem_cons.mp line with rfl | line
  · cases listed
  · cases List.mem_singleton.mp line
    cases List.all_eq_true.mp plain _ listed

theorem clock_answered :
    (now.registry "main").TestsSilently now.world now.heap anyClock.type.raw ∧
    (∃ entry ∈ (now.registry "main").resolvable,
      Registry.AsksComponent now.world anyClock.type.raw entry) ∧
    ∃ answer, now.resolve "main" anyClock = .ok answer := by
  have silent : (now.registry "main").TestsSilently now.world now.heap anyClock.type.raw := by
    intro entry registered _
    cases List.mem_singleton.mp registered
    exact silent_clock
  have asks : Registry.AsksComponent now.world anyClock.type.raw (entry, Hint.object) := by
    exact ⟨by decide, by decide⟩
  obtain ⟨-, -, answered⟩ := Registry.resolve_returns now.settings silent
  refine ⟨silent, ⟨_, List.mem_singleton.mpr rfl, asks⟩, ?_⟩
  exact answered (.declared 0) rfl (by decide) (by decide) (by decide) rfl

end Sources
end Wiring
