import Mathlib
import Wiring.Proofs.Call.Binding
import Wiring.Proofs.Entries
import Wiring.Proofs.Injection.Ambiguity
import Wiring.Proofs.Injection.Steps

/-! Which points explicit values reach. A point whose property has an explicit value is left out of
planning, and nothing is resolved or recorded for it. But the values are given out by property: to
the last method that sets the property, and only without one to the field of the name. Further
points of the property are left with nothing. -/
namespace Wiring

namespace Step

def reaches (p : InjectionPoint) : Step → Bool
  | .assign name _ => p.kind = .field && name == p.name
  | .call method _ => p.kind = .method && method == p.name

def assigns (name : String) : Step → Bool
  | .assign name' _ => name' == name
  | .call .. => false

variable {p : InjectionPoint} {name : String}

@[simp] theorem reaches_assign {v : Value} :
    (assign name v).reaches p ↔ p.kind = .field ∧ name = p.name := by
  simp [reaches]

@[simp] theorem reaches_call {a : Arguments} :
    (call name a).reaches p ↔ p.kind = .method ∧ name = p.name := by
  simp [reaches]

@[simp] theorem assigns_assign {name' : String} {v : Value} :
    (assign name v).assigns name' ↔ name = name' := by
  simp [assigns]

end Step

namespace InjectionPoint

def uncovered (explicit : Entries Value) (p : InjectionPoint) : Bool :=
  (explicit.lookup p.propertyName).isNone

def replacement (p : InjectionPoint) (v : Value) : Step :=
  match p.kind with
  | .field => .assign p.name v
  | .method => .call p.name { positional := [v] }

/-- The point stands for its property among the points: it is the last method that sets it, or the
field, if no method does. -/
def InCharge (points : List InjectionPoint) (p : InjectionPoint) : Prop :=
  setter? points p.propertyName = match p.kind with
    | .field => none
    | .method => some p.name

instance (points : List InjectionPoint) (p : InjectionPoint) : Decidable (p.InCharge points) :=
  inferInstanceAs (Decidable (_ = _))

variable {points : List InjectionPoint} {p q : InjectionPoint} {property method : String}

theorem propertyName_of_field (field : p.kind = .field) : p.propertyName = p.name := by
  simp [propertyName, field]

theorem propertyName_eq (kind : p.kind = q.kind) (name : p.name = q.name) :
    p.propertyName = q.propertyName := by
  simp [propertyName, kind, name]

theorem propertyName_of_reaches {step : Step} (first : step.reaches p) (second : step.reaches q) :
    p.propertyName = q.propertyName := by
  cases step <;>
    · simp only [Step.reaches_assign, Step.reaches_call] at first second
      exact propertyName_eq (first.1.trans second.1.symm) (first.2.symm.trans second.2)

theorem setter?_eq_none : setter? points property = none ↔
    ∀ q ∈ points, q.kind = .method → q.propertyName ≠ property := by
  rw [setter?, Option.map_eq_none_iff, List.getLast?_eq_none_iff, List.filter_eq_nil_iff]
  simp

theorem mem_of_setter? (found : setter? points property = some method) :
    ∃ q ∈ points, q.kind = .method ∧ q.propertyName = property ∧ q.name = method := by
  obtain ⟨q, last, rfl⟩ := Option.map_eq_some_iff.mp found
  obtain ⟨mem, own⟩ := List.mem_filter.mp (List.mem_of_getLast? last)
  simp only [Bool.and_eq_true, decide_eq_true_eq, beq_iff_eq] at own
  exact ⟨q, mem, own.1, own.2, rfl⟩

theorem inCharge_of_distinct (distinct : (points.map (·.propertyName)).Nodup) (mem : p ∈ points) :
    p.InCharge points := by
  have only (q : InjectionPoint) (listed : q ∈ points) (same : q.propertyName = p.propertyName) :
      q = p := List.inj_on_of_nodup_map distinct listed mem same
  unfold InCharge
  cases kind : p.kind with
  | field =>
    rw [setter?_eq_none]
    intro q listed method same
    rw [only q listed same, kind] at method
    cases method
  | method =>
    cases found : setter? points p.propertyName with
    | some method =>
      obtain ⟨q, listed, -, same, rfl⟩ := mem_of_setter? found
      rw [only q listed same]
    | none => exact absurd rfl (setter?_eq_none.mp found p mem kind)

end InjectionPoint

def explicitStep (points : List InjectionPoint) (entry : String × Value) : Step :=
  match setter? points entry.1 with
  | some method => .call method { positional := [entry.2] }
  | none => .assign entry.1 entry.2

section
variable {points : List InjectionPoint} {explicit : Entries Value} {p : InjectionPoint}
  {k : String} {v : Value}

theorem steps_planExplicit (points : List InjectionPoint) (explicit : Entries Value) :
    (planExplicit points explicit).map (·.step) = explicit.map (explicitStep points) := by
  rw [planExplicit, List.map_map]
  rfl

theorem explicitStep_of_inCharge (inCharge : p.InCharge points) :
    explicitStep points (p.propertyName, v) = p.replacement v := by
  unfold InjectionPoint.InCharge at inCharge
  unfold explicitStep InjectionPoint.replacement
  cases kind : p.kind with
  | field =>
    simp only [inCharge, kind]
    rw [InjectionPoint.propertyName_of_field kind]
  | method => simp only [inCharge, kind]

theorem explicitStep_reaches :
    (explicitStep points (k, v)).reaches p = (p.InCharge points && k == p.propertyName) := by
  rw [Bool.eq_iff_iff, Bool.and_eq_true, decide_eq_true_eq, beq_iff_eq]
  constructor
  · intro reaches
    unfold explicitStep at reaches
    unfold InjectionPoint.InCharge
    cases found : setter? points k with
    | none =>
      simp only [found, Step.reaches_assign] at reaches
      have same : k = p.propertyName := by
        rw [InjectionPoint.propertyName_of_field reaches.1, reaches.2]
      rw [← same, found, reaches.1]
      exact ⟨rfl, rfl⟩
    | some method =>
      simp only [found, Step.reaches_call] at reaches
      obtain ⟨q, -, kind, property, name⟩ := InjectionPoint.mem_of_setter? found
      have same : k = p.propertyName := by
        rw [← property]
        exact InjectionPoint.propertyName_eq (kind.trans reaches.1.symm) (name.trans reaches.2)
      rw [← same, found, reaches.1, reaches.2]
      exact ⟨rfl, rfl⟩
  · rintro ⟨inCharge, rfl⟩
    rw [explicitStep_of_inCharge inCharge]
    unfold InjectionPoint.replacement
    cases kind : p.kind <;> simp [kind]

/-- Of the steps for explicit values exactly one gives the value to a point that stands for its
property, and none to any other point. -/
theorem explicit_reaches (distinct : explicit.names.Nodup)
    (covered : explicit.lookup p.propertyName = some v) :
    (explicit.map (explicitStep points)).filter (·.reaches p) =
      if p.InCharge points then [p.replacement v] else [] := by
  rw [List.filter_map]
  have reach : (Step.reaches p ∘ explicitStep points) =
      fun entry => decide (p.InCharge points) && entry.1 == p.propertyName := by
    funext entry
    exact explicitStep_reaches
  rw [reach]
  by_cases inCharge : p.InCharge points
  · simp only [inCharge, decide_true, Bool.true_and, if_true]
    rw [Entries.filter_name distinct covered, List.map_singleton, explicitStep_of_inCharge inCharge]
  · simp [inCharge]

theorem explicit_assigns (distinct : explicit.names.Nodup) (given : explicit.lookup k = some v)
    (free : ∀ p ∈ points, p.propertyName ≠ k) :
    (explicit.map (explicitStep points)).filter (·.assigns k) = [.assign k v] := by
  have noSetter : setter? points k = none :=
    InjectionPoint.setter?_eq_none.mpr fun q mem _ => free q mem
  have assigns : (Step.assigns k ∘ explicitStep points) = fun entry => entry.1 == k := by
    funext ⟨name, x⟩
    by_cases same : name = k
    · subst same
      simp [explicitStep, noSetter, Step.assigns]
    · have other : (name == k) = false := by simpa using same
      cases found : setter? points name <;> simp [explicitStep, found, Step.assigns, other]
  rw [List.filter_map, assigns, Entries.filter_name distinct given, List.map_singleton,
    explicitStep, noSetter]

end

namespace Arguments
variable {ps : List Parameter} {x : Parameter} {v : Value} {title : String} {bound : Entries Value}

theorem filter_isPositional (single : ps.filter (!·.isVariadic) = [x]) :
    ps.filter (·.isPositional) = if x.isPositional then [x] else [] := by
  have narrower : ps.filter (·.isPositional) =
      (ps.filter (!·.isVariadic)).filter (·.isPositional) := by
    rw [List.filter_filter]
    refine List.filter_congr fun p _ => ?_
    cases kind : p.kind <;> simp [Parameter.isPositional, Parameter.isVariadic, kind]
  rw [narrower, single]
  cases own : x.isPositional <;> simp [own]

theorem mem_of_bind_single (single : ps.filter (!·.isVariadic) = [x])
    (binds : ({ positional := [v] } : Arguments).bind title ps = .ok bound) :
    (x.name, if x.isPositional then v else .data (x.default.getD .null)) ∈ bound := by
  obtain ⟨listed, plain⟩ := List.mem_filter.mp (single ▸ List.mem_singleton_self x)
  have filled : ({ positional := [v] } : Arguments).filled ps =
      if x.isPositional then [(x.name, v)] else [] := by
    unfold filled
    rw [filter_isPositional single]
    cases x.isPositional <;> rfl
  unfold bind at binds
  split at binds
  · cases binds
  rw [show ({ positional := [v] } : Arguments).unclaimed ps = [] from rfl] at binds
  obtain ⟨entry, own, received⟩ := Outcome.exists_mem_of_mapM binds listed
  obtain ⟨value, made, same⟩ := Outcome.bind_eq_ok.mp received
  cases same
  have value_eq : (if x.isPositional then v else .data (x.default.getD .null)) = value := by
    unfold valueOf at made
    rw [filled] at made
    clear binds filled own received
    cases kind : x.kind <;> cases default : x.default <;>
      simp_all [Parameter.isPositional, Parameter.isVariadic]
  rw [value_eq]
  exact own

end Arguments

namespace Run
variable {perform : Perform} {registry component : String} {explicit : Entries Value}
  {points : List InjectionPoint} {p : InjectionPoint} {st next last : Store} {target v : Value}

/-- Points with explicit values might as well not be there. -/
theorem planPoints_uncovered : planPoints perform registry component explicit points =
    planPoints perform registry component [] (points.filter (·.uncovered explicit)) := by
  induction points with
  | nil => rfl
  | cons p points ih =>
    cases given : explicit.lookup p.propertyName with
    | some v =>
      have covered : p.uncovered explicit = false := by simp [InjectionPoint.uncovered, given]
      rw [planPoints_covered given, ih, List.filter_cons, if_neg (by simp [covered])]
    | none =>
      have uncovered : p.uncovered explicit = true := by simp [InjectionPoint.uncovered, given]
      rw [planPoints_cons given, ih, List.filter_cons, if_pos uncovered, planPoints_cons rfl]

theorem reaches_of_planPoint {step : Planned}
    (planned : exec (planPoint perform registry component p) st = (.ok (some step), next)) :
    step.step.reaches p := by
  unfold planPoint at planned
  cases kind : p.kind with
  | field =>
    cases requests : p.requests with
    | nil =>
      rw [kind, requests] at planned
      cases planned
    | cons q qs =>
      rw [kind, requests] at planned
      dsimp only at planned
      unfold planField at planned
      obtain ⟨result, now, -, planned⟩ := exec_bind_eq_ok.mp planned
      split at planned
      · cases planned
      · cases planned
      · obtain ⟨value, reached, -, planned⟩ := exec_bind_eq_ok.mp planned
        cases planned
        simp [kind]
  | method =>
    rw [kind] at planned
    obtain ⟨values, now, -, planned⟩ := exec_bind_eq_ok.mp planned
    cases values with
    | none => cases planned
    | some values =>
      cases planned
      simp [kind]

theorem reaches_of_planPoints {planned : List Planned}
    (ran : exec (planPoints perform registry component [] points) st = (.ok planned, next)) :
    ∀ step ∈ planned, ∃ p ∈ points, step.step.reaches p := by
  induction points generalizing st planned with
  | nil =>
    cases ran
    simp
  | cons p points ih =>
    rw [planPoints_cons rfl] at ran
    obtain ⟨first, now, here, ran⟩ := exec_bind_eq_ok.mp ran
    obtain ⟨rest, last, later, ran⟩ := exec_bind_eq_ok.mp ran
    cases ran
    intro step mem
    rcases List.mem_append.mp mem with own | further
    · cases first with
      | none => contradiction
      | some first =>
        cases List.mem_singleton.mp own
        exact ⟨p, List.mem_cons_self, reaches_of_planPoint here⟩
    · obtain ⟨q, listed, reaches⟩ := ih later step further
      exact ⟨q, List.mem_cons_of_mem _ listed, reaches⟩

section
variable {planned : List Planned} (ran : exec (planPoints perform registry component []
  (points.filter (·.uncovered explicit))) st = (.ok planned, next))
include ran

theorem filter_planned_eq_nil {test : Step → Bool}
    (apart : ∀ q ∈ points, q.uncovered explicit → ∀ step : Step, step.reaches q → ¬ test step) :
    (planned.map (·.step)).filter test = [] := by
  rw [List.filter_eq_nil_iff]
  intro step mem
  obtain ⟨planned, listed, rfl⟩ := List.mem_map.mp mem
  obtain ⟨q, among, own⟩ := reaches_of_planPoints ran planned listed
  obtain ⟨mem, uncovered⟩ := List.mem_filter.mp among
  exact apart q mem uncovered planned.step own

theorem not_reaches_covered (covered : explicit.lookup p.propertyName = some v) :
    (planned.map (·.step)).filter (·.reaches p) = [] := by
  refine filter_planned_eq_nil ran fun q _ uncovered step own reaches => ?_
  rw [InjectionPoint.uncovered, ← InjectionPoint.propertyName_of_reaches reaches own, covered]
    at uncovered
  cases uncovered

theorem not_assigns_free {k : String} (free : ∀ p ∈ points, p.propertyName ≠ k) :
    (planned.map (·.step)).filter (·.assigns k) = [] := by
  refine filter_planned_eq_nil ran fun q mem _ step own assigns => free q mem ?_
  cases step with
  | call method a => cases assigns
  | assign name x =>
    simp only [Step.reaches_assign, Step.assigns_assign] at own assigns
    rw [InjectionPoint.propertyName_of_field own.1, ← own.2, assigns]

end

structure Answers (st : Store) (target : Value) (method : String) (f : Function) : Prop where
  unhooked : hook? st.world (st.classOf target) readMethod = none
  found : st.world.find st.heap target method = .onObject (.method f)
  onTarget : f.subject = .receiver

theorem exec_callAttribute_single {method : String} {f : Function}
    (answers : Answers st target method f) :
    exec (callAttribute perform target method { positional := [v] }) st = exec (do
      runBody perform f target (← bindArguments f { positional := [v] })) st := by
  have sent : callAttribute perform target method { positional := [v] } =
      sendFound perform target method { positional := [v] } := by
    cases target with
    | factory q registry => exact if_neg (by simp [Arguments.isEmpty])
    | _ => rfl
  rw [sent, sendFound, exec_bind_of_ok (exec_get st)]
  simp only [answers.unhooked, answers.found, callMember, invoke, answers.onTarget]

/-- The method is called with the value. If it is a function with one parameter, its body runs on
the target, once, and the value is that of the parameter. -/
def Delivers (perform : Perform) (target : Value) (method : String) (v : Value)
    (now next : Store) : Prop :=
  ∃ result,
    exec (callAttribute perform target method { positional := [v] }) now = (.ok result, next) ∧
    ∀ f x, Answers now target method f → f.parameters.filter (!·.isVariadic) = [x] →
      ∃ bound, (x.name, if x.isPositional then v else .data (x.default.getD .null)) ∈ bound ∧
        exec (runBody perform f target bound) now = (.ok result, next)

theorem delivers_of_takeStep {method : String} {done : Undo}
    (taken : exec (takeStep perform target (.call method { positional := [v] })) st =
      (.ok done, next)) : Delivers perform target method v st next := by
  obtain ⟨result, now, called, taken⟩ := exec_bind_eq_ok.mp taken
  cases taken
  refine ⟨result, called, fun f x answers single => ?_⟩
  rw [exec_callAttribute_single answers] at called
  obtain ⟨bound, now, bindsTo, ran⟩ := exec_bind_eq_ok.mp called
  unfold bindArguments at bindsTo
  split at bindsTo
  · rename_i bound' binds
    cases bindsTo
    exact ⟨bound, Arguments.mem_of_bind_single single binds, ran⟩
  · cases bindsTo

/-- Explicit values are given out by property. The points that have one are not planned, nothing is
resolved or recorded for them, and no other step reaches them. A point receives the value if it
stands for its property, in exactly one step: an assignment, or a call of the method with the value.
All others receive nothing. A value for no point is assigned once. If no property is shared, all
points stand for theirs. -/
theorem inject_explicit {m : Metadata} (distinct : explicit.names.Nodup)
    (ran : exec (inject perform registry component m explicit target) st = (.ok (), last)) :
    ∃ planned resolved done taken steps,
      exec (planPoints perform registry component [] (m.points.filter (·.uncovered explicit))) st =
        (.ok planned, resolved) ∧
      steps = planned ++ planExplicit m.points explicit ∧
      Takes perform target resolved steps done taken ∧
      last = taken.setRegistry registry
        ((taken.registry registry).record (planned.flatMap (·.injected)) component) ∧
      (∀ p ∈ m.points, ∀ v, explicit.lookup p.propertyName = some v →
        (steps.map (·.step)).filter (·.reaches p) =
          if p.InCharge m.points then [p.replacement v] else []) ∧
      (∀ p ∈ m.points, ∀ v, explicit.lookup p.propertyName = some v → p.kind = .method →
        p.InCharge m.points →
        ∃ front call back before rest now next, steps = front ++ call :: back ∧
          Takes perform target resolved front before now ∧
          Delivers perform target p.name v now next ∧
          Takes perform target next back rest taken) ∧
      (∀ k v, explicit.lookup k = some v → (∀ p ∈ m.points, p.propertyName ≠ k) →
        (steps.map (·.step)).filter (·.assigns k) = [.assign k v]) ∧
      ((m.points.map (·.propertyName)).Nodup → ∀ p ∈ m.points, p.InCharge m.points) := by
  obtain ⟨planned, resolved, planning, ran⟩ := exec_bind_eq_ok.mp ran
  obtain ⟨_, taken, applying, recording⟩ := exec_bind_eq_ok.mp ran
  rw [planPoints_uncovered] at planning
  obtain ⟨done, takes⟩ := exec_takeSteps_eq_ok.mp applying
  have reached (p : InjectionPoint) (v : Value) (given : explicit.lookup p.propertyName = some v) :
      ((planned ++ planExplicit m.points explicit).map (·.step)).filter (·.reaches p) =
        if p.InCharge m.points then [p.replacement v] else [] := by
    rw [List.map_append, List.filter_append, not_reaches_covered planning given,
      steps_planExplicit, explicit_reaches distinct given, List.nil_append]
  refine ⟨planned, resolved, done, taken, _, planning, rfl, takes, ?_, fun p _ => reached p, ?_,
    ?_, ?_⟩
  · cases recording
    rfl
  · intro p _ v given method inCharge
    have step := reached p v given
    rw [if_pos inCharge] at step
    have listed := (List.mem_filter.mp (step ▸ List.mem_singleton_self _)).1
    obtain ⟨call, mem, isCall⟩ := List.mem_map.mp listed
    obtain ⟨front, back, parts⟩ := List.append_of_mem mem
    rw [parts] at takes
    obtain ⟨before, _, _, rest, now, next, earlier, here, later, -⟩ := takes.split
    rw [isCall, InjectionPoint.replacement, method] at here
    exact ⟨front, call, back, before, rest, now, next, parts, earlier, delivers_of_takeStep here,
      later⟩
  · intro k v given free
    rw [List.map_append, List.filter_append, not_assigns_free planning free,
      steps_planExplicit, explicit_assigns distinct given free, List.nil_append]
  · exact fun apart p mem => InjectionPoint.inCharge_of_distinct apart mem

end Run

/-! A bench takes a lamp as a field and a clock through a method; both are given, and a color that
it has no point for. A stand takes the clock as a field and through a method: the method is called,
the field is left without a value. -/
namespace Bench
open Run

def marked : Marker := Marker.make .autowired

def setter (owner : String) : Function where
  name := "set_clock"
  owner := owner
  parameters := [{ name := "clock", type := some (.cls (.declared 0)) }]
  markers := [marked]
  body := .steps [.setParameter "_clock" "clock"]

def cls (name : String) (n : Nat) (field : String) : ClassInfo where
  name := name
  qualifiedName := name
  bases := [.builtin .object]
  layout := { attributes := true }
  linearization := [.declared n, .builtin .object]
  members := [("__dict__", .native .computed), (field, .marker marked),
    ("set_clock", .method (setter name))]
  annotations := [(field, .cls (.declared 0))]

def workshop : World where
  moduleName := "workshop"
  classes := [{
    name := "Part", qualifiedName := "Part", bases := [.builtin .object]
    linearization := [.declared 0, .builtin .object] },
    cls "Bench" 1 "lamp", cls "Stand" 2 "clock"]

def store : Store where
  world := workshop
  heap := [{ cls := .declared 1 }, { cls := .declared 2 }, { cls := .declared 0 },
    { cls := .declared 0 }]

def clock : String × Value := ("clock", .object 2)

def parts : Entries Value := [clock, ("lamp", .object 3), ("color", .data (.text "red"))]

def request (name : String) : Request where
  type := .cls (.declared 0)
  name := some name

def field (n : Nat) (name : String) : InjectionPoint where
  kind := .field
  name := name
  declaredBy := .declared n
  requests := [request name]
  required := true

def method (n : Nat) : InjectionPoint where
  kind := .method
  name := "set_clock"
  declaredBy := .declared n
  requests := [request "clock"]
  required := true

def bench : Metadata where
  target := .declared 1
  points := [field 1 "lamp", method 1]

def stand : Metadata where
  target := .declared 2
  points := [field 2 "clock", method 2]

def giving (step : Step) (name : String) : Planned where
  title := "explicit value '" ++ name ++ "'"
  step := step

theorem properties_bench : bench.points.map (·.propertyName) = ["lamp", "clock"] := by cbv

theorem explicit_bench : planExplicit bench.points parts =
    [giving (.call "set_clock" { positional := [.object 2] }) "clock",
      giving (.assign "lamp" (.object 3)) "lamp",
      giving (.assign "color" (.data (.text "red"))) "color"] := by cbv

theorem explicit_stand : planExplicit stand.points [clock] =
    [giving (.call "set_clock" { positional := [.object 2] }) "clock"] := by cbv

theorem planned_of_covered {component : String} {explicit : Entries Value} {m : Metadata}
    (covered : m.points.filter (·.uncovered explicit) = []) :
    exec (planPoints perform "main" component explicit m.points) store = (.ok [], store) := by
  rw [planPoints_uncovered, covered]
  rfl

theorem bench_injected : ∃ after,
    exec (inject perform "main" "bench" bench parts (.object 0)) store = (.ok (), after) := by
  unfold inject
  rw [exec_bind_of_ok (planned_of_covered (by cbv)), explicit_bench]
  exact ⟨_, rfl⟩

theorem bench_given : workshop.metadata {} (.declared 1) = .ok bench ∧ parts.names.Nodup ∧
    ∃ after,
    exec (inject perform "main" "bench" bench parts (.object 0)) store = (.ok (), after) ∧
    ∃ resolved steps done taken, Takes perform (.object 0) resolved steps done taken ∧
      (steps.map (·.step)).filter (·.reaches (field 1 "lamp")) = [.assign "lamp" (.object 3)] ∧
      (steps.map (·.step)).filter (·.reaches (method 1)) =
        [.call "set_clock" { positional := [.object 2] }] ∧
      (steps.map (·.step)).filter (·.assigns "color") =
        [.assign "color" (.data (.text "red"))] ∧
      Answers store (.object 0) "set_clock" (setter "Bench") ∧
      ∃ now next, Delivers perform (.object 0) "set_clock" (.object 2) now next := by
  have distinct : parts.names.Nodup := by decide
  obtain ⟨after, ran⟩ := bench_injected
  obtain ⟨planned, resolved, done, taken, steps, -, -, takes, -, reached, called, assigned, own⟩ :=
    inject_explicit distinct ran
  have inCharge := own (by rw [properties_bench]; decide)
  have lamp : field 1 "lamp" ∈ bench.points := List.mem_cons_self
  have clock : method 1 ∈ bench.points := List.mem_cons_of_mem _ List.mem_cons_self
  have given : parts.lookup (method 1).propertyName = some (.object 2) := by cbv
  have free : ∀ p ∈ bench.points, p.propertyName ≠ "color" := by
    intro p mem
    have listed := List.mem_map_of_mem (f := InjectionPoint.propertyName) mem
    rw [properties_bench] at listed
    intro same
    rw [same] at listed
    revert listed
    decide
  obtain ⟨_, _, _, _, _, now, next, -, -, delivers, -⟩ :=
    called _ clock _ given rfl (inCharge _ clock)
  refine ⟨by rfl, distinct, after, ran, resolved, steps, done, taken, takes, ?_, ?_,
    assigned "color" _ rfl free, ⟨rfl, rfl, rfl⟩, now, next, delivers⟩
  · rw [reached _ lamp _ rfl, if_pos (inCharge _ lamp)]
    rfl
  · rw [reached _ clock _ given, if_pos (inCharge _ clock)]
    rfl

/-- The clock goes to the method, so the field of the same property is not assigned. -/
theorem stand_clock_lost : workshop.metadata {} (.declared 2) = .ok stand ∧ ∃ after,
    exec (inject perform "main" "stand" stand [clock] (.object 1)) store = (.ok (), after) ∧
    (field 2 "clock").propertyName = "clock" ∧ field 2 "clock" ∈ stand.points ∧
    ((planExplicit stand.points [clock]).map (·.step)).filter (·.reaches (field 2 "clock")) = [] ∧
    (World.ownAttributes after.heap (.object 1)).names = ["_clock"] := by
  refine ⟨by rfl, ?_⟩
  unfold inject
  rw [exec_bind_of_ok (planned_of_covered (by cbv)), explicit_stand]
  exact ⟨_, rfl, rfl, List.mem_cons_self, by rfl, by rfl⟩

end Bench
end Wiring
