import Mathlib
import Wiring.Proofs.Run
import Wiring.Proofs.Registry.Resolution

/-! When an ambiguous request stops an injection. It does as soon as its turn comes, at required and
at optional points. But the requests of a method are resolved one after the other, and an optional
method is given up at the first of them that finds nothing: the turn of the later ones never comes.
-/
namespace Wiring

namespace InjectionPoint

/-- The requests that decide on the point. A field looks at its first one only. -/
def decisive (p : InjectionPoint) : List Request :=
  match p.kind with
  | .field => p.requests.take 1
  | .method => p.requests

/-- The failure of a request is an error: too many candidates always, and none if the point is not
an optional method. -/
def Fatal (p : InjectionPoint) : Failure → Prop
  | .notFound _ => p.kind = .field ∨ p.required
  | .ambiguous .. => True

end InjectionPoint

namespace Run

/-- How a request whose turn has come stops the injection: resolving it is an error, it fails and
the point cannot do without it, or a component that it resolves to cannot be had. -/
inductive Obstructs (perform : Perform) (registry component : String) (p : InjectionPoint)
    (q : Request) (now : Store) : Error → Store → Prop
  | refused {e : Error} : now.resolve registry q = .error e →
    Obstructs perform registry component p q now e now
  | failed {f : Failure} : now.resolve registry q = .ok (.failure f) → p.Fatal f →
    Obstructs perform registry component p q now
      (.injection component p.describe (f.toError p.describe)) now
  | unavailable {result : Resolution} {e : Error} {after : Store} :
    now.resolve registry q = .ok result → result.failure? = none →
    exec (materialise perform registry q result) now = (.error e, after) →
    Obstructs perform registry component p q now e after

variable {perform : Perform} {registry component : String} {explicit : Entries Value}
  {p : InjectionPoint} {q : Request} {st now last : Store} {e : Error}

theorem exec_resolveNow (handle : ¬ q.isLazy) :
    exec (resolveNow registry q) st = (st.resolve registry q, st) := by
  unfold resolveNow resolve
  rw [if_neg handle, exec_bind, exec_get]
  dsimp only
  cases st.resolve registry q <;> rfl

theorem planPoints_append (before rest : List InjectionPoint) :
    planPoints perform registry component explicit (before ++ rest) = do
      let first ← planPoints perform registry component explicit before
      let second ← planPoints perform registry component explicit rest
      return first ++ second := by
  induction before with
  | nil => simp [planPoints]
  | cons p before ih =>
    rw [List.cons_append, planPoints, planPoints, ih]
    split
    · rfl
    · simp only [bind_assoc, pure_bind, List.append_assoc]

theorem planParameters_append (earlier later : List Request) :
    planParameters perform registry component p (earlier ++ later) = do
      match ← planParameters perform registry component p earlier with
      | none => return none
      | some values =>
        return (← planParameters perform registry component p later).map (values ++ ·) := by
  induction earlier with
  | nil => simp [planParameters]
  | cons q earlier ih =>
    rw [List.cons_append, planParameters, planParameters, ih]
    simp only [bind_assoc]
    congr
    funext result
    cases result with
    | failure f =>
      cases f with
      | notFound r => by_cases required : p.required <;> simp [required]
      | ambiguous r cs => simp
    | _ =>
      simp only [bind_assoc, pure_bind]
      congr
      funext value
      congr
      funext values
      cases values <;> simp [Function.comp_def]

theorem exec_planParameters_missing (handle : ¬ q.isLazy) (optional : p.required = false)
    (missing : now.resolve registry q = .ok (.failure (.notFound q))) (later : List Request) :
    exec (planParameters perform registry component p (q :: later)) now = (.ok none, now) := by
  rw [planParameters, exec_bind_of_ok ((exec_resolveNow handle).trans (by rw [missing]))]
  simp [optional]

theorem exec_planParameters_found {result : Resolution} (found : result.failure? = none)
    (resolved : exec (resolveNow registry q) st = (.ok result, now)) (later : List Request) :
    exec (planParameters perform registry component p (q :: later)) st = exec (do
      let value ← materialise perform registry q result
      let rest ← planParameters perform registry component p later
      return rest.map ((q, value, q.injected result) :: ·)) now := by
  rw [planParameters, exec_bind_of_ok resolved]
  cases result with
  | failure f => cases found
  | _ => rfl

theorem exec_planParameters_obstructed (method : p.kind = .method) (handle : ¬ q.isLazy)
    (obstructs : Obstructs perform registry component p q now e last) (later : List Request) :
    exec (planParameters perform registry component p (q :: later)) now = (.error e, last) := by
  cases obstructs with
  | refused resolved =>
    rw [planParameters, exec_bind_of_error ((exec_resolveNow handle).trans (by rw [resolved]))]
  | @failed f resolved fatal =>
    rw [planParameters, exec_bind_of_ok ((exec_resolveNow handle).trans (by rw [resolved]))]
    cases f with
    | notFound r =>
      have required : p.required := by simpa [InjectionPoint.Fatal, method] using fatal
      simp [required]
    | ambiguous r tied => rfl
  | unavailable resolved found missed =>
    rw [exec_planParameters_found found ((exec_resolveNow handle).trans (by rw [resolved])),
      exec_bind_of_error missed]

/-- Parameters are given up only for an optional point, at a request that finds nothing. -/
theorem missing_of_planParameters {requests : List Request}
    (given : exec (planParameters perform registry component p requests) st = (.ok none, now)) :
    p.required = false ∧ ∃ front q back values, requests = front ++ q :: back ∧ ¬ q.isLazy ∧
      exec (planParameters perform registry component p front) st = (.ok (some values), now) ∧
      now.resolve registry q = .ok (.failure (.notFound q)) := by
  induction requests generalizing st with
  | nil => cases given
  | cons q requests ih =>
    have opened := given
    rw [planParameters] at opened
    obtain ⟨result, next, resolved, opened⟩ := exec_bind_eq_ok.mp opened
    cases failed : result.failure? with
    | none =>
      rw [exec_planParameters_found failed resolved] at given
      obtain ⟨value, reached, materialised, given⟩ := exec_bind_eq_ok.mp given
      obtain ⟨rest, last, planned, given⟩ := exec_bind_eq_ok.mp given
      cases rest with
      | some values => cases given
      | none =>
        cases given
        obtain ⟨optional, front, q', back, values, rfl, handle, walked, missing⟩ := ih planned
        refine ⟨optional, q :: front, q', back, (q, value, q.injected result) :: values, rfl,
          handle, ?_, missing⟩
        rw [exec_planParameters_found failed resolved, exec_bind_of_ok materialised,
          exec_bind_of_ok walked]
        rfl
    | some f =>
      cases result <;> cases failed
      have handle : ¬ q.isLazy := by
        intro handle
        rw [resolveNow, if_pos handle] at resolved
        cases resolved
      rw [exec_resolveNow handle] at resolved
      obtain ⟨failed, rfl⟩ := Prod.mk.inj resolved
      rcases Registry.resolve_failure failed with rfl | ⟨tied, rfl⟩
      · by_cases required : p.required
        · simp [required] at opened
        · simp only [required, Bool.false_eq_true, if_false, exec_pure, Prod.mk.injEq] at opened
          obtain ⟨_, rfl⟩ := opened
          exact ⟨by simpa using required, [], q, requests, [], rfl, handle, rfl, failed⟩
      · cases opened

/-- In the store `now` it is the turn of the request of `p` that comes after `earlier`: the points
before `p` have been planned, and the earlier requests have values. -/
def Turn (perform : Perform) (registry component : String) (explicit : Entries Value)
    (before : List InjectionPoint) (p : InjectionPoint) (earlier : List Request)
    (st now : Store) : Prop :=
  ∃ planned reached values,
    exec (planPoints perform registry component explicit before) st = (.ok planned, reached) ∧
    exec (planParameters perform registry component p earlier) reached = (.ok (some values), now)

variable {before after : List InjectionPoint} {earlier later : List Request}

theorem exec_planField_obstructed (handle : ¬ q.isLazy)
    (obstructs : Obstructs perform registry component p q now e last) :
    exec (planField perform registry component p q) now = (.error e, last) := by
  cases obstructs with
  | refused resolved =>
    rw [planField, exec_bind_of_error ((exec_resolveNow handle).trans (by rw [resolved]))]
  | failed resolved fatal =>
    rw [planField, exec_bind_of_ok ((exec_resolveNow handle).trans (by rw [resolved]))]
    rfl
  | @unavailable result e last resolved found missed =>
    rw [planField, exec_bind_of_ok ((exec_resolveNow handle).trans (by rw [resolved]))]
    cases result with
    | failure f => cases found
    | empty =>
      rw [materialise, if_neg handle] at missed
      cases missed
    | _ => exact exec_bind_of_error missed _

theorem exec_planPoint_obstructed {values : List (Request × Value × List Candidate)}
    (asked : p.decisive = earlier ++ q :: later) (handle : ¬ q.isLazy)
    (walked : exec (planParameters perform registry component p earlier) st =
      (.ok (some values), now))
    (obstructs : Obstructs perform registry component p q now e last) :
    exec (planPoint perform registry component p) st = (.error e, last) := by
  unfold InjectionPoint.decisive at asked
  unfold planPoint
  cases kind : p.kind with
  | field =>
    rw [kind] at asked
    cases requests : p.requests with
    | nil => simp [requests] at asked
    | cons first rest =>
      rw [requests] at asked
      obtain ⟨rfl, rfl⟩ : earlier = [] ∧ first = q := by
        cases earlier <;> simp_all
      cases walked
      exact exec_planField_obstructed handle obstructs
  | method =>
    rw [kind] at asked
    dsimp only at asked ⊢
    rw [planMethod, asked, planParameters_append]
    apply exec_bind_of_error
    rw [exec_bind_of_ok walked]
    dsimp only
    rw [exec_bind_of_error (exec_planParameters_obstructed kind handle obstructs later)]

theorem exec_planPoint_ambiguous {tied : List Candidate}
    {values : List (Request × Value × List Candidate)}
    (asked : p.decisive = earlier ++ q :: later) (handle : ¬ q.isLazy)
    (walked : exec (planParameters perform registry component p earlier) st =
      (.ok (some values), now))
    (ambiguous : now.resolve registry q = .ok (.failure (.ambiguous q tied))) :
    exec (planPoint perform registry component p) st = (.error (.injection component p.describe
      (.ambiguous q.type (tied.map (·.name)) (some p.describe))), now) :=
  exec_planPoint_obstructed asked handle walked (.failed ambiguous trivial)

theorem planPoints_covered {x : Value} (covered : explicit.lookup p.propertyName = some x) :
    planPoints perform registry component explicit (p :: after) =
      planPoints perform registry component explicit after := by
  rw [planPoints, covered]
  rfl

theorem planPoints_cons (uncovered : explicit.lookup p.propertyName = none) :
    planPoints perform registry component explicit (p :: after) = do
      let planned ← planPoint perform registry component p
      return planned.toList ++ (← planPoints perform registry component explicit after) := by
  rw [planPoints, uncovered]
  rfl

/-- What planning a point takes, if it succeeds: the turn of every request comes, unless the point
is optional and one of the requests before finds nothing. -/
theorem turn_of_planPoint {planned : List Planned} {reached last : Store} {step : Option Planned}
    (asked : p.decisive = earlier ++ q :: later)
    (first : exec (planPoints perform registry component explicit before) st =
      (.ok planned, reached))
    (ran : exec (planPoint perform registry component p) reached = (.ok step, last)) :
    (∃ now, Turn perform registry component explicit before p earlier st now) ∨
      p.kind = .method ∧ p.required = false ∧ ∃ front q' back now, earlier = front ++ q' :: back ∧
        Turn perform registry component explicit before p front st now ∧ ¬ q'.isLazy ∧
        now.resolve registry q' = .ok (.failure (.notFound q')) := by
  unfold InjectionPoint.decisive at asked
  unfold planPoint at ran
  cases kind : p.kind with
  | field =>
    rw [kind] at asked
    have head : earlier = [] := by
      cases requests : p.requests <;> cases earlier <;> simp_all
    rw [head]
    exact .inl ⟨reached, planned, reached, [], first, rfl⟩
  | method =>
    rw [kind] at asked ran
    dsimp only at asked ran
    rw [planMethod, asked, planParameters_append] at ran
    obtain ⟨_, _, walked, _⟩ := exec_bind_eq_ok.mp ran
    obtain ⟨values, now, walked, _⟩ := exec_bind_eq_ok.mp walked
    cases values with
    | some values => exact .inl ⟨now, planned, reached, values, first, walked⟩
    | none =>
      obtain ⟨optional, front, q', back, values, parts, handle, given, missing⟩ :=
        missing_of_planParameters walked
      exact .inr ⟨rfl, optional, front, q', back, now, parts,
        ⟨planned, reached, values, first, given⟩, handle, missing⟩

/-- A request that is ambiguous when its turn comes stops the injection, wherever it stands and
whether or not its point is required. Of an injection that ends well every request had its turn, but
for those of an optional method with a request before them that found nothing. -/
theorem inject_ambiguous {m : Metadata} {target : Value} (place : m.points = before ++ p :: after)
    (uncovered : explicit.lookup p.propertyName = none)
    (asked : p.decisive = earlier ++ q :: later) (handle : ¬ q.isLazy) :
    (∀ now tied, Turn perform registry component explicit before p earlier st now →
      now.resolve registry q = .ok (.failure (.ambiguous q tied)) →
      exec (inject perform registry component m explicit target) st =
        (.error (.injection component p.describe
          (.ambiguous q.type (tied.map (·.name)) (some p.describe))), now)) ∧
    (∀ last, exec (inject perform registry component m explicit target) st = (.ok (), last) →
      (∃ now, Turn perform registry component explicit before p earlier st now ∧
        ∀ tied, now.resolve registry q ≠ .ok (.failure (.ambiguous q tied))) ∨
      p.kind = .method ∧ p.required = false ∧ ∃ front q' back now, earlier = front ++ q' :: back ∧
        Turn perform registry component explicit before p front st now ∧ ¬ q'.isLazy ∧
        now.resolve registry q' = .ok (.failure (.notFound q'))) := by
  have fatal : ∀ now tied, Turn perform registry component explicit before p earlier st now →
      now.resolve registry q = .ok (.failure (.ambiguous q tied)) →
      exec (inject perform registry component m explicit target) st =
        (.error (.injection component p.describe
          (.ambiguous q.type (tied.map (·.name)) (some p.describe))), now) := by
    rintro now tied ⟨planned, reached, values, first, walked⟩ ambiguous
    have stuck := exec_planPoint_ambiguous asked handle walked ambiguous
    unfold inject
    apply exec_bind_of_error
    rw [place, planPoints_append, exec_bind_of_ok first, planPoints_cons uncovered]
    apply exec_bind_of_error
    exact exec_bind_of_error stuck _
  refine ⟨fatal, fun last ended => ?_⟩
  have whole := ended
  unfold inject at whole
  rw [place, planPoints_append, planPoints_cons uncovered] at whole
  obtain ⟨_, _, all, _⟩ := exec_bind_eq_ok.mp whole
  obtain ⟨planned, reached, first, rest⟩ := exec_bind_eq_ok.mp all
  obtain ⟨_, _, here, _⟩ := exec_bind_eq_ok.mp rest
  obtain ⟨step, next, ran, _⟩ := exec_bind_eq_ok.mp here
  rcases turn_of_planPoint asked first ran with ⟨now, turn⟩ | passed
  · refine .inl ⟨now, turn, fun tied ambiguous => ?_⟩
    have failed := fatal now tied turn ambiguous
    rw [ended] at failed
    cases failed
  · exact .inr passed

end Run

/-! A shelf and a desk take a lamp and a clock if they can. With two lamps and no clock, the shelf,
which asks for the lamp first, is an error. The desk asks for the clock first and is left as it is.
-/
namespace Desk
open Run

def optional : Marker := (Marker.make .autowired).set "required" (.bool false)

def setter (owner : String) (parameters : List (String × Nat)) : Function where
  name := "set_parts"
  owner := owner
  parameters := parameters.map fun (name, n) => { name, type := some (.cls (.declared n)) }
  markers := [optional]

def cls (name : String) (n : Nat) (members : Namespace) : ClassInfo where
  name := name
  qualifiedName := name
  bases := [.builtin .object]
  linearization := [.declared n, .builtin .object]
  members := members

def room : World where
  moduleName := "room"
  classes := [cls "Lamp" 0 [], cls "Clock" 1 [],
    cls "Shelf" 2 [("set_parts", .method (setter "Shelf" [("lamp", 0), ("clock", 1)]))],
    cls "Desk" 3 [("set_parts", .method (setter "Desk" [("clock", 1), ("lamp", 0)]))]]

def lamp (name : String) (index : Nat) : Candidate where
  name := name
  declaredType := .cls (.declared 0)
  index := index

def lamps : List Candidate := [lamp "left" 0, lamp "right" 1]

def store : Store where
  world := room
  heap := [{ cls := .declared 2 }, { cls := .declared 3 }]
  registries := [("main", { entries := lamps })]

def points (n : Nat) : Metadata := (room.metadata {} (.declared n)).toOption.getD default

def part (name : String) (n : Nat) : Request where
  type := .cls (.declared n)
  name := some name

def parts (n : Nat) (requests : List Request) : InjectionPoint where
  kind := .method
  name := "set_parts"
  declaredBy := .declared n
  requests := requests
  required := false

theorem lamp_ambiguous : store.resolve "main" (part "lamp" 0) =
    .ok (.failure (.ambiguous (part "lamp" 0) lamps)) := by cbv

theorem clock_missing : store.resolve "main" (part "clock" 1) =
    .ok (.failure (.notFound (part "clock" 1))) := by cbv

theorem shelf_fails : exec (inject perform "main" "shelf" (points 2) [] (.object 0)) store =
    (.error (.injection "shelf" "method 'set_parts(lamp, clock)'"
      (.ambiguous (.cls (.declared 0)) ["left", "right"]
        (some "method 'set_parts(lamp, clock)'"))), store) := by
  have place : (points 2).points = [] ++ parts 2 [part "lamp" 0, part "clock" 1] :: [] := by rfl
  have asked : (parts 2 [part "lamp" 0, part "clock" 1]).decisive =
      [] ++ part "lamp" 0 :: [part "clock" 1] := rfl
  have turn : Turn perform "main" "shelf" [] [] (parts 2 [part "lamp" 0, part "clock" 1]) []
      store store := ⟨[], store, [], rfl, rfl⟩
  exact (inject_ambiguous place rfl asked (by decide)).1 store lamps turn lamp_ambiguous

theorem desk_left : ∃ p ∈ (points 3).points, ∃ q ∈ p.requests, ¬ q.isLazy ∧
    store.resolve "main" q = .ok (.failure (.ambiguous q lamps)) ∧
    exec (inject perform "main" "desk" (points 3) [] (.object 1)) store = (.ok (), store) := by
  have place : (points 3).points = [parts 3 [part "clock" 1, part "lamp" 0]] := by rfl
  have given : exec (planParameters perform "main" "desk" (parts 3 [part "clock" 1, part "lamp" 0])
      [part "clock" 1, part "lamp" 0]) store = (.ok none, store) :=
    exec_planParameters_missing (by decide) rfl clock_missing _
  have planned : exec (planPoints perform "main" "desk" [] (points 3).points) store =
      (.ok [], store) := by
    rw [place, planPoints_cons rfl]
    have passed : exec (planPoint perform "main" "desk"
        (parts 3 [part "clock" 1, part "lamp" 0])) store = (.ok none, store) :=
      exec_bind_of_ok given _
    rw [exec_bind_of_ok passed]
    rfl
  refine ⟨_, by rw [place]; exact List.mem_singleton.mpr rfl, part "lamp" 0, by simp [parts],
    by decide, lamp_ambiguous, ?_⟩
  unfold inject
  rw [exec_bind_of_ok planned]
  rfl

end Desk
end Wiring
