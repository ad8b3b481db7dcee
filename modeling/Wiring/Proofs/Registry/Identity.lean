import Wiring.Proofs.Operations

/-! Which object stands behind a candidate. It is the one given last under the name of the
candidate, whatever was registered before and after; if none was given, it is made by the provider
once and then kept. Names of entries for a type are not checked, so such an entry can take the place
of another entry's object. -/
namespace Wiring

theorem Registry.Recorded.forType_of_same_name {title : String} {start finish : Store}
    {history : List Registered} {r : Registry} (recorded : Recorded title start finish history r)
    {e other : Registered} (mem : e ∈ history) (listed : other ∈ history)
    (same : other.candidate.name = e.candidate.name) (differ : other.candidate ≠ e.candidate) :
    e.candidate.resolvable ∨ other.candidate.resolvable := by
  by_contra neither
  simp only [not_or, Bool.not_eq_true] at neither
  have entry {e : Registered} (mem : e ∈ history) (named : e.candidate.resolvable = false) :
      e.candidate ∈ r.entries := by
    rw [recorded.entries, List.mem_filter]
    exact ⟨List.mem_map_of_mem mem, by simp [named]⟩
  exact differ (List.inj_on_of_nodup_map recorded.namesDistinct (entry listed neither.2)
    (entry mem neither.1) same)

namespace Run
variable {registry : String} {c : Candidate} {v : Value} {st last : Store}

theorem exec_getComponent (registry : String) (c : Candidate) (st : Store) :
    ∃ n, exec (getComponent registry c) st = exec (component (performWithin n) registry c) st := by
  have room : 0 < st.depth := by
    simp only [Store.depth]
    omega
  obtain ⟨n, depth⟩ := Nat.exists_eq_succ_of_ne_zero (Nat.ne_of_gt room)
  refine ⟨n, ?_⟩
  unfold getComponent perform
  rw [exec_bind, exec_get]
  dsimp only
  rw [depth, performWithin]

theorem fetched_getComponent (registry : String) (c : Candidate) (st : Store) :
    ∃ n, Fetched (performWithin n) registry c st (exec (getComponent registry c) st) := by
  obtain ⟨n, same⟩ := exec_getComponent registry c st
  refine ⟨n, ?_⟩
  rw [same]
  exact fetched_component _ registry c st

theorem getComponent_of_held (held : (st.registry registry).instances.lookup c.name = some v) :
    exec (getComponent registry c) st = (.ok v, st) := by
  obtain ⟨n, fetched⟩ := exec_getComponent registry c st
  rw [fetched, component, exec_bind, exec_get]
  dsimp only
  rw [held]
  rfl

theorem held_of_getComponent (got : exec (getComponent registry c) st = (.ok v, last)) :
    (last.registry registry).instances.lookup c.name = some v := by
  obtain ⟨n, fetched⟩ := fetched_getComponent registry c st
  rw [got] at fetched
  cases fetched with
  | atHand held => exact held
  | made => simp [Registry.keepReturned, Registry.keep]

/-- Whose object a candidate stands for, in every run of operations. -/
theorem getComponent_identity {title : String} {operations : List (String × Operation)}
    {history : List Registered} {now : Store} (empty : st.registry title = {})
    (ran : Operation.runAll title operations st = (history, now)) {e : Registered}
    (registered : e ∈ history) (got : exec (getComponent title e.candidate) now = (.ok v, last)) :
    (∀ x, lastGiven history e.candidate.name = some x → v = x) ∧
    (lastGiven history e.candidate.name = none →
      ∃ p, e.source = .made p ∧ Makes st last title e.candidate.name p v) ∧
    (∀ more later after, Operation.runAll title more last = (later, after) →
      lastGiven later e.candidate.name = none →
      exec (getComponent title e.candidate) after = (.ok v, after)) ∧
    (∀ x, e.source = .given x →
      (∀ other ∈ history, other.candidate.name = e.candidate.name → other = e) → v = x) ∧
    (∀ other ∈ history, other.candidate.name = e.candidate.name → other.candidate ≠ e.candidate →
      e.candidate.resolvable ∨ other.candidate.resolvable) := by
  have grown := quiet_getComponent title e.candidate now
  rw [got] at grown
  have recorded := ((evolves_runAll ran).grows grown).recorded empty
  have held := held_of_getComponent got
  have given (x : Value) (latest : lastGiven history e.candidate.name = some x) : v = x := by
    rw [recorded.given _ _ latest] at held
    exact (Option.some.inj held).symm
  refine ⟨given, ?_, ?_, ?_, ?_⟩
  · intro none
    obtain ⟨p, provider, makes⟩ := recorded.built _ _ none held
    cases source : e.source with
    | given x =>
      have some := lastGiven_isSome registered source
      rw [none] at some
      cases some
    | made own =>
      have stored := (recorded.providers e.candidate.name own).mpr ⟨e, registered, rfl, source⟩
      rw [provider] at stored
      cases stored
      exact ⟨p, rfl, makes⟩
  · intro more later after ranOn none
    exact getComponent_of_held ((evolves_runAll ranOn).registry.keeps held none)
  · intro x source alone
    obtain ⟨y, latest⟩ := Option.isSome_iff_exists.mp (lastGiven_isSome registered source)
    obtain ⟨other, mem, same, gave⟩ := mem_of_lastGiven latest
    rw [alone other mem same, source] at gave
    cases gave
    exact given x latest
  · intro other mem same differ
    exact recorded.forType_of_same_name registered mem same differ

end Run

/-! A wall with two clocks, each put up for the type, and a lamp that is made when it is asked for.
The second clock takes the place of the first. -/
namespace Wall
open Run

def room : World where
  moduleName := "room"
  classes := ["Clock", "Lamp"].mapIdx fun n name => {
    name, qualifiedName := name, bases := [.builtin .object]
    linearization := [.declared n, .builtin .object] }

def clock : Hint := .cls (.declared 0)

def lamp : Provider := .cls (.declared 1)

def store : Store where
  world := room
  heap := [{ cls := .declared 0 }, { cls := .declared 0 }]

def operations : List (String × Operation) :=
  [("main", .registerResolvable clock (.object 0)),
   ("main", .registerResolvable clock (.object 1)),
   ("main", .registerProvider "lamp" lamp {})]

def timepiece (n : Nat) : Registered where
  candidate := {
    name := "Clock@resolvable", declaredType := clock, index := n, resolvable := true }
  source := .given (.object n)

def light : Registered where
  candidate := { name := "lamp", declaredType := .cls (.declared 1), index := 2 }
  source := .made lamp

def history : List Registered := [timepiece 0, timepiece 1, light]

def now : Store := (Operation.runAll "main" operations store).2

theorem runAll_operations : Operation.runAll "main" operations store = (history, now) := by rfl

theorem lamp_kept :
    ∃ last, exec (getComponent "main" light.candidate) now = (.ok (.object 2), last) ∧
      Makes store last "main" "lamp" lamp (.object 2) ∧
      ∀ more later after, Operation.runAll "main" more last = (later, after) →
        lastGiven later "lamp" = none →
        exec (getComponent "main" light.candidate) after = (.ok (.object 2), after) := by
  have got : exec (getComponent "main" light.candidate) now =
      (.ok (.object 2), (exec (getComponent "main" light.candidate) now).2) := by rfl
  have listed : light ∈ history := by simp [history]
  have identity := getComponent_identity rfl runAll_operations listed got
  obtain ⟨p, made, makes⟩ := identity.2.1 rfl
  cases made
  exact ⟨_, got, makes, identity.2.2.1⟩

theorem first_clock_lost : ∃ e ∈ (Operation.runAll "main" operations store).1,
    e.source = .given (.object 0) ∧
      exec (getComponent "main" e.candidate) (Operation.runAll "main" operations store).2 =
        (.ok (.object 1), now) := by
  rw [runAll_operations]
  exact ⟨timepiece 0, List.mem_cons_self, rfl, rfl⟩

end Wall
end Wiring
