import Wiring.Proofs.Class.Roots
import Wiring.Proofs.Injection.Fields
import Wiring.Proofs.Injection.Steps
import Wiring.Proofs.Object.Carrying
import Wiring.Proofs.Registry.Dependencies
import Wiring.Proofs.Registry.Steadiness

/-! Injecting an object that has only fields to inject. Afterwards it has what the fields receive
among its attributes, and is otherwise as before. Injecting it once more finds all of this in
place. -/
namespace Wiring

namespace Store
variable (st : Store) (registry component : String) (id : Nat) (values : Entries Value)
  (cs : List Candidate)

/-- The store in which the object is filled with the values and the candidates that these come from
are on record for the component. -/
def injected : Store :=
  (st.filled id values).setRegistry registry ((st.registry registry).record cs component)

theorem resolve_injected (q : Request) :
    (st.injected registry component id values cs).resolve registry q =
      ((st.registry registry).record cs component).resolve st.settings st.world
        (st.heap.modify id (·.fill values)) q := by
  rw [Store.resolve, injected, registry_setRegistry_self]
  rfl

theorem grows_injected : st.Grows (st.injected registry component id values cs) := by
  have filled : st.Grows (st.filled id values) :=
    .of_registries ⟨rfl, by simp [Store.filled], List.prefix_rfl⟩ rfl
  exact filled.setRegistry ((st.registry registry).grows_record cs component)

variable {st values} in
theorem Carrying.injected {o : Object} (carrying : st.Carrying id o) :
    (st.injected registry component id values cs).Carrying id (o.fill values) :=
  ⟨(carrying.filled values).object, carrying.carries⟩

theorem injected_injected (distinct : values.names.Nodup) :
    (st.injected registry component id values cs).injected registry component id values cs =
      st.injected registry component id values cs := by
  have filled := filled_filled distinct st id
  have recorded := (st.registry registry).record_record cs component
  conv_lhs => rw [Store.injected]
  rw [Store.injected, registry_setRegistry_self, recorded]
  have apart (r : Registry) : ((st.filled id values).setRegistry registry r).filled id values =
      ((st.filled id values).filled id values).setRegistry registry r := rfl
  rw [apart, filled, setRegistry_setRegistry]

end Store

namespace Run
variable {registry component : String} {st mid after : Store} {q : Request}
  {points : List InjectionPoint} {values : Entries Value}
  {cs : List Candidate}

theorem exec_takeStep_carried {id : Nat} {o : Object} {name : String}
    (carrying : st.Carrying id o) (plain : st.world.Plain o.cls name) (x : Value) :
    exec (takeStep perform (.object id) (.assign name x)) st =
      (.ok [(name, o.attributes.lookup name)], st.filled id [(name, x)]) := by
  have before : exec (previous perform (.object id) name) st =
      (.ok (o.attributes.lookup name), st) := by
    have read : exec (readOptional perform (.object id) "__dict__") st =
        (.ok (some (.dict o.attributes)), st) := by
      rw [readOptional, map_eq_pure_bind]
      exact exec_tryCatch_of_ok (exec_bind_of_ok (exec_readAttribute_carried carrying) _) _
    rw [previous, exec_bind_of_ok read]
    rfl
  rw [takeStep, exec_bind_of_ok before,
    exec_bind_of_ok (exec_setAttribute_carried carrying plain x)]
  rfl

theorem exec_takeSteps_carried {id : Nat} {o : Object} {steps : List Planned}
    (carrying : st.Carrying id o) (plain : ∀ e ∈ values, st.world.Plain o.cls e.1)
    (assigns : steps.map (·.step) = values.map fun e => .assign e.1 e.2) (undo : Undo) :
    exec (takeSteps perform component (.object id) undo steps) st =
      (.ok (), st.filled id values) := by
  induction values generalizing st o steps undo with
  | nil =>
    rw [List.map_eq_nil_iff.mp assigns, st.filled_nil]
    rfl
  | cons e values ih =>
    obtain ⟨step, rest, rfl, here, later⟩ := List.map_eq_cons_iff.mp assigns
    obtain ⟨first, plain⟩ := List.forall_mem_cons.mp plain
    have taken := exec_takeStep_carried carrying first e.2
    rw [← show step.step = .assign e.1 e.2 from here] at taken
    rw [exec_takeSteps_cons taken, st.filled_cons id e values]
    exact ih (carrying.filled [e]) plain later _

theorem exec_inject_fields {id : Nat} {o : Object} {m : Metadata} (fields : FieldsOnly m.points)
    (fills : Fills registry st m.points values cs mid) (carrying : mid.Carrying id o)
    (plain : ∀ e ∈ values, mid.world.Plain o.cls e.1) (component : String) :
    exec (inject perform registry component m [] (.object id)) st =
      (.ok (), mid.injected registry component id values cs) := by
  obtain ⟨steps, planned, assigns⟩ :
      ∃ steps, exec (planPoints perform registry component [] m.points) st = (.ok steps, mid) ∧
        Assigns steps values cs := planPoints_of_fills fields fills
  rw [inject, exec_bind_of_ok planned, planExplicit, List.map_nil, List.append_nil,
    exec_bind_of_ok (exec_takeSteps_carried carrying plain assigns.assigned []), assigns.injected]
  rfl

/-- While components of the candidates are fetched, every call of the provider of one of them keeps
the relation. -/
def CallsKeep (registry : String) (cs : List Candidate) (R : Store → Store → Prop) (st : Store) :
    Prop :=
  ∀ mid, FetchesOf registry cs st mid → ∀ c ∈ cs, ∀ p n,
    (mid.registry registry).instances.lookup c.name = none →
    (mid.registry registry).providers.lookup c.name = some p →
    R mid (exec (build (performWithin n) p) mid).2

/-- A relation that calls of providers keep is kept by fetching, if it bears that a component is put
at hand under a name that had none. -/
theorem CallsKeep.fetches {R : Store → Store → Prop} [IsPreorder Store R]
    (calls : CallsKeep registry cs R st)
    (keep : ∀ mid next name v, Fetches registry st mid → mid.Grows next →
      mid.Grows (next.setRegistry registry ((next.registry registry).keepReturned name v)) →
      R next (next.setRegistry registry ((next.registry registry).keepReturned name v)))
    (fetches : FetchesOf registry cs st after) : R st after := by
  induction fetches with
  | refl => exact refl_of R st
  | @tail mid _ reached step ih =>
    obtain ⟨c, mem, rfl⟩ := step
    apply trans_of R ih
    have grown := quiet_getComponent registry c mid
    obtain ⟨n, fetched⟩ := fetched_getComponent registry c mid
    generalize exec (getComponent registry c) mid = ended at fetched grown ⊢
    cases fetched with
    | atHand | unknown => exact refl_of R mid
    | @failed p _ _ missing provider ran =>
      have called := calls mid reached c mem p n missing provider
      rwa [ran] at called
    | @made p v next missing provider ran =>
      have called := calls mid reached c mem p n missing provider
      have serves := serves_performWithin (fun _ n serves registry c =>
        quiet_component n serves registry c) n
      have begun := quiet_build serves p mid
      rw [ran] at called begun
      exact trans_of R called (keep mid next c.name v (FetchesOf.fetches reached) begun grown)

/-- The object is the same in both stores, and its class leaves to the system what it did. -/
structure Leaves (id : Nat) (c : ClassRef) (st after : Store) : Prop where
  object : after.heap[id]? = st.heap[id]?
  carries : st.world.Carries c → after.world.Carries c
  plain : ∀ name, st.world.Plain c name → after.world.Plain c name

def SameAnswers (registry : String) (points : List InjectionPoint) (st after : Store) : Prop :=
  ∀ q, Asked points q → after.resolve registry q = st.resolve registry q

instance (id : Nat) (c : ClassRef) : IsPreorder Store (Leaves id c) where
  refl _ := ⟨rfl, fun carries => carries, fun _ plain => plain⟩
  trans _ _ _ begun ended := ⟨ended.object.trans begun.object,
    fun carries => ended.carries (begun.carries carries),
    fun name plain => ended.plain name (begun.plain name plain)⟩

instance (registry : String) (points : List InjectionPoint) :
    IsPreorder Store (SameAnswers registry points) where
  refl _ _ _ := rfl
  trans _ _ _ begun ended q asked := (ended q asked).trans (begun q asked)

theorem leaves_of_fetches {id : Nat} {c : ClassRef} (calls : CallsKeep registry cs (Leaves id c) st)
    (fetches : FetchesOf registry cs st after) : Leaves id c st after :=
  calls.fetches (fun _ _ _ _ _ _ _ => ⟨rfl, fun carries => carries, fun _ plain => plain⟩) fetches

section Answering
variable {start : Store} {history : List Registered} (empty : start.registry registry = {})
  (evolves : start.Evolves registry history st)
include empty evolves

theorem answers_of_fetches (calls : CallsKeep registry cs (SameAnswers registry points) st)
    (fetches : FetchesOf registry cs st after) : SameAnswers registry points st after := by
  refine calls.fetches (fun mid next name v reached begun grown q _ => ?_) fetches
  have recorded := (evolves.grows (grows_of_fetches reached)).recorded empty
  have kept := recorded.resolve_grows (grown.registry registry) next.settings next.world next.heap q
  rw [Store.registry_setRegistry_self] at kept
  rw [Store.resolve, Store.registry_setRegistry_self]
  exact kept.trans (recorded.resolve_grows (begun.registry registry) _ _ _ q).symm

/-- Injecting an object does not change an answer, if the entries that ask the object are faithful.
It can be that resolving is refused instead. -/
theorem resolve_of_injected {id : Nat} {answer : Resolution} (fetches : Fetches registry st mid)
    (faithful : ∀ entry ∈ (st.registry registry).resolvable,
      (st.registry registry).componentOf entry = .object id →
      Registry.AsksComponent mid.world q.type.raw entry →
      Registry.Faithful mid.world mid.heap (.object id) q.type entry)
    (resolved : mid.resolve registry q = .ok answer) :
    (mid.injected registry component id values cs).resolve registry q = .ok answer ∨
      ∃ e, (mid.injected registry component id values cs).resolve registry q = .error e := by
  have grown := grows_of_fetches fetches
  have recorded := (evolves.grows grown).recorded empty
  have noted : (mid.registry registry).Grows registry mid mid
      ((mid.registry registry).record cs component) := Registry.grows_record _ cs component
  rw [Store.resolve_injected, recorded.resolve_grows noted]
  refine recorded.resolve_settled (fun entry mem => ?_) resolved
  have listed : entry ∈ (st.registry registry).resolvable := by
    rwa [(grown.registry registry).resolvable] at mem
  have same := (evolves.recorded empty).componentOf_grows (grown.registry registry) listed
  have begun := evolves.registry
  rw [empty] at begun
  exact Registry.settled_modify (fun _ => rfl) (begun.declares_class entry listed)
    fun own => faithful entry listed (same ▸ own)

end Answering

/-- An object that has only fields to inject. Afterwards it has what the fields receive under their
names and every other attribute as before, and the rest of the store is what fetching the components
left, with their candidates on record. This is so if the class of the object leaves attributes to
the system and manages none of the fields, and if code that runs for these components leaves the
object alone. If such code also leaves the answers as they are, and the entries that ask the object
are faithful, then injecting once more changes nothing. It succeeds, or resolving a request is
refused. -/
theorem inject_fields {w : World} {s : Settings} {c : ClassRef} {m : Metadata} {id : Nat}
    {o : Object} {operations : List (String × Operation)} {history : List Registered} {now : Store}
    (empty : st.registry registry = {})
    (ran : Operation.runAll registry operations st = (history, now))
    (made : w.Declared) (scanned : w.metadata s c = .ok m)
    (fields : ∀ p ∈ m.points, p.kind = .field)
    (since : ∀ p ∈ m.points, w.Plain c p.name → now.world.Plain o.cls p.name)
    (carrying : now.Carrying id o)
    (ended : exec (inject perform registry component m [] (.object id)) now = (.ok (), after)) :
    ∃ values cs mid, Fills registry now m.points values cs mid ∧ values.names.Nodup ∧
      (CallsKeep registry cs (Leaves id o.cls) now →
        mid.Carrying id o ∧ after = mid.injected registry component id values cs ∧
        after.Carrying id (o.fill values) ∧
        (∀ name, (o.fill values).attributes.lookup name =
          (values.lookup name).or (o.attributes.lookup name)) ∧
        (CallsKeep registry cs (SameAnswers registry m.points) now →
          (∀ q, Asked m.points q → ∀ entry ∈ (now.registry registry).resolvable,
            (now.registry registry).componentOf entry = .object id →
            Registry.AsksComponent mid.world q.type.raw entry →
            Registry.Faithful mid.world mid.heap (.object id) q.type entry) →
          ∃ result, exec (inject perform registry component m [] (.object id)) after =
              (result, after) ∧
            (result = .ok () ∨ ∃ q e, Asked m.points q ∧ after.resolve registry q = .error e ∧
              result = .error e))) := by
  have single : FieldsOnly m.points := fun p mem =>
    ⟨fields p mem, World.requests_of_field scanned mem (fields p mem)⟩
  obtain ⟨steps, mid, planned, applied⟩ := exec_bind_eq_ok.mp ended
  obtain ⟨values, cs, fills, -⟩ := fills_of_planPoints single planned
  have distinct : values.names.Nodup :=
    (World.names_nodup made.wellFormed scanned).sublist fills.names
  refine ⟨values, cs, mid, fills, distinct, fun leaves => ?_⟩
  have left := leaves_of_fetches leaves fills.fetches
  have carried : mid.Carrying id o :=
    ⟨left.object.trans carrying.object, left.carries carrying.carries⟩
  have plain : ∀ e ∈ values, mid.world.Plain o.cls e.1 := by
    intro e mem
    obtain ⟨p, point, same⟩ := List.mem_map.mp (fills.names.subset (List.mem_map_of_mem mem))
    rw [← same]
    exact left.plain _ (since p point (World.plain_of_point made scanned point (fields p point)))
  have injected := exec_inject_fields single fills carried plain component
  rw [ended] at injected
  obtain ⟨-, rfl⟩ := Prod.mk.inj injected
  refine ⟨carried, rfl, carried.injected .., Entries.lookup_setAll distinct _,
    fun answers faithful => ?_⟩
  -- All stores on the way answer as the first one does, and so does the last.
  have evolves := evolves_runAll ran
  have answered {reached : Store} (fetches : FetchesOf registry cs now reached) :
      SameAnswers registry m.points now reached :=
    answers_of_fetches empty evolves answers fetches
  have again (reached : Store) (fetches : FetchesOf registry cs now reached) (q : Request)
      (asked : Asked m.points q) (a : Resolution) (resolved : reached.resolve registry q = .ok a) :
      (mid.injected registry component id values cs).resolve registry q = .ok a ∨
        ∃ e, (mid.injected registry component id values cs).resolve registry q = .error e := by
    apply resolve_of_injected empty evolves fills.fetches.fetches (faithful q asked)
    rw [answered fills.fetches q asked, ← answered fetches q asked, resolved]
  have grown := mid.grows_injected registry component id values cs
  rcases fills.again single grown again with same | ⟨e, ⟨q, asked, answer⟩, stopped⟩
  · refine ⟨.ok (), ?_, .inl rfl⟩
    rw [exec_inject_fields single same (carried.injected ..) plain component,
      Store.injected_injected _ _ _ _ _ _ distinct]
  · exact ⟨.error e, exec_bind_of_error stopped _, .inr ⟨q, e, asked, answer, rfl⟩⟩

end Run

namespace World

def declareAll (w : World) (ds : List ClassDefinition) : World :=
  ds.foldl (fun w d => (w.declare? d).getD w) w

theorem Declared.declareAll {w : World} (made : w.Declared) {ds : List ClassDefinition}
    (plain : ∀ d ∈ ds, d.bases = []) : (w.declareAll ds).Declared := by
  refine List.foldlRecOn ds _ made fun w made d mem => ?_
  cases declared : w.declare? d with
  | none => exact made
  | some after =>
    refine made.declare (fun k base => ?_) declared
    rw [ClassDefinition.baseClasses, plain d mem] at base
    cases List.mem_singleton.mp base
    trivial

end World

def FieldDefinition.marked (name : String) (type : Hint) (required : Bool) : FieldDefinition where
  name := name
  type := some type
  marker := (Marker.make .autowired).set "required" (.bool required)

/-! A porch asks for a lamp, for all lamps and, if there is one, for a number. It is painted
already, and stands in the registry for whatever it can be taken for. -/
namespace Porch
open Run

-- Declared classes come after those that every module knows.
def lamp : ClassRef := .declared 82

def porch : ClassRef := .declared 83

def bodies : List ClassDefinition := [
  { name := "Lamp" },
  { name := "Porch"
    fields := [.marked "lamp" (.cls lamp) true,
      .marked "lamps" (.alias .plain (.builtin .list) [.cls lamp]) true,
      .marked "number" (.cls (.builtin .int)) false] }]

def house : World := (World.start "house").declareAll bodies

def points : Metadata := (house.metadata {} porch).toOption.getD default

def kindling : Provider := .function { name := "make_lamp", product := .value (.object 1) }

def bright : Candidate where
  name := "lamp"
  declaredType := .cls lamp

def standing : Candidate where
  name := "object@resolvable"
  declaredType := .cls porch
  index := 1
  resolvable := true

def painted : Object where
  cls := porch
  attributes := [("color", .data (.text "green")), ("lamp", .data .null)]

def bare : Store where
  world := house
  heap := [painted, { cls := lamp }]

def operations : List (String × Operation) := [
  ("main", .registerProvider "lamp" kindling { declaredType := some (.cls lamp) }),
  ("main", .registerResolvable (.cls (.builtin .object)) (.object 0))]

def history : List Registered := [⟨bright, .made kindling⟩, ⟨standing, .given (.object 0)⟩]

def listed : Registry where
  entries := [bright]
  resolvable := [(standing, .cls (.builtin .object))]
  instances := [("object@resolvable", .object 0)]
  providers := [("lamp", kindling)]

def dark : Store := { bare with registries := [("main", listed)] }

def lit : Store := { dark with
  heap := [
    { cls := porch
      attributes := [("color", .data (.text "green")), ("lamp", .object 1),
        ("lamps", .list [.object 1])] },
    { cls := lamp }]
  registries := [("main", { listed with
    instances := listed.instances ++ [("lamp", .object 1)]
    dependencies := [("porch", ["lamp"])]
    returned := ["lamp"] })]
  events := [.built "make_lamp"] }

theorem calls_kindling {R : Store → Store → Prop} (cs : List Candidate)
    (emits : ∀ st events, R st { st with events }) : CallsKeep "main" cs R dark := by
  intro mid reached c _ p n _ provider
  rw [((grows_of_fetches reached.fetches).registry "main").providers] at provider
  obtain ⟨-, rfl⟩ := Prod.mk.inj (List.mem_singleton.mp (Entries.mem_of_lookup provider))
  exact emits _ _

def lighting : Run Unit := inject perform "main" "porch" points [] (.object 0)

set_option maxRecDepth 4000 in
theorem porch_lit : Operation.runAll "main" operations bare = (history, dark) ∧
    exec lighting dark = (.ok (), lit) ∧ exec lighting lit = (.ok (), lit) ∧
    ∃ values cs mid, Fills "main" dark points.points values cs mid ∧
      lit = mid.injected "main" "porch" 0 values cs ∧ lit.Carrying 0 (painted.fill values) := by
  have ran : Operation.runAll "main" operations bare = (history, dark) := by
    with_unfolding_all rfl
  have made : house.Declared := (World.Declared.start "house").declareAll (by decide)
  have scanned : house.metadata {} porch = .ok points := by with_unfolding_all rfl
  have kinds : points.points.map (·.kind) = List.replicate 3 .field := by with_unfolding_all rfl
  have fields : ∀ p ∈ points.points, p.kind = .field := fun p mem =>
    List.eq_of_mem_replicate (kinds ▸ List.mem_map_of_mem mem)
  have since : ∀ p ∈ points.points, house.Plain porch p.name →
      dark.world.Plain painted.cls p.name := fun _ _ plain => plain
  have carrying : dark.Carrying 0 painted := {
    object := rfl
    carries := {
      read := by with_unfolding_all rfl
      assign := by with_unfolding_all rfl
      gives := by with_unfolding_all rfl
      dict := by with_unfolding_all rfl } }
  have ended : exec lighting dark = (.ok (), lit) := by with_unfolding_all rfl
  obtain ⟨values, cs, mid, fills, -, postcondition⟩ :=
    inject_fields rfl ran made scanned fields since carrying ended
  obtain ⟨carried, after, filled, -, again⟩ := postcondition <|
    calls_kindling cs fun _ _ => ⟨rfl, fun carries => carries, fun _ plain => plain⟩
  have answers : CallsKeep "main" cs (SameAnswers "main" points.points) dark :=
    calls_kindling cs fun _ _ _ _ => rfl
  obtain ⟨result, repeated, -⟩ := again answers fun q _ entry registered _ _ _ _ _ => by
    cases List.mem_singleton.mp registered
    exact congrArg Hint.cls carried.classOf.symm
  have succeeds : (exec lighting lit).1 = .ok () := by with_unfolding_all rfl
  have repeated : exec lighting lit = (result, lit) := repeated
  have told : result = .ok () := by rw [← succeeds, repeated]
  exact ⟨ran, ended, told ▸ repeated, values, cs, mid, fills, after, filled⟩

end Porch

/-! A desk asks for a lamp and, if there is one, for a sign. It does not just receive these where
its class sees to its attributes, where code that runs for the lamp reaches the desk, and where an
object that was a box once answers for the sign after the lamp has come. -/
namespace Workroom
open Run

def board : ClassRef := .declared 82

def tagged : ClassRef := .declared 83

def box : ClassRef := .declared 84

def lamp : ClassRef := .declared 85

def desk : ClassRef := .declared 86

def bodies (methods : List MethodDefinition) (values : List (String × Literal)) :
    List ClassDefinition := [
  { name := "Board", values := [("size", .int 3)]
    methods := [{
      name := "get_object"
      actions := [.setValue "lamp" (.bool true), .setValue "seen" (.bool true)] }] },
  { name := "Tagged", bases := [.cls (.builtin .protocol)], checkable := true
    annotations := [("size", .cls (.builtin .int))], methods := [{ name := "lamp" }] },
  { name := "Box", bases := [.cls board, .cls tagged] },
  { name := "Lamp"
    methods := [{
      name := "__init__", parameters := [{ name := "board", type := some (.cls board) }]
      actions := [.setLookup "on" "board"] }] },
  { name := "Desk", bases := [.cls board], methods, values
    fields := [.marked "sign" (.cls tagged) false, .marked "lamp" (.cls lamp) true] }]

def room (methods : List MethodDefinition) (values : List (String × Literal)) (other : ClassRef)
    (r : Registry) : Store where
  world := (World.start "workroom").declareAll (bodies methods values)
  heap := [{ cls := desk }, { cls := other }]
  registries := [("main", r)]

def shining : Candidate where
  name := "lamp"
  declaredType := .cls lamp

def atHand : Registry where
  entries := [shining]
  instances := [("lamp", .object 1)]

def made : Registry where
  entries := [shining]
  providers := [("lamp", .function { name := "make_lamp", product := .created lamp "main" })]

def withBoard (r : Registry) : Registry :=
  { r with
    entries := r.entries ++ [{ name := "board", declaredType := .cls desk, index := 1 }]
    instances := r.instances ++ [("board", .object 0)] }

/-- The registry with an entry for any object, whose component was a box when it was registered. -/
def withBox (r : Registry) (id : Nat) : Registry :=
  r.addResolvable "object" (.cls (.builtin .object)) box (.object id)

def deaf : Store :=
  room [{ name := "__setattr__", parameters := [{ name := "name" }, { name := "value" }] }] [] lamp
    atHand

def watched : Store :=
  room [{
    name := "__getattribute__", parameters := [{ name := "name" }]
    actions := [.setParameter "seen" "name"] }] [] lamp atHand

def cased : Store := room [] [("__dict__", .dict [])] lamp atHand

def reached : Store := room [] [] lamp (withBoard made)

def stale : Store := room [] [] lamp (withBox atHand 0)

def lively : Store := room [] [] board (withBox made 1)

def injecting : Run (List String) := do
  inject perform "main" "desk" (← lift ((← get).world.metadata {} desk)) [] (.object 0)
  return (World.ownAttributes (← get).heap (.object 0)).map (·.1)

def injectingTwice : Run (List String × List String) := do return (← injecting, ← injecting)

def showing : Run (List String) := do
  let _ ← injecting
  return ((← readAttribute perform (.object 0) "__dict__").entries?.getD []).map (·.1)

def results {α : Type} (x : Run α) (st : Store) : Option α := (exec x st).1.toOption

set_option maxRecDepth 4000 in
/-- The lamp is found each time, and the sign is not when the desk is injected first. -/
theorem desk_misses :
    (∀ st ∈ [deaf, watched, cased, reached, stale, lively],
      ((st.world.metadata {} desk).toOption.map fun m => m.points.map (·.kind)) =
        some [.field, .field]) ∧
    deaf.resolve "main" { type := .cls lamp, name := some "lamp" } = .ok (.value shining) ∧
    results injecting deaf = some [] ∧
    results injecting watched = some ["seen", "lamp"] ∧
    results showing cased = some [] ∧
    results injecting reached = some ["lamp", "seen"] ∧
    results injectingTwice stale = some (["lamp"], ["lamp", "sign"]) ∧
    results injectingTwice lively = some (["lamp"], ["lamp", "sign"]) := by
  refine ⟨by decide +kernel, by with_unfolding_all rfl, ?_⟩
  decide +kernel

end Workroom
end Wiring
