import Wiring.Proofs.Container
import Wiring.Proofs.Registry.Selection
import Wiring.Proofs.Registry.Steadiness

/-! Creating a component of a class that is known already. The points of a class are found once and
its constructor is chosen once, so later creations take both from what is kept. Choosing a constructor
resolves its parameters, and the first creation uses what they resolved to; a later one resolves them
anew. As long as the classes, the registry and the objects in it for a type are the same, nothing tells
the two apart. -/
namespace Wiring

namespace Store

def knowing (st : Store) (metadata : List (ClassRef × Metadata))
    (constructors : List (ClassRef × Constructor)) : Store :=
  { st with metadata, constructors }

def knowingLike (st other : Store) : Store := st.knowing other.metadata other.constructors

variable (st : Store) (ms : List (ClassRef × Metadata)) (ks : List (ClassRef × Constructor))

@[simp] theorem knowing_world : (st.knowing ms ks).world = st.world := rfl

@[simp] theorem knowing_settings : (st.knowing ms ks).settings = st.settings := rfl

@[simp] theorem knowing_heap : (st.knowing ms ks).heap = st.heap := rfl

@[simp] theorem knowing_registry (name : String) :
    (st.knowing ms ks).registry name = st.registry name := rfl

@[simp] theorem knowing_metadata : (st.knowing ms ks).metadata = ms := rfl

@[simp] theorem knowing_constructors : (st.knowing ms ks).constructors = ks := rfl

/-- What decides on the points and the constructor of a class is the same in both stores. -/
structure Unchanged (title : String) (st now : Store) : Prop where
  settings : now.settings = st.settings
  world : now.world = st.world
  registry : now.registry title = st.registry title
  objects : ∀ entry ∈ (st.registry title).resolvable,
    st.world.Alike st.heap now.heap ((st.registry title).componentOf entry)

namespace Unchanged
variable {st} {title : String} {now : Store}

theorem refl (title : String) (st : Store) : Unchanged title st st :=
  ⟨rfl, rfl, rfl, fun _ _ => ⟨rfl, fun _ => rfl⟩⟩

theorem knowing (same : st.Unchanged title now) : (st.knowing ms ks).Unchanged title now :=
  ⟨same.settings, same.world, same.registry, same.objects⟩

theorem select (same : st.Unchanged title now) (c : ClassRef) :
    (now.registry title).select now.settings now.world now.heap c =
      (st.registry title).select st.settings st.world st.heap c := by
  rw [same.settings, same.world, same.registry]
  exact Registry.select_of_answers (Registry.resolve_of_alike same.objects st.settings) c

end Unchanged

end Store

namespace Run
variable {registry : String} {c : ClassRef} {st now after warm : Store} {m : Metadata}
  {selection : Selection}

theorem exec_metadata_known (known : st.metadata.lookup c = some m) :
    exec (metadata c) st = (.ok m, st) := by
  simp [metadata, exec_bind, known]

theorem exec_selectConstructor_known {k : Constructor}
    (known : st.constructors.lookup c = some k) :
    exec (selectConstructor registry c) st = (.ok { constructor := k }, st) := by
  simp [selectConstructor, exec_bind, known]

/-- The points found for a class are kept. What constructors are known does not matter. -/
theorem exec_metadata_kept (found : exec (metadata c) st = (.ok m, after)) :
    ∃ ms, ms.lookup c = some m ∧ ∀ now, st.Unchanged registry now → ∀ ks,
      exec (metadata c) (now.knowing st.metadata ks) = (.ok m, now.knowing ms ks) := by
  unfold metadata at found
  obtain ⟨_, _, now, found⟩ := exec_bind_eq_ok.mp found
  cases now
  cases known : st.metadata.lookup c with
  | some m' =>
    rw [known] at found
    cases found
    exact ⟨st.metadata, known, fun _ _ _ => exec_metadata_known known⟩
  | none =>
    simp only [known] at found
    cases constructors : st.world.constructors st.settings c with
    | error e =>
      rw [constructors] at found
      cases found
    | ok usable =>
      cases scanned : st.world.metadata st.settings c with
      | error e =>
        rw [constructors, scanned] at found
        cases found
      | ok m' =>
        rw [constructors, scanned] at found
        cases found
        refine ⟨(c, m) :: st.metadata, by simp, fun now same ks => ?_⟩
        simp only [metadata, exec_bind, exec_get, Store.knowing_metadata, known,
          Store.knowing_world, Store.knowing_settings, same.world, same.settings, constructors,
          scanned]
        rfl

/-- The constructor chosen for a class is kept, with what its parameters resolved to left out. What
points are known does not matter. -/
theorem exec_choice_kept (chosen : exec (selectConstructor registry c) st = (.ok selection, after)) :
    ∃ ks, ks.lookup c = some selection.constructor ∧ ∀ now, st.Unchanged registry now →
      (∀ ms, exec (selectConstructor registry c) (now.knowing ms st.constructors) =
        (.ok selection, now.knowing ms ks)) ∧
      ∀ results, selection.results = some results →
        (now.registry registry).Satisfied now.settings now.world now.heap
          selection.constructor.requests results := by
  unfold selectConstructor at chosen
  obtain ⟨_, _, now, chosen⟩ := exec_bind_eq_ok.mp chosen
  cases now
  -- a constructor that is known comes without results, one that is chosen now with those it was
  -- chosen for
  cases known : st.constructors.lookup c with
  | some k =>
    rw [known] at chosen
    cases chosen
    exact ⟨st.constructors, known, fun _ _ => ⟨fun _ => exec_selectConstructor_known known, nofun⟩⟩
  | none =>
    simp only [known] at chosen
    cases selected : (st.registry registry).select st.settings st.world st.heap c with
    | error e =>
      rw [selected] at chosen
      cases chosen
    | ok taken =>
      rw [selected] at chosen
      cases chosen
      refine ⟨(c, selection.constructor) :: st.constructors, by simp, fun now same => ?_⟩
      have selected := (same.select c).trans selected
      refine ⟨fun ms => ?_, fun results given => Registry.satisfied_of_select selected given⟩
      simp only [selectConstructor, exec_bind, exec_get, Store.knowing_constructors, known,
        Store.knowing_registry, Store.knowing_settings, Store.knowing_world, Store.knowing_heap,
        selected]
      rfl

theorem exec_resolveNow_outcome (q : Request) : exec (resolveNow registry q) st =
    ((st.registry registry).outcome st.settings st.world st.heap q, st) := by
  unfold resolveNow Registry.outcome Request.isLazy
  by_cases handle : q.cardinality = .factory
  · simp [handle]
  · simp only [handle, decide_false, Bool.false_eq_true, if_false, resolve, exec_bind, exec_get,
      Store.resolve]
    cases (st.registry registry).resolve st.settings st.world st.heap q <;> rfl

theorem exec_resolveNow_satisfied {requests : List Request} {results : List Resolution}
    (satisfied : (st.registry registry).Satisfied st.settings st.world st.heap requests results) :
    exec (requests.mapM (resolveNow registry)) st = (.ok results, st) := by
  induction satisfied with
  | nil => rfl
  | cons here _ ih =>
    have first := (exec_resolveNow_outcome _).trans (congrArg (·, st) here.1)
    rw [List.mapM_cons, exec_bind_of_ok first, exec_bind_of_ok ih, exec_pure]

/-- A choice with results constructs the same object as the choice alone. -/
theorem exec_construct_choice (perform : Perform) (component : String)
    (satisfied : ∀ results, selection.results = some results →
      (st.registry registry).Satisfied st.settings st.world st.heap
        selection.constructor.requests results) :
    exec (construct perform registry component c { constructor := selection.constructor }) st =
      exec (construct perform registry component c selection) st := by
  obtain ⟨k, _ | results⟩ := selection
  · rfl
  · have again := exec_resolveNow_satisfied (satisfied results rfl)
    simp only [construct]
    rw [exec_bind_of_ok again, exec_bind_of_ok (exec_pure results st)]

/-- Selecting the constructor of a class and finding its points, in either order, ends well. -/
def Warms (registry : String) (c : ClassRef) (st warm : Store) : Prop :=
  (∃ selection m mid, exec (selectConstructor registry c) st = (.ok selection, mid) ∧
    exec (metadata c) mid = (.ok m, warm)) ∨
  (∃ m selection mid, exec (metadata c) st = (.ok m, mid) ∧
    exec (selectConstructor registry c) mid = (.ok selection, warm))

/-- What a warm store knows of the class, and that it is found just so where nothing has changed. -/
theorem Warms.parts (warms : Warms registry c st warm) :
    ∃ m selection ms ks, ms.lookup c = some m ∧ ks.lookup c = some selection.constructor ∧
      warm = st.knowing ms ks ∧ ∀ now, st.Unchanged registry now →
        exec (metadata c) (now.knowing st.metadata st.constructors) =
          (.ok m, now.knowing ms st.constructors) ∧
        exec (selectConstructor registry c) (now.knowing ms st.constructors) =
          (.ok selection, now.knowing ms ks) ∧
        ∀ results, selection.results = some results →
          (now.registry registry).Satisfied now.settings now.world now.heap
            selection.constructor.requests results := by
  have here := Store.Unchanged.refl registry st
  rcases warms with ⟨selection, m, mid, chosen, found⟩ | ⟨m, selection, mid, found, chosen⟩
  · obtain ⟨ks, choice, choose⟩ := exec_choice_kept chosen
    cases ((choose st here).1 st.metadata).symm.trans chosen
    obtain ⟨ms, points, find⟩ := exec_metadata_kept found
    cases (find st (here.knowing ..) ks).symm.trans found
    exact ⟨m, selection, ms, ks, points, choice, rfl, fun now same =>
      ⟨find now (same.knowing ..) st.constructors, (choose now same).1 ms, (choose now same).2⟩⟩
  · obtain ⟨ms, points, find⟩ := exec_metadata_kept found
    cases (find st here st.constructors).symm.trans found
    obtain ⟨ks, choice, choose⟩ := exec_choice_kept chosen
    cases ((choose st (here.knowing ..)).1 ms).symm.trans chosen
    refine ⟨m, selection, ms, ks, points, choice, rfl, fun now same => ?_⟩
    obtain ⟨chosen, satisfied⟩ := choose now (same.knowing ..)
    exact ⟨find now same st.constructors, chosen ms, satisfied⟩

/-- Where the classes, the registry and the objects in it for a type are as they were when constructor
and points of a class were found, the class is created with what was found then like one that is not
known yet: with the same result or error, and with the same store in the end. -/
theorem create_warm (warms : Warms registry c st warm) (same : st.Unchanged registry now)
    (name : Option String) (explicit : Entries Value) :
    (∃ ms ks, warm = st.knowing ms ks) ∧
    (∃ m, exec (metadata c) (now.knowingLike warm) = (.ok m, now.knowingLike warm)) ∧
    (∃ k, exec (selectConstructor registry c) (now.knowingLike warm) =
      (.ok { constructor := k }, now.knowingLike warm)) ∧
    exec (create registry c name explicit) (now.knowingLike warm) =
      exec (create registry c name explicit) (now.knowingLike st) := by
  obtain ⟨m, selection, ms, ks, points, choice, rfl, parts⟩ := warms.parts
  obtain ⟨found, chosen, satisfied⟩ := parts now same
  have again : exec (metadata c) (now.knowing ms ks) = (.ok m, now.knowing ms ks) :=
    exec_metadata_known points
  have taken : exec (selectConstructor registry c) (now.knowing ms ks) =
      (.ok { constructor := selection.constructor }, now.knowing ms ks) :=
    exec_selectConstructor_known choice
  refine ⟨⟨ms, ks, rfl⟩, ⟨m, again⟩, ⟨_, taken⟩, ?_⟩
  have named := exec_nameFor c name
  let component := now.world.componentName c name
  have construct : exec (construct perform registry component c
      { constructor := selection.constructor }) (now.knowing ms ks) =
      exec (construct perform registry component c selection) (now.knowing ms ks) :=
    exec_construct_choice perform component satisfied
  simp only [Store.knowingLike, Store.knowing_metadata, Store.knowing_constructors]
  unfold create createWith
  rw [exec_bind_of_ok (named _), exec_bind_of_ok (named _), exec_bind_of_ok found,
    exec_bind_of_ok again, exec_bind_of_ok (exec_tryCatch_of_ok chosen _),
    exec_bind_of_ok (exec_tryCatch_of_ok taken _), exec_bind, exec_bind, Store.knowing_world,
    Store.knowing_world, construct]

end Run

/-! A desk can be furnished with a clock and a lamp. Where there is no lamp, it is made with a clock
alone, the first time and ever after. -/
namespace Study
open Run

def clock : Hint := .cls (.declared 0)

def lamp : Hint := .cls (.declared 1)

def maker (name : String) (subject : Subject) (parameters : List (String × Hint)) : Function where
  name := name
  owner := "Desk"
  subject := subject
  parameters := parameters.map fun (name, type) => { name, type := some type }
  constructs := name = "furnish"

def desk : Namespace := [
  ("__init__", .method (maker "__init__" .receiver [("clock", clock)])),
  ("furnish", .classMethod (maker "furnish" .newObject [("clock", clock), ("lamp", lamp)]))]

def house : World where
  moduleName := "house"
  classes := [("Clock", []), ("Lamp", []), ("Desk", desk)].mapIdx fun n (name, members) => {
    name, qualifiedName := name, bases := [.builtin .object], members
    linearization := [.declared n, .builtin .object] }

def empty : Store where
  world := house
  heap := [{ cls := .declared 0 }]
  registries := [("main", {
    entries := [{ name := "clock", declaredType := clock }], instances := [("clock", .object 0)] })]

def learn (c : ClassRef) : Run Metadata := do
  let _ ← selectConstructor "main" c
  metadata c

theorem warms_of_learn {c : ClassRef} {st : Store}
    (ends : (exec (learn c) st).1.toOption.isSome) : Warms "main" c st (exec (learn c) st).2 := by
  cases ran : exec (learn c) st with
  | mk result last =>
    cases result with
    | error e => simp [ran, Except.toOption] at ends
    | ok m =>
      obtain ⟨selection, mid, chosen, found⟩ := exec_bind_eq_ok.mp ran
      exact .inl ⟨selection, m, mid, chosen, found⟩

def known : Store := (exec (learn (.declared 2)) empty).2

def makeDesk : Run Value := create "main" (.declared 2) none []

/-- The study after something else was made, that is in no registry. -/
def later : Store := { empty with
  heap := empty.heap ++ [{ cls := .declared 1 }]
  events := [.made (.object 1)] }

theorem desk_made_again : Warms "main" (.declared 2) empty known ∧ empty.Unchanged "main" later ∧
    exec makeDesk (later.knowingLike known) = exec makeDesk (later.knowingLike empty) ∧
    (exec makeDesk (later.knowingLike known)).1 = .ok (.object 2) := by
  have warms : Warms "main" (.declared 2) empty known := warms_of_learn (by cbv)
  have same : empty.Unchanged "main" later := ⟨rfl, rfl, rfl, fun _ mem => absurd mem List.not_mem_nil⟩
  obtain ⟨-, -, -, again⟩ := create_warm warms same none []
  have made : (exec makeDesk (later.knowingLike empty)).1 = .ok (.object 2) := by cbv
  refine ⟨warms, same, again, ?_⟩
  rw [makeDesk, again]
  exact made

end Study

/-! A desk with a label. Labelled is known by its members and hands over to the next initialiser, so
the desk seems to need nothing; but making the first one puts the initialiser that takes a lamp in the
class. From then on it matters whether the constructor was chosen before. -/
namespace Parlour
open Run

def lamp : Hint := .cls (.declared 0)

def initializer : Function where
  name := "__init__"
  owner := "Lit"
  parameters := [{ name := "lamp", type := some lamp, default := some .null }]
  body := .steps [.setParameter "lamp" "lamp"]

def cls (name : String) (bases line : List ClassRef) (members : Namespace) : ClassInfo where
  name := name
  qualifiedName := name
  bases := bases
  linearization := line ++ [.builtin .object]
  members := members
  layout := { attributes := true, weakReference := true }

def labelled : ClassInfo where
  name := "Labelled"
  qualifiedName := "Labelled"
  bases := [.builtin .protocol]
  linearization := [.declared 1, .builtin .protocol, .builtin .generic, .builtin .object]
  members := [("__init__", .method { name := "__init__", owner := "Labelled", body := .handOver })]
  structural := true

def parlour : World where
  moduleName := "parlour"
  classes := [cls "Lamp" [.builtin .object] [.declared 0] [], labelled,
    cls "Lit" [.builtin .object] [.declared 2] [("__init__", .method initializer)],
    cls "Desk" [.declared 1, .declared 2]
      [.declared 3, .declared 1, .builtin .protocol, .builtin .generic, .declared 2] []]

def bare : Store where
  world := parlour
  heap := [{ cls := .declared 0 }]
  registries := [("main", {
    entries := [{ name := "lamp", declaredType := lamp }], instances := [("lamp", .object 0)] })]

def makeDesk : Run Value := create "main" (.declared 3) none []

def known : Store := { bare with
  metadata := [(.declared 3, { target := .declared 3, points := [] })]
  constructors := [(.declared 3, { name := "__init__" })] }

/-- A desk that was given nothing, and what its making left in its class. -/
def used : Store := { known with
  world := parlour.setMember (.declared 3) "__init__" (.method initializer)
  heap := bare.heap ++ [{ cls := .declared 3, attributes := [("lamp", .data .null)] }]
  events := [.called "Lit.__init__" (.object 1) [("lamp", .data .null)]] }

def fitted (st : Store) : Option (Entries Value) :=
  match exec makeDesk st with
  | (.ok (.object id), after) => after.heap[id]?.map (·.attributes)
  | _ => none

theorem desk_without_lamp :
    Warms "main" (.declared 3) bare known ∧
    exec makeDesk known = (.ok (.object 1), used) ∧
    used.registry "main" = bare.registry "main" ∧
    fitted (used.knowingLike known) = some [("lamp", .data .null)] ∧
    fitted (used.knowingLike bare) = some [("lamp", .object 0)] := by
  have learned : exec (Study.learn (.declared 3)) bare =
      (.ok { target := .declared 3, points := [] }, known) := by rfl
  have warms : Warms "main" (.declared 3) bare known := by
    have ends : (exec (Study.learn (.declared 3)) bare).1.toOption.isSome := by
      rw [learned]
      rfl
    have warms := Study.warms_of_learn ends
    rwa [learned] at warms
  have made : exec makeDesk known = (.ok (.object 1), used) := by rfl
  have warm : fitted (used.knowingLike known) = some [("lamp", .data .null)] := by rfl
  have cold : fitted (used.knowingLike bare) = some [("lamp", .object 0)] := by cbv
  exact ⟨warms, made, rfl, warm, cold⟩

end Parlour
end Wiring
