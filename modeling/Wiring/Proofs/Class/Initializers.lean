import Wiring.Object.Creation
import Wiring.Proofs.Class.Construction
import Wiring.Proofs.Registry.Selection
import Wiring.Proofs.Run

/-! The initialiser that is listed for a class, and the one that runs when the class is called. What
is listed is the first of the linearization. One that hands over is passed by when the class is
called, so the parameters of the one that runs are listed only if it is a method and stands first,
or if it has none to list. -/
namespace Wiring

namespace Member

def handsOver : Member → Bool
  | .method f => match f.body with
    | .handOver => true
    | _ => false
  | _ => false

theorem handsOver_method {f : Function} : (method f).handsOver ↔ f.body = .handOver := by
  cases held : f.body <;> simp [handsOver, held]

/-- A call without arguments gives a function all it takes, and a native initialiser accepts it. What
is neither has no parameters of its own. -/
def NeedsNothing (c : ClassRef) : Member → Prop
  | .method f | .classMethod f | .staticMethod f => Signature f.parameters →
    ∀ title, ∃ arguments, ({} : Arguments).bind title f.parameters = .ok arguments
  | .native kind => ∀ perform receiver st,
    Run.exec (Run.runInitializer perform c receiver {} (.native kind)) st = (.ok (), st)
  | _ => True

end Member

namespace World
variable {w : World} {s : Settings} {c owner : ClassRef} {m : Member}

def initializers (w : World) (c : ClassRef) : List (ClassRef × Member) :=
  (w.linearization c).filterMap fun k => (w.ownMember? k Constructor.initializer).map (k, ·)

def running? (w : World) (c : ClassRef) : Option (ClassRef × Member) :=
  (w.initializers c).find? (!·.2.handsOver)

def initialising (found : Option (ClassRef × Member)) : Member :=
  (found.map (·.2)).getD (.native .operation)

def listed (w : World) : Option (ClassRef × Member) → Except Error (List Parameter)
  | some (owner, .method f) | some (owner, .classMethod f) | some (owner, .staticMethod f) =>
    w.parametersOf owner f
  | _ => .ok []

theorem member?_initializer (w : World) (c : ClassRef) :
    w.member? c Constructor.initializer = (w.initializers c).head? := by
  rw [member?, initializers, List.head?_filterMap]

theorem running?_of_first (found : w.member? c Constructor.initializer = some (owner, m))
    (real : ¬ m.handsOver) : w.running? c = some (owner, m) := by
  rw [member?_initializer] at found
  obtain ⟨rest, parts⟩ := List.head?_eq_some_iff.mp found
  rw [running?, parts, List.find?_cons_of_pos (by simpa using real)]

theorem running?_eq_member?
    (real : ¬ (initialising (w.member? c Constructor.initializer)).handsOver) :
    w.running? c = w.member? c Constructor.initializer := by
  cases found : w.member? c Constructor.initializer with
  | none =>
    rw [member?_initializer, List.head?_eq_none_iff] at found
    rw [running?, found]
    rfl
  | some held =>
    rw [found] at real
    exact running?_of_first found real

theorem realInitializer?_eq (w : World) (c : ClassRef) :
    w.realInitializer? c = (w.running? c).map (·.2) := by
  unfold realInitializer? running? initializers
  induction w.linearization c with
  | nil => rfl
  | cons k line ih =>
    rw [List.findSome?_cons, List.filterMap_cons]
    cases w.ownMember? k Constructor.initializer with
    | none => exact ih
    | some m =>
      rw [Option.map_some, List.find?_cons]
      cases m with
      | method f =>
        cases held : f.body with
        | handOver => simpa [Member.handsOver, held] using ih
        | _ => simp [Member.handsOver, held]
      | _ => rfl

theorem listed_running {d : ConstructorDeclaration} (declared : w.declaredInitializer s c = .ok d) :
    w.listed (w.running? c) = .ok d.parameters ↔
      (∃ owner f, w.member? c Constructor.initializer = some (owner, .method f) ∧
        w.running? c = some (owner, .method f)) ∨ w.listed (w.running? c) = .ok [] := by
  obtain ⟨-, ⟨owner, f, found, real, read⟩ | ⟨first, none⟩⟩ := declaredInitializer_eq_ok declared
  · have runs := running?_of_first found (mt Member.handsOver_method.mp real)
    exact iff_of_true (by rw [runs]; exact read) (.inl ⟨owner, f, found, runs⟩)
  · rw [none, iff_or_self]
    rintro ⟨owner, f, found, runs⟩
    have real := List.find?_some runs
    simp [Member.handsOver_method.mpr (first owner f found)] at real

theorem needsNothing_of_usage {ps : List Parameter} {σ : Bindings}
    {found : Option (ClassRef × Member)} (read : w.listed found = .ok ps)
    (usable : Constructor.usage σ false ps = .ok (.usable [])) :
    (initialising found).NeedsNothing c := by
  have binds {owner : ClassRef} {f : Function} (read : w.parametersOf owner f = .ok ps)
      (signature : Signature f.parameters) (title : String) :
      ∃ arguments, ({} : Arguments).bind title f.parameters = .ok arguments :=
    ⟨_, (binds_of_usage read usable signature).bound title [] rfl⟩
  have native (kind : NativeKind) : (Member.native kind).NeedsNothing c := by
    intro perform receiver st
    unfold Run.runInitializer
    rw [Run.exec_bind_of_ok (Run.exec_get st)]
    cases st.world.dataClass? c with
    | none => rfl
    | some b => cases b <;> rfl
  cases found with
  | none => exact native .operation
  | some entry =>
    obtain ⟨owner, m⟩ := entry
    cases m with
    | method f | classMethod f | staticMethod f => exact binds read
    | native kind => exact native kind
    | _ => trivial

end World

namespace Run
variable {perform : Perform} {c : ClassRef} {a : Arguments} {v : Value} {st made : Store}

open World (initialising)

theorem exec_setUp_eq : exec (setUp perform c v a) st =
    let first := initialising (st.world.member? c Constructor.initializer)
    let real := (st.world.realInitializer? c).getD (.native .operation)
    if !first.handsOver then exec (runInitializer perform c v a first) st
    else if (st.world.info c).structural then exec (badType .structuralClass) st
    else exec (runInitializer perform c v a real)
      { st with world := st.world.setMember c Constructor.initializer real } := by
  unfold setUp
  rw [exec_bind_of_ok (exec_get st)]
  dsimp only
  rw [apply_ite (exec · st), apply_ite (exec · st)]
  rfl

/-- Setting up an object runs the initialiser of its class. If that one is handed over to, the class
is given it before. -/
theorem exec_setUp (perform : Perform) (v : Value) (a : Arguments)
    (plain : ¬ (st.world.info c).structural) :
    let real := initialising (st.world.running? c)
    ∃ after, (after = st ∨
        after = { st with world := st.world.setMember c Constructor.initializer real }) ∧
      exec (setUp perform c v a) st = exec (runInitializer perform c v a real) after := by
  have real : (st.world.realInitializer? c).getD (.native .operation) =
      initialising (st.world.running? c) := by
    rw [World.realInitializer?_eq, initialising]
  rw [exec_setUp_eq]
  dsimp only
  rw [real, if_neg plain]
  split
  · rename_i stays
    rw [World.running?_eq_member? (by simpa using stays)]
    exact ⟨st, .inl rfl, rfl⟩
  · exact ⟨_, .inr rfl, rfl⟩

/-- A call of a class runs the initialiser of the class on what was made, if that is an object of
the class. -/
theorem exec_instantiate (making : exec (newObject perform c a) st = (.ok v, made))
    (own : made.classOf v = c) (derives : made.world.derives c c)
    (plain : ¬ (made.world.info c).structural) :
    let real := initialising (made.world.running? c)
    ∃ after, (after = made ∨
        after = { made with world := made.world.setMember c Constructor.initializer real }) ∧
      exec (instantiate perform c a) st = exec (do
        runInitializer perform c v a real
        return v) after := by
  obtain ⟨after, changed, ran⟩ := exec_setUp perform v a plain
  refine ⟨after, changed, ?_⟩
  unfold instantiate
  rw [exec_bind_of_ok making, exec_bind_of_ok (exec_get made)]
  rw [own, if_pos derives, exec_bind, ran, ← exec_bind]

/-- The parameters that are listed for the initialiser of a class are those of the one that runs
when the class is called, exactly if that one is a method and the first initialiser in the
linearization, or has no parameters to list. If they are, a class that is to be called without
arguments can be called so. -/
theorem initializer_listed {w : World} (order : w.WellFormed) {s : Settings}
    {d : ConstructorDeclaration} {others : List ConstructorDeclaration}
    (declared : w.constructorDeclarations s c = .ok (d :: others)) :
    (w.derives c c → ¬ (w.info c).structural → ∀ perform a st v made, made.world = w →
      exec (newObject perform c a) st = (.ok v, made) → made.classOf v = c →
        let real := initialising (w.running? c)
        ∃ after, (after = made ∨
            after = { made with world := w.setMember c Constructor.initializer real }) ∧
          exec (instantiate perform c a) st = exec (do
            runInitializer perform c v a real
            return v) after) ∧
    (w.listed (w.running? c) = .ok d.parameters ↔
      (∃ owner f, w.member? c Constructor.initializer = some (owner, .method f) ∧
        w.running? c = some (owner, .method f)) ∨ w.listed (w.running? c) = .ok []) ∧
    (w.listed (w.running? c) = .ok d.parameters → ∀ (r : Registry) h selection,
      r.select s w h c = .ok selection → selection.constructor.name = Constructor.initializer →
        selection.constructor.requests = [] → (initialising (w.running? c)).NeedsNothing c) := by
  obtain ⟨first, rest, same, initializer, -, alternates⟩ :=
    World.constructorDeclarations_eq_ok declared
  cases same
  refine ⟨?_, World.listed_running initializer, ?_⟩
  · rintro derives plain perform a st v made rfl making own
    exact exec_instantiate making own derives plain
  · intro agrees r h selection selected name nothing
    obtain ⟨ks, found, mem⟩ := Registry.mem_of_select selected
    obtain ⟨ds, declared', -, sources⟩ := World.constructors_sublist found
    cases declared.symm.trans declared'
    obtain ⟨source, listed, made⟩ := sources _ mem
    obtain ⟨called, σ, usable⟩ := World.constructor_eq_some made
    rw [nothing] at usable
    rcases List.mem_cons.mp listed with rfl | listed
    · exact World.needsNothing_of_usage agrees usable
    · -- A class method can have the name of the initialiser; it is then the one that runs.
      obtain ⟨owner, f, listed, read⟩ := alternates source listed
      rw [← called, name] at listed
      have held := World.mem_alternateConstructors order listed
      have runs := World.running?_of_first held (by simp [Member.handsOver])
      exact World.needsNothing_of_usage (by rw [runs]; exact read) usable

end Run

/-! A foyer. A rack is a tray first and something with a label second, so the initialiser of trays is
listed, and it runs. A desk has a label first and is lit second: the initialiser of what has a label
is listed, which hands over to one that needs a lamp. -/
namespace Foyer
open Run

def initializer (owner : String) (parameters : List Parameter) (body : Body := .steps []) :
    Function where
  name := "__init__"
  owner := owner
  parameters := parameters
  body := body

def size : Parameter := { name := "size", default := some (.int 1) }

def lamp : Parameter := { name := "lamp", type := some (.cls (.declared 0)) }

def trayInitializer : Function := initializer "Tray" [size]

def litInitializer : Function := initializer "Lit" [lamp]

def cls (name : String) (bases line : List ClassRef) (members : Namespace) : ClassInfo where
  name := name
  qualifiedName := name
  bases := bases
  linearization := line ++ [.builtin .object]
  members := members

def labelled : ClassInfo where
  name := "Labelled"
  qualifiedName := "Labelled"
  bases := [.builtin .protocol]
  linearization := [.declared 1, .builtin .protocol, .builtin .generic, .builtin .object]
  members := [("__init__", .method (initializer "Labelled" [] .handOver))]
  structural := true

def foyer : World where
  moduleName := "foyer"
  classes := [cls "Lamp" [] [.declared 0] [], labelled,
    cls "Tray" [] [.declared 2] [("__init__", .method trayInitializer)],
    cls "Lit" [] [.declared 3] [("__init__", .method litInitializer)],
    cls "Rack" [.declared 2, .declared 1]
      [.declared 4, .declared 2, .declared 1, .builtin .protocol, .builtin .generic] [],
    cls "Desk" [.declared 1, .declared 3]
      [.declared 5, .declared 1, .builtin .protocol, .builtin .generic, .declared 3] []]

theorem foyer_wellFormed : foyer.WellFormed := by
  apply World.wellFormed_of_classes
  intro info mem
  refine ⟨?_, ?_, ?_⟩
  · revert info
    decide
  · revert info
    simp [foyer, cls, labelled]
  · revert info
    decide

def store : Store := { world := foyer }

def first : Constructor := { name := "__init__" }

theorem rack_initialised :
    foyer.constructorDeclarations {} (.declared 4) =
      .ok [{ name := "__init__", owner := .declared 2, parameters := [size] }] ∧
    foyer.running? (.declared 4) = some (.declared 2, .method trayInitializer) ∧
    foyer.listed (foyer.running? (.declared 4)) = .ok [size] ∧
    Registry.select {} {} foyer [] (.declared 4) = .ok { constructor := first } ∧
    (∃ arguments, ({} : Arguments).bind "Tray.__init__" [size] = .ok arguments) ∧
    ∀ perform, (exec (instantiate perform (.declared 4) {}) store).1 = .ok (.object 0) := by
  have declared : foyer.constructorDeclarations {} (.declared 4) =
      .ok [{ name := "__init__", owner := .declared 2, parameters := [size] }] := by rfl
  have runs : foyer.running? (.declared 4) = some (.declared 2, .method trayInitializer) := by rfl
  have selected : Registry.select {} {} foyer [] (.declared 4) =
      .ok { constructor := first } := by rfl
  obtain ⟨calls, agrees, needs⟩ := initializer_listed foyer_wellFormed declared
  have listed := agrees.mpr (.inl ⟨_, _, rfl, runs⟩)
  refine ⟨declared, runs, listed, selected, ?_, fun perform => ?_⟩
  · have nothing := needs listed {} [] _ selected rfl rfl
    rw [runs] at nothing
    exact nothing ⟨by decide, by decide, by decide⟩ "Tray.__init__"
  · obtain ⟨after, changed, ran⟩ := calls rfl (by decide) perform {} store (.object 0)
      { store with heap := [{ cls := .declared 4 }] } rfl rfl rfl
    rw [ran]
    rcases changed with rfl | rfl <;> rfl

theorem desk_needs_lamp :
    foyer.constructorDeclarations {} (.declared 5) =
      .ok [{ name := "__init__", owner := .declared 1 }] ∧
    Registry.select {} {} foyer [] (.declared 5) = .ok { constructor := first } ∧
    foyer.running? (.declared 5) = some (.declared 3, .method litInitializer) ∧
    foyer.listed (foyer.running? (.declared 5)) = .ok [lamp] ∧
    ∀ perform, (exec (instantiate perform (.declared 5) {}) store).1 =
      .error (.badType (.missingArguments "Lit.__init__" ["lamp"])) := by
  refine ⟨rfl, rfl, rfl, rfl, fun perform => rfl⟩

end Foyer
end Wiring
