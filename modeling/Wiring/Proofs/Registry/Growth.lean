import Wiring.Proofs.Run
import Wiring.Proofs.Entries
import Wiring.Registration

/-! What can happen to registries while nothing is registered. Injecting and creating components,
and all code of components that runs meanwhile, adds no entry and exchanges no component at hand; it
builds components, each with the provider that was registered for it, and records dependencies. -/
namespace Wiring

/-- Objects that were allocated stay, and so does what is on record. -/
structure Store.Precedes (st after : Store) : Prop where
  settings : after.settings = st.settings
  heap : st.heap.length ≤ after.heap.length
  events : st.events <+: after.events

namespace Store.Precedes
variable {first st after : Store}

theorem of_eq (settings : after.settings = st.settings) (heap : after.heap = st.heap)
    (events : after.events = st.events) : st.Precedes after where
  settings := settings
  heap := by simp [heap]
  events := by simp [events]

theorem refl (st : Store) : st.Precedes st := .of_eq rfl rfl rfl

theorem trans (begins : first.Precedes st) (ends : st.Precedes after) : first.Precedes after :=
  ⟨ends.settings.trans begins.settings, Nat.le_trans begins.heap ends.heap,
    begins.events.trans ends.events⟩

theorem setRegistry (st : Store) (name : String) (r : Registry) :
    st.Precedes (st.setRegistry name r) := .of_eq rfl rfl rfl

end Store.Precedes

/-- Between the two stores a call of the provider gave this value, and nothing was at hand in the
registry under the name when it began. -/
def Run.Makes (first last : Store) (registry name : String) (p : Provider) (v : Value) : Prop :=
  ∃ n st after, first.Precedes st ∧ after.Precedes last ∧
    (st.registry registry).instances.lookup name = none ∧
    exec (build (performWithin n) p) st = (.ok v, after)

variable {start first last finish : Store}

theorem Run.Makes.widen {registry name : String} {p : Provider} {v : Value}
    (makes : Makes first last registry name p v) (begins : start.Precedes first)
    (ends : last.Precedes finish) : Makes start finish registry name p v := by
  obtain ⟨n, st, after, later, earlier, missing, ran⟩ := makes
  exact ⟨n, st, after, begins.trans later, earlier.trans ends, missing, ran⟩

namespace Registry

variable {title : String}

/-- What the registry of the title becomes between two stores while nothing is registered. -/
structure Grows (title : String) (first last : Store) (r after : Registry) : Prop where
  entries : after.entries = r.entries
  resolvable : after.resolvable = r.resolvable
  providers : after.providers = r.providers
  kept : ∀ name v, r.instances.lookup name = some v → after.instances.lookup name = some v
  built : ∀ name v, after.instances.lookup name = some v → r.instances.lookup name = some v ∨
    ∃ p, r.providers.lookup name = some p ∧ Run.Makes first last title name p v

theorem Grows.refl (r : Registry) : r.Grows title first last r :=
  ⟨rfl, rfl, rfl, fun _ _ held => held, fun _ _ held => .inl held⟩

theorem Grows.widen {r after : Registry} (grows : r.Grows title first last after)
    (begins : start.Precedes first) (ends : last.Precedes finish) :
    r.Grows title start finish after where
  entries := grows.entries
  resolvable := grows.resolvable
  providers := grows.providers
  kept := grows.kept
  built name v held := (grows.built name v held).imp id fun ⟨p, provider, makes⟩ =>
    ⟨p, provider, makes.widen begins ends⟩

theorem Grows.trans {r mid after : Registry} (begun : r.Grows title first last mid)
    (ended : mid.Grows title first last after) : r.Grows title first last after where
  entries := ended.entries.trans begun.entries
  resolvable := ended.resolvable.trans begun.resolvable
  providers := ended.providers.trans begun.providers
  kept name v held := ended.kept name v (begun.kept name v held)
  built name v held := by
    rcases ended.built name v held with earlier | made
    · exact begun.built name v earlier
    · rw [begun.providers] at made
      exact .inr made

theorem Grows.keepReturned {r mid : Registry} (grows : r.Grows title first last mid) {name : String}
    {p : Provider} {v : Value} (missing : r.instances.lookup name = none)
    (provider : r.providers.lookup name = some p) (makes : Run.Makes first last title name p v) :
    r.Grows title first last (mid.keepReturned name v) where
  entries := grows.entries
  resolvable := grows.resolvable
  providers := grows.providers
  kept other x held := by
    have ne : other ≠ name := by
      rintro rfl
      rw [missing] at held
      cases held
    simp only [Registry.keepReturned, Registry.keep, Entries.lookup_set_of_ne ne]
    exact grows.kept other x held
  built other x held := by
    by_cases same : other = name
    · subst same
      simp only [Registry.keepReturned, Registry.keep, Entries.lookup_set_self, Option.some.injEq] at held
      subst held
      exact .inr ⟨p, provider, makes⟩
    · simp only [Registry.keepReturned, Registry.keep, Entries.lookup_set_of_ne same] at held
      exact grows.built other x held

theorem grows_addDependency (r : Registry) (dependency dependent : String) :
    r.Grows title first last (r.addDependency dependency dependent) :=
  ⟨rfl, rfl, rfl, fun _ _ held => held, fun _ _ held => .inl held⟩

theorem grows_record (r : Registry) (injected : List Candidate) (dependent : String) :
    r.Grows title first last (r.record injected dependent) := by
  unfold record
  induction injected.filter (!·.resolvable) generalizing r with
  | nil => exact .refl r
  | cons c cs ih => exact (r.grows_addDependency c.name dependent).trans (ih _)

end Registry

namespace Store

@[simp] theorem registry_setRegistry_self (st : Store) (name : String) (r : Registry) :
    (st.setRegistry name r).registry name = r := by
  simp [registry, setRegistry]

theorem registry_setRegistry_of_ne {name other : String} (ne : other ≠ name) (st : Store)
    (r : Registry) : (st.setRegistry name r).registry other = st.registry other := by
  simp [registry, setRegistry, Entries.lookup_set_of_ne ne]

theorem setRegistry_setRegistry (st : Store) (name : String) (r : Registry) :
    (st.setRegistry name r).setRegistry name r = st.setRegistry name r := by
  have held : (st.registries.set name r).lookup name = some r := Entries.lookup_set_self _ _ _
  simp [setRegistry, Entries.set_eq_self held]

/-- What a store becomes while nothing is registered. -/
structure Grows (st after : Store) : Prop where
  precedes : st.Precedes after
  registry : ∀ name, (st.registry name).Grows name st after (after.registry name)

theorem Grows.refl (st : Store) : st.Grows st := ⟨.refl st, fun _ => .refl _⟩

theorem Grows.trans {st mid after : Store} (begun : st.Grows mid) (ended : mid.Grows after) :
    st.Grows after where
  precedes := begun.precedes.trans ended.precedes
  registry name := ((begun.registry name).widen (.refl st) ended.precedes).trans
    ((ended.registry name).widen begun.precedes (.refl after))

theorem Grows.of_registries {st after : Store} (precedes : st.Precedes after)
    (registries : after.registries = st.registries) : st.Grows after := by
  refine ⟨precedes, fun name => ?_⟩
  rw [Store.registry, Store.registry, registries]
  exact .refl _

theorem Grows.setRegistry {st mid : Store} (grows : st.Grows mid) {name : String} {r : Registry}
    (own : (st.registry name).Grows name st mid r) : st.Grows (mid.setRegistry name r) := by
  have ends : mid.Precedes (mid.setRegistry name r) := .setRegistry mid name r
  refine ⟨grows.precedes.trans ends, fun other => ?_⟩
  by_cases same : other = name
  · rw [same, registry_setRegistry_self]
    exact own.widen (.refl st) ends
  · rw [registry_setRegistry_of_ne same]
    exact (grows.registry other).widen (.refl st) ends

end Store

namespace Run

def Quiet {α : Type} (x : Run α) : Prop := ∀ st : Store, st.Grows (exec x st).2

instance : IsPreorder Store Store.Grows where
  refl := .refl
  trans _ _ _ := .trans

variable {α β : Type}

namespace Quiet

theorem get : Quiet (MonadState.get : Run Store) := Keeps.get

theorem bind {x : Run α} {f : α → Run β} (first : Quiet x) (rest : ∀ a, Quiet (f a)) :
    Quiet (x >>= f) := Keeps.bind first rest

theorem lift (result : Except Error α) : Quiet (Run.lift result) := Keeps.lift result

end Quiet
end Run
end Wiring
