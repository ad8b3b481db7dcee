import Mathlib.Data.List.Infix
import Wiring.Proofs.Container

/-! The components that a component depends on, as a registry has them on record. Injecting records
the named candidates, each once, under the name of the component. Code that runs meanwhile records
nothing by itself; only a provider that creates a component has something recorded, under the name
of the component that it creates. -/
namespace Wiring

/-- Names on record after others are recorded: new ones follow in the order of their first
occurrence. -/
def noted (known names : List String) : List String := known ++ (names.removeAll known).eraseDups

theorem noted_nil (known : List String) : noted known [] = known := by
  simp [noted, List.removeAll]

theorem noted_singleton (known : List String) (name : String) :
    noted known [name] = if known.contains name then known else known ++ [name] := by
  by_cases on : name ∈ known <;> simp [noted, List.removeAll, List.eraseDups_cons, on]

theorem noted_append (known names more : List String) :
    noted known (names ++ more) = noted (noted known names) more := by
  -- what is new in both is new after the first of them are noted
  have fresh : (more.removeAll known).removeAll (names.removeAll known) =
      more.removeAll (noted known names) := by
    simp only [List.removeAll, List.filter_filter]
    refine List.filter_congr fun name _ => ?_
    by_cases on : name ∈ known <;> simp [noted, List.removeAll, on]
  have parts : (names ++ more).removeAll known = names.removeAll known ++ more.removeAll known :=
    List.filter_append _ _
  rw [noted, parts, List.eraseDups_append, fresh, ← List.append_assoc]
  rfl

theorem noted_eq_self {known names : List String} :
    noted known names = known ↔ ∀ name ∈ names, name ∈ known := by
  constructor
  · intro same name mem
    by_contra new
    have fresh : (names.removeAll known).eraseDups = [] := by simpa [noted] using same
    have listed : name ∈ (names.removeAll known).eraseDups := by
      simpa [List.removeAll] using ⟨mem, new⟩
    simp [fresh] at listed
  · intro old
    have none : names.removeAll known = [] := by simpa [List.removeAll] using old
    simp [noted, none]

def named (candidates : List Candidate) : List String :=
  (candidates.filter (!·.resolvable)).map (·.name)

theorem named_append (candidates more : List Candidate) :
    named (candidates ++ more) = named candidates ++ named more := by
  simp [named]

namespace Registry
variable (r : Registry)

theorem dependenciesOf_addDependency (dependency dependent name : String) :
    (r.addDependency dependency dependent).dependenciesOf name =
      if name = dependent then noted (r.dependenciesOf name) [dependency]
      else r.dependenciesOf name := by
  split
  · rename_i same
    rw [noted_singleton, same]
    simp [addDependency, dependenciesOf]
  · rename_i other
    simp [addDependency, dependenciesOf, Entries.lookup_set_of_ne other]

theorem dependenciesOf_record (injected : List Candidate) (dependent name : String) :
    (r.record injected dependent).dependenciesOf name =
      if name = dependent then noted (r.dependenciesOf name) (named injected)
      else r.dependenciesOf name := by
  unfold record named
  induction injected.filter (!·.resolvable) generalizing r with
  | nil => simp [noted_nil]
  | cons c cs ih =>
    rw [List.foldl_cons, ih, dependenciesOf_addDependency]
    split
    · rw [← noted_append]
      rfl
    · rfl

variable {r : Registry} {injected : List Candidate} {dependent : String}

theorem record_eq_self (known : ∀ name ∈ named injected, name ∈ r.dependenciesOf dependent) :
    r.record injected dependent = r := by
  unfold record
  unfold named at known
  generalize injected.filter (!·.resolvable) = cs at known ⊢
  induction cs with
  | nil => rfl
  | cons c cs ih =>
    obtain ⟨here, later⟩ := List.forall_mem_cons.mp (List.map_cons ▸ known)
    have held : r.dependencies.lookup dependent = some (r.dependenciesOf dependent) := by
      unfold dependenciesOf at here ⊢
      cases found : r.dependencies.lookup dependent with
      | none => simp [found] at here
      | some names => rfl
    have noted : (r.dependenciesOf dependent).contains c.name := by simpa using here
    have same : r.addDependency c.name dependent = r := by
      simp only [addDependency, noted, if_true, Entries.set_eq_self held]
    rw [List.foldl_cons, same]
    exact ih later

theorem record_record (r : Registry) (injected : List Candidate) (dependent : String) :
    (r.record injected dependent).record injected dependent = r.record injected dependent := by
  apply record_eq_self
  intro name mem
  rw [dependenciesOf_record, if_pos rfl]
  by_cases on : name ∈ r.dependenciesOf dependent <;> simp [noted, List.removeAll, on, mem]

end Registry

namespace Store

def dependencies (st : Store) (title name : String) : List String :=
  (st.registry title).dependenciesOf name

/-- Between the stores the provider was called, and nothing was at hand in the registry under the name
when it was. -/
def Calls (st after : Store) (registry name : String) (p : Provider) : Prop :=
  ∃ n now, st.Precedes now ∧ (Run.exec (Run.build (Run.performWithin n) p) now).2.Precedes after ∧
    (now.registry registry).instances.lookup name = none

/-- Between the stores a registered provider was called that creates a component of this name in the
registry of the title. -/
def Creates (st after : Store) (title name : String) : Prop :=
  ∃ registry key f c, (st.registry registry).providers.lookup key = some (.function f) ∧
    f.product = .created c title ∧ defaultName (st.world.name c) = name ∧
    .built f.name ∈ after.events.drop st.events.length ∧ st.Calls after registry key (.function f)

theorem dependencies_record (st : Store) (registry component : String) (injected : List Candidate)
    (title name : String) :
    (st.setRegistry registry ((st.registry registry).record injected component)).dependencies
      title name =
      if title = registry ∧ name = component then noted (st.dependencies title name) (named injected)
      else st.dependencies title name := by
  by_cases same : title = registry
  · subst same
    simp [dependencies, Registry.dependenciesOf_record]
  · simp [dependencies, same, registry_setRegistry_of_ne same]

theorem dependencies_keepReturned (st : Store) (registry title name kept : String) (v : Value) :
    (st.setRegistry registry ((st.registry registry).keepReturned kept v)).dependencies title name =
      st.dependencies title name := by
  by_cases same : title = registry
  · subst same
    simp [dependencies, Registry.keepReturned, Registry.keep, Registry.dependenciesOf]
  · simp [dependencies, registry_setRegistry_of_ne same]

/-- Between the stores nothing is registered, and dependencies are recorded only for own components
and for those that providers create. -/
structure Notes (own : String → String → Prop) (st after : Store) : Prop where
  grows : st.Grows after
  names : ∀ c, after.world.name c = st.world.name c
  others : ∀ title name, ¬ own title name → ¬ st.Creates after title name →
    after.dependencies title name = st.dependencies title name

variable {st mid after : Store} {own : String → String → Prop}

theorem Calls.widen {start finish : Store} {registry name : String} {p : Provider}
    (calls : st.Calls after registry name p) (begins : start.Precedes st)
    (ends : after.Precedes finish) : start.Calls finish registry name p := by
  obtain ⟨n, now, later, earlier, missing⟩ := calls
  exact ⟨n, now, begins.trans later, earlier.trans ends, missing⟩

theorem Creates.widen {title name : String} (created : mid.Creates after title name)
    (begun : st.Grows mid) (names : ∀ c, mid.world.name c = st.world.name c) :
    st.Creates after title name := by
  obtain ⟨registry, key, f, c, provider, product, same, reported, calls⟩ := created
  rw [(begun.registry registry).providers] at provider
  refine ⟨registry, key, f, c, provider, product, by rw [← names, same], ?_,
    calls.widen begun.precedes (.refl after)⟩
  have fewer := begun.precedes.events.length_le
  exact (List.drop_sublist_drop_left _ fewer).subset reported

theorem Creates.extend {title name : String} (created : st.Creates mid title name)
    (ended : mid.Precedes after) : st.Creates after title name := by
  obtain ⟨registry, key, f, c, provider, product, same, reported, calls⟩ := created
  refine ⟨registry, key, f, c, provider, product, same, ?_, calls.widen (.refl st) ended⟩
  exact (List.IsPrefix.drop ended.events _).subset reported

namespace Notes

theorem trans (begun : st.Notes own mid) (ended : mid.Notes own after) : st.Notes own after where
  grows := begun.grows.trans ended.grows
  names c := (ended.names c).trans (begun.names c)
  others title name other apart := by
    rw [ended.others title name other fun created => apart (created.widen begun.grows begun.names),
      begun.others title name other fun created => apart (created.extend ended.grows.precedes)]

theorem of_drifts (drifts : st.Drifts after) : st.Notes own after where
  grows := .of_registries drifts.toPrecedes drifts.registries
  names := drifts.names
  others title name _ _ := by
    rw [dependencies, dependencies, registry, registry, drifts.registries]

end Notes

instance : Tolerant (Store.Notes own) where
  refl st := .of_drifts (.refl st)
  trans _ _ _ := .trans
  drift := .of_drifts

theorem Notes.weaken {more : String → String → Prop} (notes : st.Notes own after)
    (wider : ∀ title name, own title name → more title name) : st.Notes more after where
  grows := notes.grows
  names := notes.names
  others title name other := notes.others title name (mt (wider title name) other)

theorem notes_record (st : Store) {registry component : String} (injected : List Candidate)
    (mine : own registry component) : st.Notes own
      (st.setRegistry registry ((st.registry registry).record injected component)) where
  grows := .setRegistry (.refl st) (Registry.grows_record _ _ _)
  names _ := rfl
  others title name other _ := by
    rw [dependencies_record, if_neg]
    rintro ⟨rfl, rfl⟩
    exact other mine

/-- Between the stores the names are added to the record of a component, and other records change only
on the account of components that providers create. -/
structure Adds (registry component : String) (names : List String) (st after : Store) : Prop where
  grows : st.Grows after
  titles : ∀ c, after.world.name c = st.world.name c
  records : ∀ title name, ¬ st.Creates after title name → after.dependencies title name =
    if title = registry ∧ name = component then noted (st.dependencies title name) names
    else st.dependencies title name

variable {registry component : String} {names more : List String}

theorem Notes.adds (notes : st.Notes (fun _ _ => False) after) :
    Adds registry component [] st after where
  grows := notes.grows
  titles := notes.names
  records title name apart := by simpa [noted_nil] using notes.others title name id apart

theorem Adds.trans (begun : Adds registry component names st mid)
    (ended : Adds registry component more mid after) :
    Adds registry component (names ++ more) st after where
  grows := begun.grows.trans ended.grows
  titles c := (ended.titles c).trans (begun.titles c)
  records title name apart := by
    rw [ended.records title name fun created => apart (created.widen begun.grows begun.titles),
      begun.records title name fun created => apart (created.extend ended.grows.precedes)]
    split
    · rw [noted_append]
    · rfl

theorem adds_record (st : Store) (registry component : String) (injected : List Candidate) :
    Adds registry component (named injected) st
      (st.setRegistry registry ((st.registry registry).record injected component)) where
  grows := .setRegistry (.refl st) (Registry.grows_record _ _ _)
  titles _ := rfl
  records title name _ := st.dependencies_record registry component injected title name

end Store

namespace Run

/-- Only the component that is created has something recorded, apart from what providers create. -/
def Owns (registry component title name : String) : Prop := title = registry ∧ name = component

theorem keeps_record (registry component : String) (injected : List Candidate) :
    Keeps (Store.Notes (Owns registry component))
      (modifyRegistry registry (·.record injected component)) :=
  fun st => st.notes_record injected ⟨rfl, rfl⟩

theorem exec_build_created (perform : Perform) {f : ProviderFunction} {c : ClassRef} {title : String}
    (product : f.product = .created c title) (st : Store) :
    exec (build perform (.function f)) st =
      match f.complaint with
      | some text => (.error (.component text), { st with events := st.events ++ [.built f.name] })
      | none => exec (createWith perform title c none [])
          { st with events := st.events ++ [.built f.name] } := by
  rw [build, exec_bind, exec_emit]
  cases f.complaint with
  | some text => rfl
  | none => simp only [product]

section Providers
variable {n : Nat} (serves : Serves (Store.Notes fun _ _ => False) True (performWithin n))
  {registry key : String} {p : Provider} {st : Store}
include serves

theorem notes_createWith (registry : String) (c : ClassRef) (name : Option String)
    (explicit : Entries Value) (st : Store) :
    st.Notes (Owns registry (st.world.componentName c name))
      (exec (createWith (performWithin n) registry c name explicit) st).2 :=
  keeps_createWith (serves.weaken fun notes => notes.weaken fun _ _ => False.elim) c name explicit
    (keeps_record registry _)

theorem notes_build (missing : (st.registry registry).instances.lookup key = none)
    (provider : (st.registry registry).providers.lookup key = some p) :
    st.Notes (fun _ _ => False) (exec (build (performWithin n) p) st).2 := by
  -- a provider that creates a component has it recorded, and `Creates` accounts for this one call
  by_cases creates : ∃ f c title, p = .function f ∧ f.product = .created c title
  · obtain ⟨f, c, title, rfl, product⟩ := creates
    have began : st.Notes (fun _ _ => False) { st with events := st.events ++ [.built f.name] } :=
      keeps_emit (.built f.name) st
    have called : st.Calls (exec (build (performWithin n) (.function f)) st).2 registry key
        (.function f) := ⟨n, st, .refl st, .refl _, missing⟩
    rw [exec_build_created _ product st] at called ⊢
    cases complains : f.complaint with
    | some text => exact began
    | none =>
      rw [complains] at called
      have made := notes_createWith serves title c none []
        { st with events := st.events ++ [.built f.name] }
      have whole := (began.weaken fun _ _ => False.elim).trans made
      refine ⟨whole.grows, whole.names, fun other name _ apart => ?_⟩
      refine whole.others other name ?_ apart
      rintro ⟨rfl, rfl⟩
      refine apart ⟨registry, key, f, c, provider, product, rfl, ?_, called⟩
      obtain ⟨later, ended⟩ := made.grows.precedes.events
      rw [← ended]
      simp
  · refine keeps_build serves p (fun f c title same product => ?_) st
    exact absurd ⟨f, c, title, same, product⟩ creates

end Providers

theorem notes_component (n : Nat)
    (serves : Serves (Store.Notes fun _ _ => False) True (performWithin n)) (registry : String)
    (c : Candidate) :
    Keeps (Store.Notes fun _ _ => False) (component (performWithin n) registry c) := by
  intro st
  have grows := quiet_component n (serves.weaken Store.Notes.grows) registry c st
  have fetched := fetched_component (performWithin n) registry c st
  generalize exec (component (performWithin n) registry c) st = ended at grows fetched ⊢
  cases fetched with
  | atHand | unknown => exact .of_drifts (.refl st)
  | failed missing provider ran =>
    have called := notes_build serves missing provider
    rwa [ran] at called
  | @made _ v next missing provider ran =>
    have called := notes_build serves missing provider
    rw [ran] at called
    refine ⟨grows, called.names, fun title name other apart => ?_⟩
    rw [← called.others title name other fun created =>
      apart (created.extend (.setRegistry next _ _))]
    exact Store.dependencies_keepReturned next registry title name _ v

theorem serves_notes (own : String → String → Prop) : Serves (Store.Notes own) True perform :=
  (serves_perform fun _ n serves registry c => notes_component n serves registry c).weaken
    fun notes => notes.weaken fun _ _ => False.elim

end Run
end Wiring
