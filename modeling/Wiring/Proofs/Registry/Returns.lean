import Wiring.Proofs.Operations

/-! How often providers return. What a provider returned is put at hand under its name, and while
something is at hand the provider is not called again. So it returns once, unless it is called while
it runs itself; a provider that keeps to itself is not. -/
namespace Wiring

/-- The provider leaves the registry of the title as it is. -/
def Provider.Aloof (title : String) (p : Provider) : Prop :=
  ∀ n st, (Run.exec (Run.build (Run.performWithin n) p) st).2.registry title = st.registry title

namespace Registry
variable {title : String} {r after : Registry}

/-- No provider has returned twice, and those that have left something at hand. All providers keep to
themselves. -/
structure ReturnedOnce (title : String) (r : Registry) : Prop where
  distinct : r.returned.Nodup
  atHand : ∀ name ∈ r.returned, (r.instances.lookup name).isSome
  aloof : ∀ name p, r.providers.lookup name = some p → p.Aloof title

namespace ReturnedOnce

theorem empty : ReturnedOnce title {} := ⟨.nil, nofun, nofun⟩

theorem of_eq (once : r.ReturnedOnce title) (returned : after.returned = r.returned)
    (instances : after.instances = r.instances) (providers : after.providers = r.providers) :
    after.ReturnedOnce title where
  distinct := returned ▸ once.distinct
  atHand name mem := by
    rw [instances]
    exact once.atHand name (returned ▸ mem)
  aloof name p provider := once.aloof name p (providers ▸ provider)

theorem add (once : r.ReturnedOnce title) {name : String} {type : Hint} {o : Registration}
    {c : Candidate} (added : r.add name type o = .ok (c, after)) : after.ReturnedOnce title := by
  obtain ⟨-, -, -, -, -, rfl⟩ := add_eq_ok added
  exact once.of_eq rfl rfl rfl

theorem keep (once : r.ReturnedOnce title) (name : String) (v : Value) :
    (r.keep name v).ReturnedOnce title where
  distinct := once.distinct
  atHand other mem := by
    by_cases same : other = name
    · simp [Registry.keep, same]
    · rw [Registry.keep, Entries.lookup_set_of_ne same]
      exact once.atHand other mem
  aloof := once.aloof

theorem addResolvable (once : r.ReturnedOnce title) (name : String) (type : Hint) (cls : ClassRef)
    (v : Value) : (r.addResolvable name type cls v).ReturnedOnce title := by
  have entered : ({ r with resolvable := r.resolvable ++ [(r.typeCandidate name cls, type)] } :
      Registry).ReturnedOnce title := once.of_eq rfl rfl rfl
  exact entered.keep _ v

theorem provide (once : r.ReturnedOnce title) (name : String) {p : Provider}
    (aloof : p.Aloof title) : (r.provide name p).ReturnedOnce title where
  distinct := once.distinct
  atHand := once.atHand
  aloof other q provider := by
    by_cases same : other = name
    · rw [same, Registry.provide, Entries.lookup_set_self] at provider
      exact Option.some.inj provider ▸ aloof
    · rw [Registry.provide, Entries.lookup_set_of_ne same] at provider
      exact once.aloof other q provider

theorem record (once : r.ReturnedOnce title) (injected : List Candidate) (dependent : String) :
    (r.record injected dependent).ReturnedOnce title := by
  unfold Registry.record
  induction injected.filter (!·.resolvable) generalizing r with
  | nil => exact once
  | cons c cs ih => exact ih (once.of_eq rfl rfl rfl)

/-- A provider is called where nothing is at hand under its name, so it had not returned yet. -/
theorem keepReturned (once : r.ReturnedOnce title) {name : String}
    (missing : r.instances.lookup name = none) (v : Value) :
    (r.keepReturned name v).ReturnedOnce title where
  distinct := by
    have fresh : name ∉ r.returned := fun mem => by simpa [missing] using once.atHand name mem
    exact List.nodup_append_comm.mp (List.nodup_cons.mpr ⟨fresh, once.distinct⟩)
  atHand other mem := by
    by_cases same : other = name
    · simp [Registry.keepReturned, Registry.keep, same]
    · have earlier : other ∈ r.returned := by
        simpa [Registry.keepReturned, same] using mem
      exact (once.keep name v).atHand other earlier
  aloof := once.aloof

end ReturnedOnce
end Registry

/-- From the one store to the other, no provider of the registry of the title that keeps to itself
returns a second time. -/
def Store.RepeatsNone (title : String) (st after : Store) : Prop :=
  (st.registry title).ReturnedOnce title → (after.registry title).ReturnedOnce title

instance (title : String) : Tolerant (Store.RepeatsNone title) where
  refl _ := id
  trans _ _ _ begun ended := ended ∘ begun
  drift drifts once := by
    rw [Store.registry, drifts.registries]
    exact once

namespace Run

/-- Without lazy handles nothing is fetched, so no registry changes. -/
theorem serves_drifts (n : Nat) : Serves Store.Drifts False (performWithin n) :=
  serves_performWithin (fun handed => handed.elim) n

theorem aloof_of_not_created {p : Provider}
    (plain : ∀ f c registry, p = .function f → f.product ≠ .created c registry) (title : String) :
    p.Aloof title := by
  intro n st
  have drifts := keeps_build (serves_drifts n) p
    (fun f c registry own creates => absurd creates (plain f c registry own)) st
  rw [Store.registry, drifts.registries]
  rfl

variable {title registry : String}

theorem keeps_modifyRegistry {f : Registry → Registry}
    (once : registry = title → ∀ r : Registry, r.ReturnedOnce title → (f r).ReturnedOnce title) :
    Keeps (Store.RepeatsNone title) (modifyRegistry registry f) := by
  intro st before
  change ((st.setRegistry registry _).registry title).ReturnedOnce title
  by_cases same : registry = title
  · rw [← same, Store.registry_setRegistry_self]
    rw [← same] at before once
    exact once rfl _ before
  · rwa [Store.registry_setRegistry_of_ne (Ne.symm same)]

section Creating
variable {perform : Perform} (serves : Serves (Store.RepeatsNone title) True perform)
include serves

theorem repeatsNone_createWith (registry : String) (c : ClassRef) (name : Option String)
    (explicit : Entries Value) :
    Keeps (Store.RepeatsNone title) (createWith perform registry c name explicit) := fun _ =>
  keeps_createWith serves c name explicit fun _ => keeps_modifyRegistry fun _ _ once => once.record _ _

theorem repeatsNone_injectWith (registry : String) (target : Value) (name : Option String)
    (explicit : Entries Value) :
    Keeps (Store.RepeatsNone title) (injectWith perform registry target name explicit) := by
  refine .bind .get fun st => .bind (keeps_metadata _) fun m => ?_
  refine .bind (fun now => ?_) fun component => keeps_inject serves
    (fun _ => keeps_modifyRegistry fun _ _ once => once.record _ _) m explicit target
  rw [exec_nameFor]
  exact refl_of (Store.RepeatsNone title) now

theorem repeatsNone_build (p : Provider) : Keeps (Store.RepeatsNone title) (build perform p) :=
  keeps_build serves p fun _ c registry _ _ => repeatsNone_createWith serves registry c none []

end Creating

/-- A provider that keeps to itself leaves the registry in which it was missing something, and what it
returned is put there. -/
theorem repeatsNone_component (n : Nat)
    (serves : Serves (Store.RepeatsNone title) True (performWithin n)) (registry : String)
    (c : Candidate) : Keeps (Store.RepeatsNone title) (component (performWithin n) registry c) := by
  intro st once
  have fetched := fetched_component (performWithin n) registry c st
  generalize exec (component (performWithin n) registry c) st = ended at fetched ⊢
  cases fetched with
  | atHand | unknown => exact once
  | @failed p _ _ _ _ ran =>
    have called := repeatsNone_build serves p st once
    rwa [ran] at called
  | @made p v next missing provider ran =>
    by_cases same : registry = title
    · subst same
      have left := once.aloof _ _ provider n st
      rw [ran] at left
      rw [Store.registry_setRegistry_self, left]
      exact once.keepReturned missing v
    · have called := repeatsNone_build serves p st once
      rw [ran] at called
      rwa [Store.registry_setRegistry_of_ne (Ne.symm same)]

theorem serves_repeatsNone (title : String) : Serves (Store.RepeatsNone title) True perform :=
  serves_perform fun _ n serves registry c => repeatsNone_component n serves registry c

theorem repeatsNone_addEntry (name : String) (type : Hint) (o : Registration) :
    Keeps (Store.RepeatsNone title) (addEntry registry name type o) := by
  intro st once
  rw [exec_addEntry]
  cases added : (st.registry registry).add name type o with
  | error e => exact once
  | ok entry =>
    by_cases same : registry = title
    · subst same
      rw [Store.registry_setRegistry_self]
      exact once.add added
    · rwa [Store.registry_setRegistry_of_ne (Ne.symm same)]

theorem repeatsNone_register (name : String) (v : Value) (o : Registration) :
    Keeps (Store.RepeatsNone title) (register registry name v o) := by
  have enter (priority : Option Int) : Keeps (Store.RepeatsNone title) (do
      let st ← get
      let cls := st.classOf v
      let primary := o.primary || st.world.isPrimary (.cls cls)
      let c ← addEntry registry name (o.declaredType.getD (.cls cls)) { o with priority, primary }
      modifyRegistry registry (·.keep name v)
      return c) :=
    .bind .get fun _ => .bind (repeatsNone_addEntry _ _ _) fun _ =>
      .bind (keeps_modifyRegistry fun _ _ once => once.keep name v) fun _ => .pure _
  unfold register
  dsimp only
  split
  · exact .bind (.pure _) enter
  · exact .bind (keeps_priorityOf (serves_repeatsNone title) v) enter

theorem repeatsNone_registerProvider (name : String) {p : Provider} (o : Registration)
    (aloof : registry = title → p.Aloof title) :
    Keeps (Store.RepeatsNone title) (registerProvider registry name p o) := by
  have enter (type : Hint) (o : Registration) : Keeps (Store.RepeatsNone title) (do
      let c ← addEntry registry name type o
      modifyRegistry registry (·.provide name p)
      return c) :=
    .bind (repeatsNone_addEntry _ _ _) fun _ =>
      .bind (keeps_modifyRegistry fun same _ once => once.provide name (aloof same)) fun _ => .pure _
  refine .bind .get fun st => ?_
  dsimp only
  split
  · exact .bind (.pure _) fun _ => enter _ _
  · exact .bind (.lift _) fun type => enter type _

theorem repeatsNone_provide (name : Option String) {p : Provider} (o : Registration)
    (aloof : registry = title → p.Aloof title) :
    Keeps (Store.RepeatsNone title) (provide registry name p o) := by
  refine .bind .get fun st => ?_
  split
  · exact repeatsNone_registerProvider _ o aloof
  · exact repeatsNone_registerProvider _ o aloof
  · exact .throw _

theorem repeatsNone_registerResolvable (type : Hint) (v : Value) :
    Keeps (Store.RepeatsNone title) (registerResolvable registry type v) := by
  refine .bind .get fun st => ?_
  split
  · exact keeps_modifyRegistry fun _ _ once => once.addResolvable _ _ _ _
  · exact .throw _

end Run

def Operation.Aloof (title : String) : Operation → Prop
  | registerProvider _ p _ | provide _ p _ => p.Aloof title
  | _ => True

theorem Operation.repeatsNone {title registry : String} (operation : Operation)
    (aloof : registry = title → operation.Aloof title) :
    Run.Keeps (Store.RepeatsNone title) (operation.run registry) := by
  have serves := Run.serves_repeatsNone title
  cases operation with
  | register name v o => exact .bind (Run.repeatsNone_register name v o) fun _ => .pure _
  | registerProvider name p o =>
    exact .bind (Run.repeatsNone_registerProvider name o aloof) fun _ => .pure _
  | provide name p o => exact .bind (Run.repeatsNone_provide name o aloof) fun _ => .pure _
  | registerResolvable type v =>
    exact .bind (Run.repeatsNone_registerResolvable type v) fun _ => .bind .get fun _ => .pure _
  | getComponent c => exact .bind (serves.component trivial registry c) fun _ => .pure _
  | create c name explicit =>
    exact .bind (Run.repeatsNone_createWith serves registry c name explicit) fun _ => .pure _
  | injectInto target name explicit =>
    exact .bind (Run.repeatsNone_injectWith serves registry target name explicit) fun _ => .pure _

end Wiring
