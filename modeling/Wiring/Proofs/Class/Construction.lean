import Wiring.Class.Constructors
import Wiring.Proofs.Call.Binding
import Wiring.Proofs.Class.Points

/-! The calls that construct components and inject their methods. What a constructor leaves out of
its call stands behind everything it passes by position, so the call binds; a method gets all of its
parameters. -/
namespace Wiring

namespace Constructor

/-- The parameters that a call passes, where `skipping` says that a positional-only one was left out
before. -/
def passed : Bool → List Parameter → List Parameter
  | _, [] => []
  | skipping, p :: ps =>
    if p.isPositionalOnly && skipping then passed skipping ps
    else if p.type.isSome then p :: passed skipping ps
    else passed p.isPositionalOnly ps

theorem passed_sublist (skipping : Bool) (ps : List Parameter) :
    (passed skipping ps).Sublist ps := by
  induction ps generalizing skipping with
  | nil => exact .slnil
  | cons p ps ih =>
    unfold passed
    split
    · exact (ih _).cons _
    · split
      · exact (ih _).cons_cons _
      · exact (ih _).cons _

theorem passed_behind {p : Parameter} {ps : List Parameter} (behind : ¬ p.isPositionalOnly)
    (inOrder : ∀ other ∈ ps, p.kind.place ≤ other.kind.place) (skipping : Bool) :
    (passed skipping ps).filter (·.isPositionalOnly) = [] := by
  rw [List.filter_eq_nil_iff]
  intro other mem positionalOnly
  have place := inOrder other ((passed_sublist skipping ps).subset mem)
  simp only [Parameter.isPositionalOnly, decide_eq_true_eq] at behind positionalOnly
  rw [positionalOnly] at place
  cases kind : p.kind <;> simp_all [ParameterKind.place]

theorem passed_skipping {ps : List Parameter}
    (inOrder : ps.Pairwise fun a b => a.kind.place ≤ b.kind.place) :
    (passed true ps).filter (·.isPositionalOnly) = [] := by
  induction ps with
  | nil => rfl
  | cons p ps ih =>
    obtain ⟨before, inOrder⟩ := List.pairwise_cons.mp inOrder
    by_cases positionalOnly : p.isPositionalOnly
    · simpa [passed, positionalOnly] using ih inOrder
    · have rest (skipping : Bool) := passed_behind positionalOnly before skipping
      simp only [passed, positionalOnly, Bool.false_and, Bool.false_eq_true, if_false]
      split
      · simpa [List.filter_cons, positionalOnly] using rest true
      · exact rest _

/-- What is passed by position are the first of the positional-only parameters. -/
theorem passed_front {ps : List Parameter}
    (inOrder : ps.Pairwise fun a b => a.kind.place ≤ b.kind.place) :
    (passed false ps).filter (·.isPositionalOnly) <+: ps.filter (·.isPositionalOnly) := by
  induction ps with
  | nil => exact List.nil_prefix
  | cons p ps ih =>
    obtain ⟨before, inOrder⟩ := List.pairwise_cons.mp inOrder
    simp only [passed, Bool.and_false, Bool.false_eq_true, if_false]
    by_cases positionalOnly : p.isPositionalOnly
    · split
      · simpa [List.filter_cons, positionalOnly] using ih inOrder
      · rw [positionalOnly, passed_skipping inOrder]
        exact List.nil_prefix
    · have rest (skipping : Bool) := passed_behind positionalOnly before skipping
      split
      · simp [positionalOnly, rest]
      · rw [rest]
        exact List.nil_prefix

structure Evaluated (p found : Parameter) : Prop where
  name : found.name = p.name
  kind : found.kind = p.kind
  default : found.default = p.default
  type : found.type.isSome = p.type.isSome

theorem asks_of_ofParameter {σ : Bindings} {p found : Parameter} {h : Hint} {q : Request}
    (evaluated : Evaluated p found) (made : Request.ofParameter σ found h = .ok q) : p.Asks q := by
  obtain ⟨type, _, made⟩ := Outcome.bind_eq_ok.mp made
  cases Outcome.pure_eq_ok.mp made
  refine ⟨by rw [← evaluated.name], ?_⟩
  rw [Parameter.isPositionalOnly, ← evaluated.kind]

/-- One step of a usable constructor: the parameter is left out after an earlier one, it is asked
for, or it keeps its default. -/
theorem usage_cons {σ : Bindings} {skipping : Bool} {p found : Parameter} {rest : List Parameter}
    {requests : List Request} (evaluated : Evaluated p found)
    (usable : usage σ skipping (found :: rest) = .ok (.usable requests)) :
    (p.isPositionalOnly ∧ skipping ∧ usage σ skipping rest = .ok (.usable requests)) ∨
    (¬ (p.isPositionalOnly && skipping) ∧ p.type.isSome ∧ ∃ q later, p.Asks q ∧
      requests = q :: later ∧ usage σ skipping rest = .ok (.usable later)) ∨
    (¬ (p.isPositionalOnly && skipping) ∧ ¬ p.type.isSome ∧ p.default.isSome ∧
      usage σ p.isPositionalOnly rest = .ok (.usable requests)) := by
  have kind : decide (found.kind = .positionalOnly) = p.isPositionalOnly := by
    rw [Parameter.isPositionalOnly, evaluated.kind]
  unfold usage at usable
  simp only [kind] at usable
  split at usable
  · rename_i skip
    obtain ⟨positionalOnly, held⟩ := Bool.and_eq_true_iff.mp skip
    exact .inl ⟨positionalOnly, held, usable⟩
  · rename_i kept
    rw [← evaluated.type, ← evaluated.default]
    split at usable
    · rename_i typed
      obtain ⟨q, made, usable⟩ := Outcome.bind_eq_ok.mp usable
      obtain ⟨later, walked, usable⟩ := Outcome.bind_eq_ok.mp usable
      cases later with
      | blocked name => cases usable
      | usable later =>
        cases usable
        refine .inr (.inl ⟨kept, ?_, q, later, asks_of_ofParameter evaluated made, rfl, walked⟩)
        rw [typed]
        rfl
    · rename_i typed default
      refine .inr (.inr ⟨kept, ?_, ?_, usable⟩)
      · simp [typed]
      · simp [default]
    · cases usable

theorem asks_of_usage {σ : Bindings} {skipping : Bool} {ps found : List Parameter}
    {requests : List Request} (evaluated : List.Forall₂ Evaluated ps found)
    (usable : usage σ skipping found = .ok (.usable requests)) :
    List.Forall₂ Parameter.Asks (passed skipping ps) requests := by
  induction evaluated generalizing skipping requests with
  | nil =>
    cases usable
    exact .nil
  | cons same _ ih =>
    unfold passed
    rcases usage_cons same usable with ⟨positionalOnly, held, walked⟩ |
      ⟨kept, typed, q, later, ask, rfl, walked⟩ | ⟨kept, untyped, -, walked⟩
    · rw [if_pos (by simp [positionalOnly, held])]
      exact ih walked
    · rw [if_neg kept, if_pos typed]
      exact .cons ask (ih walked)
    · rw [if_neg kept, if_neg untyped]
      exact ih walked

theorem default_of_usage {σ : Bindings} {skipping : Bool} {ps found : List Parameter}
    {requests : List Request} (evaluated : List.Forall₂ Evaluated ps found)
    (usable : usage σ skipping found = .ok (.usable requests))
    (defaults : ps.Pairwise fun a b => b.isPositional → a.default.isSome → b.default.isSome)
    (skipped : skipping → ∀ p ∈ ps, p.isPositionalOnly → p.default.isSome) :
    ∀ p ∈ ps, p ∉ passed skipping ps → p.default.isSome := by
  induction evaluated generalizing skipping requests with
  | nil =>
    intro p mem
    contradiction
  | @cons p p' ps found same _ ih =>
    obtain ⟨before, defaults⟩ := List.pairwise_cons.mp defaults
    have later (held : skipping) (other : Parameter) (mem : other ∈ ps) :=
      skipped held other (List.mem_cons_of_mem _ mem)
    unfold passed
    intro other mem out
    rcases usage_cons same usable with ⟨positionalOnly, held, walked⟩ |
      ⟨kept, typed, q, rest, -, -, walked⟩ | ⟨kept, untyped, default, walked⟩
    · rw [if_pos (by simp [positionalOnly, held])] at out
      rcases List.mem_cons.mp mem with rfl | mem
      · exact skipped held _ List.mem_cons_self positionalOnly
      · exact ih walked defaults later other mem out
    · rw [if_neg kept, if_pos typed] at out
      obtain ⟨ne, out⟩ := not_or.mp (mt List.mem_cons.mpr out)
      exact ih walked defaults later other ((List.mem_cons.mp mem).resolve_left ne) out
    · rw [if_neg kept, if_neg untyped] at out
      rcases List.mem_cons.mp mem with rfl | mem
      · exact default
      · refine ih walked defaults (fun _ other mem positionalOnly => ?_) other mem out
        have positional : other.isPositional := by
          simp_all [Parameter.isPositional, Parameter.isPositionalOnly]
        exact before other mem positional default

end Constructor

namespace World
variable {w : World} {s : Settings} {c owner : ClassRef}

open Constructor (Evaluated passed)

theorem evaluated_of_parametersOf {f : Function} {found : List Parameter}
    (read : w.parametersOf owner f = .ok found) :
    List.Forall₂ Evaluated (f.parameters.filter (!·.isVariadic)) found := by
  obtain ⟨all, walked, rfl⟩ := Outcome.map_eq_ok.mp read
  have each := Outcome.mapM_eq_ok.mp walked
  clear read walked
  generalize f.parameters = ps at each ⊢
  induction each with
  | nil => exact .nil
  | @cons p p' ps all made _ ih =>
    have same : Evaluated p p' := by
      unfold Parameter.evaluate at made
      split at made
      · cases made
        exact ⟨rfl, rfl, rfl, rfl⟩
      · rename_i typed
        split at made
        · cases made
          exact ⟨rfl, rfl, rfl, by rw [typed]; rfl⟩
        · cases made
    have kind : p'.isVariadic = p.isVariadic := by
      rw [Parameter.isVariadic, Parameter.isVariadic, same.kind]
    rw [List.filter_cons, List.filter_cons, kind]
    split
    · exact .cons same ih
    · exact ih

theorem filter_isPositionalOnly (ps : List Parameter) :
    (ps.filter (!·.isVariadic)).filter (·.isPositionalOnly) = ps.filter (·.isPositionalOnly) := by
  rw [List.filter_filter]
  refine List.filter_congr fun p _ => ?_
  cases kind : p.kind <;> simp [Parameter.isPositionalOnly, Parameter.isVariadic, kind]

theorem isVariadic_or_mem {p : Parameter} {ps : List Parameter} (mem : p ∈ ps) :
    p.isVariadic ∨ p ∈ ps.filter (!·.isVariadic) := by
  rw [List.mem_filter]
  cases p.isVariadic <;> simp [mem]

theorem binds_of_usage {f : Function} {found : List Parameter} {σ : Bindings}
    {requests : List Request} (read : w.parametersOf owner f = .ok found)
    (usable : Constructor.usage σ false found = .ok (.usable requests))
    (signature : Signature f.parameters) : Binds requests f.parameters := by
  have evaluated := evaluated_of_parametersOf read
  have plain : (f.parameters.filter (!·.isVariadic)).Sublist f.parameters := List.filter_sublist
  refine binds_of_asks signature (Constructor.passed_sublist false _) ?_ ?_
    (Constructor.asks_of_usage evaluated usable)
  · have front := Constructor.passed_front (signature.inOrder.sublist plain)
    rwa [filter_isPositionalOnly] at front
  · intro p mem out
    refine (isVariadic_or_mem mem).imp_right fun plainly => ?_
    exact Constructor.default_of_usage evaluated usable (signature.defaults.sublist plain)
      (fun held => by cases held) p plainly out

theorem asks_of_requests {ps found : List Parameter} {requests : List Request} {σ : Bindings}
    {missing : Parameter → Error} (evaluated : List.Forall₂ Evaluated ps found)
    (made : List.Forall₂ (fun p q => (match p.type with
      | some h => (Request.ofParameter σ p h).mapError Error.ofFormation
      | none => .error (missing p)) = .ok q) found requests) :
    List.Forall₂ Parameter.Asks ps requests := by
  induction evaluated generalizing requests with
  | nil =>
    cases made
    exact .nil
  | cons same _ ih =>
    cases made with
    | cons here made =>
      refine .cons ?_ (ih made)
      split at here
      · exact Constructor.asks_of_ofParameter same (Outcome.mapError_eq_ok.mp here)
      · cases here

theorem binds_of_ofMethod {f : Function} {σ : Bindings} {m : MethodDeclaration}
    {p : InjectionPoint} (read : w.parametersOf owner f = .ok m.parameters)
    (made : InjectionPoint.ofMethod w s σ owner m = .ok p) (signature : Signature f.parameters) :
    Binds p.requests f.parameters := by
  unfold InjectionPoint.ofMethod at made
  dsimp only at made
  split at made
  · cases made
  obtain ⟨requests, walked, made⟩ := Outcome.bind_eq_ok.mp made
  cases Outcome.pure_eq_ok.mp made
  have asks := asks_of_requests (evaluated_of_parametersOf read) (Outcome.mapM_eq_ok.mp walked)
  refine binds_of_asks signature (List.Sublist.refl _) ?_ ?_ asks
  · rw [filter_isPositionalOnly]
  · intro p mem out
    exact .inl ((isVariadic_or_mem mem).resolve_right out)

/-- Where the call of a constructor arrives: at a class method, at the initialiser, or, if that is
no plain function of a class body, at one that is taken to need nothing. -/
inductive Arrives (w : World) (c : ClassRef) (k : Constructor) : Prop
  | alternate (owner : ClassRef) (f : Function) :
    w.member? c k.name = some (owner, .classMethod f) →
      (w.classAttribute? c k.name = some (.member owner (.classMethod f)) ∨
        w.classAttribute? c k.name = some .worked) →
      (Signature f.parameters → Binds k.requests f.parameters) → Arrives w c k
  | initializer (owner : ClassRef) (f : Function) : k.name = Constructor.initializer →
    w.member? c Constructor.initializer = some (owner, .method f) →
      (Signature f.parameters → Binds k.requests f.parameters) → Arrives w c k
  | nothing : k.name = Constructor.initializer →
    (∀ owner f, w.member? c Constructor.initializer = some (owner, .method f) →
      f.body = .handOver) → k.requests = [] → Arrives w c k

def alternateNames (w : World) (s : Settings) (c : ClassRef) : List String :=
  (w.alternateConstructors s c).map (·.2.1)

theorem ownMember?_of_member? {name : String} {m : Member}
    (found : w.member? c name = some (owner, m)) : w.ownMember? owner name = some m := by
  obtain ⟨k, -, held⟩ := List.exists_of_findSome?_eq_some found
  obtain ⟨m', own, same⟩ := Option.map_eq_some_iff.mp held
  cases same
  exact own

theorem mem_alternateConstructors (order : w.WellFormed) {name : String} {f : Function}
    (mem : (owner, name, f) ∈ w.alternateConstructors s c) :
    w.member? c name = some (owner, .classMethod f) := by
  obtain ⟨entry, listed, chosen⟩ := List.mem_filterMap.mp mem
  obtain ⟨k, -, body⟩ := List.mem_flatMap.mp listed
  obtain ⟨⟨held, m⟩, own, rfl⟩ := List.mem_map.mp body
  have stored : w.ownMember? k held = some m :=
    (Entries.lookup_iff_mem (order.names_nodup k)).mpr own
  cases m with
  | classMethod g =>
    dsimp only at chosen
    split at chosen
    · rename_i shown
      cases chosen
      obtain ⟨first, _⟩ := Bool.and_eq_true_iff.mp shown
      obtain ⟨⟨k', m⟩, found, here⟩ := (Option.any_eq_true _ _).mp first
      have same : k' = owner := beq_iff_eq.mp here
      rw [same] at found
      rw [ownMember?_of_member? found] at stored
      cases stored
      exact found
    · cases chosen
  | _ => cases chosen

theorem nodup_holders (order : w.WellFormed) (c : ClassRef) :
    ((w.linearization c).flatMap fun k => (w.info k).members.names.map (k, ·)).Nodup := by
  rw [List.nodup_flatMap]
  constructor
  · intro k _
    exact (order.names_nodup k).map fun _ _ same => (Prod.mk.inj same).2
  · refine (order.line_nodup c).imp fun apart => ?_
    intro entry first second
    obtain ⟨_, _, rfl⟩ := List.mem_map.mp first
    obtain ⟨_, _, same⟩ := List.mem_map.mp second
    exact apart (congrArg Prod.fst same).symm

/-- Each alternate constructor is listed where the first holder of its name is, so no name is listed
twice. -/
theorem alternateNames_nodup (order : w.WellFormed) (s : Settings) (c : ClassRef) :
    (w.alternateNames s c).Nodup := by
  let place (a : ClassRef × String × Function) := (a.1, a.2.1)
  have sublist : ((w.alternateConstructors s c).map place).Sublist
      ((w.linearization c).flatMap fun k => (w.info k).members.names.map (k, ·)) := by
    have held : ((w.linearization c).flatMap fun k => (w.info k).members.names.map (k, ·)) =
        ((w.linearization c).flatMap fun k => (w.info k).members.map (k, ·)).map
          fun e => (e.1, e.2.1) := by
      simp [List.map_flatMap, Entries.names, Function.comp_def]
    rw [held]
    unfold alternateConstructors
    dsimp only
    generalize ((w.linearization c).flatMap fun k => (w.info k).members.map (k, ·)) = all
    induction all with
    | nil => exact .slnil
    | cons e all ih =>
      rw [List.filterMap_cons]
      split
      · exact ih.cons _
      · rename_i a chosen
        split at chosen
        · split at chosen
          · cases chosen
            exact ih.cons_cons _
          · cases chosen
        · cases chosen
  have placed := (nodup_holders order c).sublist sublist
  have names : w.alternateNames s c = ((w.alternateConstructors s c).map place).map (·.2) := by
    simp [alternateNames, place]
  rw [names]
  refine placed.map_on ?_
  intro a first b second same
  obtain ⟨⟨k, name, f⟩, listed, rfl⟩ := List.mem_map.mp first
  obtain ⟨⟨k', name', f'⟩, listed', rfl⟩ := List.mem_map.mp second
  cases (show name = name' from same)
  have holder := mem_alternateConstructors order listed
  rw [mem_alternateConstructors order listed'] at holder
  cases holder
  rfl

theorem constructor_eq_some {d : ConstructorDeclaration} {k : Constructor}
    (made : w.constructor s c d = .ok (some k)) :
    k.name = d.name ∧ ∃ σ, Constructor.usage σ false d.parameters = .ok (.usable k.requests) := by
  obtain ⟨σ, _, made⟩ := Outcome.bind_eq_ok.mp made
  obtain ⟨usage, used, made⟩ := Outcome.bind_eq_ok.mp made
  have used := Outcome.mapError_eq_ok.mp used
  cases usage with
  | usable requests =>
    cases Outcome.pure_eq_ok.mp made
    exact ⟨rfl, σ, used⟩
  | blocked name =>
    dsimp only at made
    split at made <;> cases made

theorem names_of_constructor {ds : List ConstructorDeclaration} {made : List (Option Constructor)}
    (each : List.Forall₂ (fun d k => w.constructor s c d = .ok k) ds made) :
    ((made.filterMap id).map (·.name)).Sublist (ds.map (·.name)) := by
  induction each with
  | nil => exact .slnil
  | @cons d k ds made here _ ih =>
    cases k with
    | none => exact ih.cons _
    | some k =>
      change (k.name :: _).Sublist (d.name :: _)
      rw [(constructor_eq_some here).1]
      exact ih.cons_cons _

theorem constructors_sublist {ks : List Constructor} (found : w.constructors s c = .ok ks) :
    ∃ ds, w.constructorDeclarations s c = .ok ds ∧
      (ks.map (·.name)).Sublist (ds.map (·.name)) ∧
      ∀ k ∈ ks, ∃ d ∈ ds, w.constructor s c d = .ok (some k) := by
  obtain ⟨ds, declared, found⟩ := Outcome.bind_eq_ok.mp found
  obtain ⟨made, walked, found⟩ := Outcome.bind_eq_ok.mp found
  have usable : ks = made.filterMap id := by
    dsimp only at found
    split at found <;> cases found
    rfl
  rw [usable]
  refine ⟨ds, declared, names_of_constructor (Outcome.mapM_eq_ok.mp walked), fun k mem => ?_⟩
  have mem : some k ∈ made := by simpa using mem
  exact Outcome.exists_of_mem_mapM walked mem

theorem constructorDeclarations_eq_ok {ds : List ConstructorDeclaration}
    (declared : w.constructorDeclarations s c = .ok ds) :
    ∃ first others, ds = first :: others ∧ w.declaredInitializer s c = .ok first ∧
      others.map (·.name) = w.alternateNames s c ∧
      ∀ d ∈ others, ∃ owner f, (owner, d.name, f) ∈ w.alternateConstructors s c ∧
        w.parametersOf owner f = .ok d.parameters := by
  obtain ⟨first, initializer, declared⟩ := Outcome.bind_eq_ok.mp declared
  obtain ⟨others, walked, declared⟩ := Outcome.bind_eq_ok.mp declared
  cases Outcome.pure_eq_ok.mp declared
  refine ⟨first, others, rfl, initializer, ?_, ?_⟩
  · refine Outcome.map_eq_of_mapM walked ?_
    rintro ⟨owner, name, f⟩ d made
    obtain ⟨ps, _, made⟩ := Outcome.bind_eq_ok.mp made
    cases Outcome.pure_eq_ok.mp made
    rfl
  · intro d mem
    obtain ⟨⟨owner, name, f⟩, listed, made⟩ := Outcome.exists_of_mem_mapM walked mem
    obtain ⟨ps, read, made⟩ := Outcome.bind_eq_ok.mp made
    cases Outcome.pure_eq_ok.mp made
    exact ⟨owner, f, listed, read⟩

theorem declaredInitializer_eq_ok {d : ConstructorDeclaration}
    (declared : w.declaredInitializer s c = .ok d) : d.name = Constructor.initializer ∧
      ((∃ owner f, w.member? c Constructor.initializer = some (owner, .method f) ∧
        f.body ≠ .handOver ∧ w.parametersOf owner f = .ok d.parameters) ∨
      ((∀ owner f, w.member? c Constructor.initializer = some (owner, .method f) →
        f.body = .handOver) ∧ d.parameters = [])) := by
  unfold declaredInitializer at declared
  dsimp only at declared
  split at declared
  · rename_i owner f found
    split at declared
    · rename_i handsOver
      cases declared
      refine ⟨rfl, .inr ⟨fun owner' g same => ?_, rfl⟩⟩
      rw [found] at same
      cases same
      exact handsOver
    · rename_i real
      obtain ⟨ps, read, declared⟩ := Outcome.bind_eq_ok.mp declared
      cases Outcome.pure_eq_ok.mp declared
      exact ⟨rfl, .inl ⟨owner, f, found, real, read⟩⟩
  · rename_i other found
    cases declared
    refine ⟨rfl, .inr ⟨fun owner' g same => ?_, rfl⟩⟩
    rw [found] at same
    cases same
    exact absurd rfl (other _)
  · rename_i found
    cases declared
    refine ⟨rfl, .inr ⟨fun owner' g same => ?_, rfl⟩⟩
    rw [found] at same
    cases same

theorem arrives_of_mem (order : w.WellFormed) {ks : List Constructor}
    (found : w.constructors s c = .ok ks) {k : Constructor} (mem : k ∈ ks) : Arrives w c k := by
  obtain ⟨ds, declared, -, sources⟩ := constructors_sublist found
  obtain ⟨first, others, rfl, initializer, -, alternates⟩ := constructorDeclarations_eq_ok declared
  obtain ⟨d, listed, made⟩ := sources k mem
  obtain ⟨name, σ, usable⟩ := constructor_eq_some made
  rcases List.mem_cons.mp listed with rfl | listed
  · obtain ⟨called, ⟨owner, f, held, -, read⟩ | ⟨handsOver, none⟩⟩ :=
      declaredInitializer_eq_ok initializer
    · exact .initializer owner f (name.trans called) held (binds_of_usage read usable)
    · rw [none, Constructor.usage, Except.ok.injEq, Constructor.Usage.usable.injEq] at usable
      exact .nothing (name.trans called) handsOver usable.symm
  · obtain ⟨owner, f, listed, read⟩ := alternates d listed
    rw [← name] at listed
    have held := mem_alternateConstructors order listed
    refine .alternate owner f held ?_ (binds_of_usage read usable)
    unfold classAttribute?
    dsimp only
    split
    · exact .inr rfl
    · rw [held]
      exact .inl rfl

/-- No constructor is listed twice, unless the initialiser itself is an alternate constructor. -/
theorem constructors_names (order : w.WellFormed) {ks : List Constructor}
    (found : w.constructors s c = .ok ks)
    (plain : ∀ owner f, w.member? c Constructor.initializer ≠ some (owner, .classMethod f)) :
    (ks.map (·.name)).Nodup := by
  obtain ⟨ds, declared, names, -⟩ := constructors_sublist found
  obtain ⟨first, others, rfl, initializer, alternates, -⟩ := constructorDeclarations_eq_ok declared
  refine List.Nodup.sublist names ?_
  rw [List.map_cons, List.nodup_cons, alternates, (declaredInitializer_eq_ok initializer).1]
  refine ⟨fun listed => ?_, alternateNames_nodup order s c⟩
  obtain ⟨⟨owner, name, f⟩, listed, same⟩ := List.mem_map.mp listed
  cases (show name = Constructor.initializer from same)
  exact plain owner f (mem_alternateConstructors order listed)

theorem declaredMethod_eq_some {k : ClassRef} {name : String} {m : Member} {d : MethodDeclaration}
    (declared : w.declaredMethod s k (name, m) = .ok (some d)) :
    d.name = name ∧ ∃ f, m = .method f ∧ w.parametersOf k f = .ok d.parameters := by
  unfold declaredMethod at declared
  split at declared
  · rename_i same
    cases same
    split at declared <;> cases declared
  · rename_i same
    cases same
    split at declared
    · cases declared
    · split at declared
      · cases declared
      · obtain ⟨ps, read, declared⟩ := Outcome.bind_eq_ok.mp declared
        cases Outcome.pure_eq_ok.mp declared
        exact ⟨rfl, _, rfl, read⟩
  · cases declared

theorem method_of_point (order : w.WellFormed) {m : Metadata}
    (scanned : w.metadata s c = .ok m) {p : InjectionPoint} (mem : p ∈ m.points)
    (method : p.kind = .method) :
    ∃ f, w.definingClass? c p.name = some p.declaredBy ∧
      w.ownMember? p.declaredBy p.name = some (.method f) ∧
      (Signature f.parameters → Binds p.requests f.parameters) := by
  obtain ⟨bodies, declared, scanned⟩ := Outcome.bind_eq_ok.mp scanned
  obtain ⟨points, made, scanned⟩ := Outcome.bind_eq_ok.mp scanned
  cases Outcome.pure_eq_ok.mp scanned
  obtain ⟨here, listed, mem⟩ := List.mem_flatten.mp mem
  obtain ⟨own, body, made⟩ := Outcome.exists_of_mem_mapM made (List.mem_reverse.mp listed)
  obtain ⟨k, line, body⟩ := Outcome.exists_of_mem_mapM declared body
  obtain ⟨σ, _, made⟩ := Outcome.bind_eq_ok.mp made
  obtain ⟨fieldPoints, fields, made⟩ := Outcome.bind_eq_ok.mp made
  obtain ⟨methodPoints, methods, made⟩ := Outcome.bind_eq_ok.mp made
  cases Outcome.pure_eq_ok.mp made
  rcases List.mem_append.mp mem with mem | mem
  · obtain ⟨f, -, made⟩ := Outcome.exists_of_mem_mapM fields mem
    have spot := ofField_spot made
    simp [InjectionPoint.spot, method] at spot
  · obtain ⟨d, chosen, made⟩ := Outcome.exists_of_mem_mapM methods mem
    obtain ⟨chosen, defines⟩ := List.mem_filter.mp chosen
    obtain ⟨fields, _, body⟩ := Outcome.bind_eq_ok.mp body
    obtain ⟨methods, read, body⟩ := Outcome.bind_eq_ok.mp body
    cases Outcome.pure_eq_ok.mp body
    obtain ⟨found, walked, rfl⟩ := Outcome.map_eq_ok.mp read
    have chosen : some d ∈ found := by simpa using chosen
    obtain ⟨⟨name, member⟩, held, declares⟩ := Outcome.exists_of_mem_mapM walked chosen
    obtain ⟨rfl, f, rfl, read⟩ := declaredMethod_eq_some declares
    have spot := ofMethod_spot made
    simp only [InjectionPoint.spot, Prod.mk.injEq] at spot
    obtain ⟨owner, -, name⟩ := spot
    rw [owner, name]
    refine ⟨f, beq_iff_eq.mp defines, ?_, binds_of_ofMethod read made⟩
    exact (Entries.lookup_iff_mem (order.names_nodup k)).mpr held

/-- Calls to constructors and to methods bind to their functions, and constructors are called under
names of their own. -/
theorem calls_bind (order : w.WellFormed) (s : Settings) (c : ClassRef) :
    (∀ ks, w.constructors s c = .ok ks → (∀ k ∈ ks, Arrives w c k) ∧
      (w.alternateNames s c).Nodup ∧
      (ks.map (·.name)).Sublist (Constructor.initializer :: w.alternateNames s c) ∧
      ((∀ owner f, w.member? c Constructor.initializer ≠ some (owner, .classMethod f)) →
        (ks.map (·.name)).Nodup)) ∧
    ∀ m, w.metadata s c = .ok m → ∀ p ∈ m.points, p.kind = .method →
      ∃ f, w.definingClass? c p.name = some p.declaredBy ∧
        w.ownMember? p.declaredBy p.name = some (.method f) ∧
        (Signature f.parameters → Binds p.requests f.parameters) := by
  refine ⟨fun ks found => ?_, fun m scanned p mem method =>
    method_of_point order scanned mem method⟩
  refine ⟨fun k mem => arrives_of_mem order found mem, alternateNames_nodup order s c, ?_,
    constructors_names order found⟩
  obtain ⟨ds, declared, names, -⟩ := constructors_sublist found
  obtain ⟨first, others, rfl, initializer, alternates, -⟩ := constructorDeclarations_eq_ok declared
  rwa [List.map_cons, alternates, (declaredInitializer_eq_ok initializer).1] at names

end World

/-! A workshop. A desk has parameters of every kind. A stool has an initialiser that gets no
receiver, a board a class method under a name that classes of classes work out, and a shelf one
under the name of the initialiser. -/
namespace Workshop

def int : Hint := .cls (.builtin .int)

def parameters : List Parameter :=
  [{ name := "lamp", type := some int, kind := .positionalOnly },
   { name := "size", default := some (.int 1), kind := .positionalOnly },
   { name := "shade", type := some int, default := some (.int 2), kind := .positionalOnly },
   { name := "clock", type := some int, default := some (.int 3) },
   { name := "rest", kind := .variadic },
   { name := "wide", default := some (.bool false), kind := .keywordOnly },
   { name := "bell", type := some int, kind := .keywordOnly },
   { name := "more", kind := .variadicNamed }]

def initializer : Function where
  name := "__init__"
  owner := "Desk"
  parameters := parameters

def builder (name owner : String) (subject : Subject) : Function where
  name := name
  owner := owner
  subject := subject
  parameters := [{ name := "lamp", type := some int }]
  constructs := true

def cls (name : String) (n : Nat) (member : String) (m : Member) : ClassInfo where
  name := name
  qualifiedName := name
  bases := [.builtin .object]
  linearization := [.declared n, .builtin .object]
  members := [(member, m)]

def workshop : World where
  moduleName := "workshop"
  classes := [cls "Desk" 0 "__init__" (.method initializer),
    cls "Stool" 1 "__init__" (.staticMethod (builder "__init__" "Stool" .nothing)),
    cls "Board" 2 "__name__" (.classMethod (builder "__name__" "Board" .newObject)),
    cls "Shelf" 3 "__init__" (.classMethod (builder "__init__" "Shelf" .newObject))]

theorem workshop_wellFormed : workshop.WellFormed := by
  apply World.wellFormed_of_classes
  intro info mem
  refine ⟨?_, ?_, ?_⟩
  · revert info
    decide
  · revert info
    simp [workshop, cls]
  · revert info
    decide +kernel

theorem signature_parameters : Signature parameters := by
  refine ⟨?_, ?_, ?_⟩ <;> decide

def asked (name : String) (positionalOnly : Bool) (default : Option Literal) : Request where
  type := int
  required := default.isNone
  name := some name
  default := default
  positionalOnly := positionalOnly

def requests : List Request :=
  [asked "lamp" true none, asked "clock" false (some (.int 3)), asked "bell" false none]

theorem desk_called : workshop.constructors {} (.declared 0) =
      .ok [{ name := "__init__", requests }] ∧
    ∀ lamp clock bell, (Arguments.ofRequests (requests.zip [lamp, clock, bell])).bind
      "Desk.__init__" parameters = .ok [("lamp", lamp), ("size", .data (.int 1)),
        ("shade", .data (.int 2)), ("clock", clock), ("rest", .tuple []),
        ("wide", .data (.bool false)), ("bell", bell), ("more", .dict [])] := by
  have found : workshop.constructors {} (.declared 0) = .ok [{ name := "__init__", requests }] := by
    rfl
  have held : workshop.member? (.declared 0) "__init__" =
      some (.declared 0, .method initializer) := by rfl
  refine ⟨found, fun lamp clock bell => ?_⟩
  have arrives := ((World.calls_bind workshop_wellFormed {} (.declared 0)).1 _ found).1 _
    List.mem_cons_self
  cases arrives with
  | alternate owner f held' =>
    rw [held] at held'
    cases held'
  | initializer owner f _ held' binds =>
    cases held.symm.trans held'
    exact (binds signature_parameters).bound _ _ rfl
  | nothing _ handsOver => cases handsOver _ _ held

theorem calls_astray :
    (workshop.constructors {} (.declared 1) = .ok [{ name := "__init__" }] ∧
      workshop.member? (.declared 1) "__init__" =
        some (.declared 1, .staticMethod (builder "__init__" "Stool" .nothing)) ∧
      (Arguments.ofRequests []).bind "Stool.__init__"
        (builder "__init__" "Stool" .nothing).parameters =
          .error (.missingArguments "Stool.__init__" ["lamp"])) ∧
    (workshop.constructors {} (.declared 2) =
        .ok [{ name := "__init__" },
          { name := "__name__", requests := [asked "lamp" false none] }] ∧
      workshop.classAttribute? (.declared 2) "__name__" = some .worked) ∧
    workshop.constructors {} (.declared 3) =
        .ok [{ name := "__init__" },
          { name := "__init__", requests := [asked "lamp" false none] }] := by
  exact ⟨⟨rfl, rfl, rfl⟩, ⟨rfl, rfl⟩, rfl⟩

end Workshop
end Wiring
