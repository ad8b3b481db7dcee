import Wiring.Proofs.Injection.Ambiguity

/-! The candidates whose components are injected. Requests are resolved one after the other, and the
components that one receives are fetched before the next is resolved; what an optional method was
supplied with before one of its requests found nothing is dropped. -/
namespace Wiring.Run

/-- In the store the request receives the components of the candidates. -/
inductive Receives (registry : String) (st : Store) (q : Request) : List Candidate → Prop
  | handle : q.isLazy → Receives registry st q []
  | single {c : Candidate} : ¬ q.isLazy → st.resolve registry q = .ok (.value c) →
    Receives registry st q [c]
  | several {cs : List Candidate} : ¬ q.isLazy → st.resolve registry q = .ok (.values cs) →
    Receives registry st q cs
  | default : ¬ q.isLazy → st.resolve registry q = .ok .empty → Receives registry st q []

/-- From the store on, the requests receive the components of the candidates one after the other,
and the components that one receives are fetched before the next is resolved. -/
inductive Supplies (perform : Perform) (registry : String) :
    Store → List Request → List Candidate → Store → Prop
  | nil {st : Store} : Supplies perform registry st [] [] st
  | cons {st next last : Store} {q : Request} {qs : List Request} {cs rest : List Candidate}
      {components : List Value} :
    Receives registry st q cs →
    exec (cs.mapM fun c => perform (.component registry c)) st = (.ok components, next) →
    Supplies perform registry next qs rest last →
    Supplies perform registry st (q :: qs) (cs ++ rest) last

/-- From the store on, the points receive the components of the candidates. One that is covered by an
explicit value receives none, and neither does an optional method with a request that finds nothing,
whatever its requests before were supplied with. -/
inductive Gathers (perform : Perform) (registry : String) (explicit : Entries Value) :
    Store → List InjectionPoint → List Candidate → Store → Prop
  | nil {st : Store} : Gathers perform registry explicit st [] [] st
  | covered {st last : Store} {p : InjectionPoint} {ps : List InjectionPoint}
      {cs : List Candidate} :
    (explicit.lookup p.propertyName).isSome → Gathers perform registry explicit st ps cs last →
    Gathers perform registry explicit st (p :: ps) cs last
  | applied {st next last : Store} {p : InjectionPoint} {ps : List InjectionPoint}
      {cs rest : List Candidate} :
    explicit.lookup p.propertyName = none → Supplies perform registry st p.decisive cs next →
    Gathers perform registry explicit next ps rest last →
    Gathers perform registry explicit st (p :: ps) (cs ++ rest) last
  | skipped {st next last : Store} {p : InjectionPoint} {ps : List InjectionPoint}
      {front back : List Request} {q : Request} {dropped cs : List Candidate} :
    explicit.lookup p.propertyName = none → p.kind = .method → p.required = false →
    p.requests = front ++ q :: back → Supplies perform registry st front dropped next →
    ¬ q.isLazy → next.resolve registry q = .ok (.failure (.notFound q)) →
    Gathers perform registry explicit next ps cs last →
    Gathers perform registry explicit st (p :: ps) cs last

section Parts
variable {perform : Perform} {registry component : String} {st next : Store} {q : Request}

theorem receives_of_resolveNow {result : Resolution}
    (resolved : exec (resolveNow registry q) st = (.ok result, next))
    (fine : result.failure? = none) : Receives registry st q (q.injected result) ∧ st = next := by
  by_cases handle : q.isLazy
  · rw [resolveNow, if_pos handle] at resolved
    cases resolved
    rw [Request.injected, if_pos handle]
    exact ⟨.handle handle, rfl⟩
  · rw [exec_resolveNow handle] at resolved
    obtain ⟨answer, rfl⟩ := Prod.mk.inj resolved
    rw [Request.injected, if_neg handle]
    refine ⟨?_, rfl⟩
    cases result with
    | value c => exact .single handle answer
    | values cs => exact .several handle answer
    | empty => exact .default handle answer
    | failure f => cases fine

theorem Receives.unique {cs others : List Candidate} (receives : Receives registry st q cs)
    (same : Receives registry st q others) : cs = others := by
  cases receives <;> cases same <;> simp_all

theorem fetches_of_materialise {result : Resolution} {value : Value} (fine : result.failure? = none)
    (ran : exec (materialise perform registry q result) st = (.ok value, next)) :
    ∃ components, exec ((q.injected result).mapM fun c => perform (.component registry c)) st =
      (.ok components, next) := by
  unfold materialise at ran
  unfold Request.injected
  by_cases handle : q.isLazy
  · rw [if_pos handle] at ran ⊢
    cases ran
    exact ⟨[], rfl⟩
  · rw [if_neg handle] at ran ⊢
    cases result with
    | value c =>
      refine ⟨[value], ?_⟩
      rw [Resolution.found, List.mapM_cons, exec_bind_of_ok ran]
      rfl
    | values cs =>
      obtain ⟨components, now, fetched, made⟩ := exec_bind_eq_ok.mp ran
      cases made
      exact ⟨components, fetched⟩
    | empty =>
      cases ran
      exact ⟨[], rfl⟩
    | failure f => cases fine

theorem supplies_of_planParameters {p : InjectionPoint} {requests : List Request}
    {values : List (Request × Value × List Candidate)}
    (planned : exec (planParameters perform registry component p requests) st =
      (.ok (some values), next)) :
    Supplies perform registry st requests (values.flatMap (·.2.2)) next := by
  induction requests generalizing st values with
  | nil =>
    cases planned
    exact .nil
  | cons q requests ih =>
    have opened := planned
    rw [planParameters] at opened
    obtain ⟨result, now, resolved, opened⟩ := exec_bind_eq_ok.mp opened
    cases fails : result.failure? with
    | none =>
      rw [exec_planParameters_found fails resolved] at planned
      obtain ⟨value, reached, materialised, planned⟩ := exec_bind_eq_ok.mp planned
      obtain ⟨_ | more, last, later, planned⟩ := exec_bind_eq_ok.mp planned
      · cases planned
      · cases planned
        obtain ⟨receives, rfl⟩ := receives_of_resolveNow resolved fails
        obtain ⟨components, fetched⟩ := fetches_of_materialise fails materialised
        exact .cons receives fetched (ih later)
    | some f =>
      cases result <;> cases fails
      dsimp only at opened
      split at opened
      · split at opened <;> cases opened
      · cases opened

theorem supplies_of_planField {p : InjectionPoint} {step : Option Planned}
    (planned : exec (planField perform registry component p q) st = (.ok step, next)) :
    Supplies perform registry st [q] (step.toList.flatMap (·.injected)) next := by
  unfold planField at planned
  obtain ⟨result, now, resolved, planned⟩ := exec_bind_eq_ok.mp planned
  have received (fine : result.failure? = none) := receives_of_resolveNow resolved fine
  split at planned
  · cases planned
  · rename_i eager
    cases planned
    obtain ⟨receives, rfl⟩ := received rfl
    have none : q.injected .empty = [] := by simp [Request.injected, Resolution.found]
    rw [none] at receives
    exact .cons receives (exec_pure [] st) .nil
  · rename_i result _ _ other _
    have fine : result.failure? = none := by
      cases result with
      | failure f => exact (other f rfl).elim
      | _ => rfl
    obtain ⟨value, reached, materialised, planned⟩ := exec_bind_eq_ok.mp planned
    cases planned
    obtain ⟨receives, rfl⟩ := received fine
    obtain ⟨components, fetched⟩ := fetches_of_materialise fine materialised
    simpa using Supplies.cons receives fetched .nil

theorem gathers_of_planPoint {explicit : Entries Value} {p : InjectionPoint}
    {ps : List InjectionPoint} {step : Option Planned} {cs : List Candidate} {last : Store}
    (uncovered : explicit.lookup p.propertyName = none)
    (planned : exec (planPoint perform registry component p) st = (.ok step, next))
    (later : Gathers perform registry explicit next ps cs last) :
    Gathers perform registry explicit st (p :: ps) (step.toList.flatMap (·.injected) ++ cs) last := by
  unfold planPoint at planned
  cases kind : p.kind with
  | field =>
    have decisive : p.decisive = p.requests.take 1 := by simp [InjectionPoint.decisive, kind]
    cases requests : p.requests with
    | nil =>
      rw [kind, requests] at planned
      cases planned
      exact .applied uncovered (by rw [decisive, requests]; exact .nil) later
    | cons q qs =>
      rw [kind, requests] at planned
      exact .applied uncovered (by rw [decisive, requests]; exact supplies_of_planField planned)
        later
  | method =>
    have decisive : p.decisive = p.requests := by simp [InjectionPoint.decisive, kind]
    rw [kind] at planned
    obtain ⟨values, now, planned, made⟩ := exec_bind_eq_ok.mp planned
    cases values with
    | some values =>
      cases made
      simpa using .applied uncovered (decisive ▸ supplies_of_planParameters planned) later
    | none =>
      -- what the requests before the missing one were supplied with was fetched, but is dropped
      cases made
      obtain ⟨optional, front, q, back, values, parts, handle, walked, missing⟩ :=
        missing_of_planParameters planned
      exact .skipped uncovered kind optional parts (supplies_of_planParameters walked) handle
        missing later

theorem gathers_of_planPoints {explicit : Entries Value} {points : List InjectionPoint}
    {planned : List Planned}
    (ran : exec (planPoints perform registry component explicit points) st = (.ok planned, next)) :
    Gathers perform registry explicit st points (planned.flatMap (·.injected)) next := by
  induction points generalizing st planned with
  | nil =>
    cases ran
    exact .nil
  | cons p points ih =>
    cases covered : explicit.lookup p.propertyName with
    | some v =>
      rw [planPoints_covered covered] at ran
      exact .covered (by simp [covered]) (ih ran)
    | none =>
      rw [planPoints_cons covered] at ran
      obtain ⟨step, now, here, ran⟩ := exec_bind_eq_ok.mp ran
      obtain ⟨rest, last, later, ran⟩ := exec_bind_eq_ok.mp ran
      cases ran
      simpa using gathers_of_planPoint covered here (ih later)

end Parts

end Wiring.Run
