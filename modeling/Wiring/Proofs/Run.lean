import Mathlib.Order.Defs.Unbundled
import Wiring.Container

/-! Computations from a store. They end with a result or an error, and with a store either way. What
the parts of a computation keep of the store, the whole keeps. -/
namespace Wiring.Run

variable {α β : Type}

def exec (x : Run α) (st : Store) : Except Error α × Store := x.run.run st

@[simp] theorem exec_pure (a : α) (st : Store) : exec (pure a) st = (.ok a, st) := rfl

@[simp] theorem exec_throw (e : Error) (st : Store) :
    exec (throw e : Run α) st = (.error e, st) := rfl

@[simp] theorem exec_get (st : Store) : exec get st = (.ok st, st) := rfl

@[simp] theorem exec_modify (f : Store → Store) (st : Store) :
    exec (modify f) st = (.ok (), f st) := rfl

@[simp] theorem exec_emit (e : Event) (st : Store) :
    exec (emit e) st = (.ok (), { st with events := st.events ++ [e] }) := rfl

@[simp] theorem exec_badAttribute (fault : AttributeFault) (st : Store) :
    exec (badAttribute fault : Run α) st = (.error (.badAttribute fault), st) := rfl

@[simp] theorem exec_badType (fault : TypeFault) (st : Store) :
    exec (badType fault : Run α) st = (.error (.badType fault), st) := rfl

theorem exec_bind (x : Run α) (f : α → Run β) (st : Store) :
    exec (x >>= f) st = match exec x st with
      | (.ok a, after) => exec (f a) after
      | (.error e, after) => (.error e, after) := by
  change ((x >>= f).run.run st : Id _) = _
  rw [ExceptT.run_bind, StateT.run_bind]
  unfold exec
  rcases x.run.run st with ⟨_ | _, _⟩ <;> rfl

theorem exec_bind_eq_ok {x : Run α} {f : α → Run β} {st last : Store} {b : β} :
    exec (x >>= f) st = (.ok b, last) ↔
      ∃ a next, exec x st = (.ok a, next) ∧ exec (f a) next = (.ok b, last) := by
  rw [exec_bind]
  rcases exec x st with ⟨_ | a, next⟩
  · simp
  · constructor
    · intro ran
      exact ⟨a, next, rfl, ran⟩
    · rintro ⟨_, _, same, ran⟩
      cases same
      exact ran

theorem exec_bind_eq_error {x : Run α} {f : α → Run β} {st last : Store} {e : Error} :
    exec (x >>= f) st = (.error e, last) ↔ exec x st = (.error e, last) ∨
      ∃ a next, exec x st = (.ok a, next) ∧ exec (f a) next = (.error e, last) := by
  rw [exec_bind]
  rcases exec x st with ⟨_ | a, next⟩
  · simp
  · constructor
    · intro ran
      exact .inr ⟨a, next, rfl, ran⟩
    · rintro (same | ⟨_, _, same, ran⟩) <;> cases same
      exact ran

theorem exec_bind_eq_error_left {x : Run α} {f : α → Run β} {st last : Store} {e : Error}
    (ends : ∀ a st, ∃ b last, exec (f a) st = (.ok b, last)) :
    exec (x >>= f) st = (.error e, last) ↔ exec x st = (.error e, last) := by
  rw [exec_bind_eq_error, or_iff_left]
  rintro ⟨a, next, -, failed⟩
  obtain ⟨b, after, ended⟩ := ends a next
  rw [ended] at failed
  cases failed

theorem exec_bind_of_ok {x : Run α} {st next : Store} {a : α} (ran : exec x st = (.ok a, next))
    (f : α → Run β) : exec (x >>= f) st = exec (f a) next := by
  rw [exec_bind, ran]

theorem exec_bind_of_error {x : Run α} {st next : Store} {e : Error}
    (ran : exec x st = (.error e, next)) (f : α → Run β) :
    exec (x >>= f) st = (.error e, next) := by
  rw [exec_bind, ran]

theorem exec_mapM_eq_error {f : α → Run β} {xs : List α} {st last : Store} {e : Error} :
    exec (xs.mapM f) st = (.error e, last) ↔ ∃ before x rest ys now, xs = before ++ x :: rest ∧
      exec (before.mapM f) st = (.ok ys, now) ∧ exec (f x) now = (.error e, last) := by
  constructor
  · intro stopped
    induction xs generalizing st with
    | nil => cases stopped
    | cons x xs ih =>
      rw [List.mapM_cons] at stopped
      rcases exec_bind_eq_error.mp stopped with here | ⟨y, next, made, stopped⟩
      · exact ⟨[], x, xs, [], st, rfl, rfl, here⟩
      rcases exec_bind_eq_error.mp stopped with later | ⟨_, _, -, ended⟩
      · obtain ⟨before, bad, rest, ys, now, rfl, walked, failed⟩ := ih later
        refine ⟨x :: before, bad, rest, y :: ys, now, rfl, ?_, failed⟩
        rw [List.mapM_cons, exec_bind_of_ok made, exec_bind_of_ok walked, exec_pure]
      · cases ended
  · rintro ⟨before, x, rest, ys, now, rfl, walked, failed⟩
    rw [List.mapM_append, exec_bind_of_ok walked, List.mapM_cons]
    exact exec_bind_of_error (exec_bind_of_error failed _) _

theorem exec_tryCatch (x : Run α) (f : Error → Run α) (st : Store) :
    exec (tryCatch x f) st = match exec x st with
      | (.ok a, after) => (.ok a, after)
      | (.error e, after) => exec (f e) after := by
  change ((ExceptT.tryCatch x f).run.run st : Id _) = _
  unfold ExceptT.tryCatch exec
  rw [ExceptT.run_mk, StateT.run_bind]
  rcases ran : x.run.run st with ⟨result, after⟩
  rw [show StateT.run x st = (result, after) from ran]
  cases result <;> rfl

theorem exec_tryCatch_of_ok {x : Run α} {st next : Store} {a : α}
    (ran : exec x st = (.ok a, next)) (f : Error → Run α) :
    exec (tryCatch x f) st = (.ok a, next) := by
  rw [exec_tryCatch, ran]

@[simp] theorem exec_modifyObject (id : Nat) (f : Object → Object) (st : Store) :
    exec (modifyObject (.object id) f) st = (.ok (), { st with heap := st.heap.modify id f }) := rfl

theorem exec_modifyObject_ne_error {v : Value} {f : Object → Object} {st after : Store}
    {e : Error} : exec (modifyObject v f) st ≠ (.error e, after) := by
  intro failed
  cases v <;> cases failed

/-- The store in which the computation ends is related to the one in which it began. -/
def Keeps (R : Store → Store → Prop) (x : Run α) : Prop := ∀ st, R st (exec x st).2

namespace Keeps
variable {R : Store → Store → Prop} [IsPreorder Store R]

theorem pure (a : α) : Keeps R (Pure.pure a) := refl_of R

theorem throw (e : Error) : Keeps R (throwThe Error e : Run α) := refl_of R

theorem get : Keeps R (MonadState.get : Run Store) := refl_of R

theorem bind {x : Run α} {f : α → Run β} (first : Keeps R x) (rest : ∀ a, Keeps R (f a)) :
    Keeps R (x >>= f) := by
  intro st
  have begun := first st
  rw [exec_bind]
  rcases ran : exec x st with ⟨_ | a, next⟩ <;> rw [ran] at begun
  · exact begun
  · exact trans_of R begun (rest a next)

theorem tryCatch {x : Run α} {f : Error → Run α} (first : Keeps R x) (rest : ∀ e, Keeps R (f e)) :
    Keeps R (MonadExcept.tryCatch x f) := by
  intro st
  have begun := first st
  rw [exec_tryCatch]
  rcases ran : exec x st with ⟨e | _, next⟩ <;> rw [ran] at begun
  · exact trans_of R begun (rest e next)
  · exact begun

theorem map {x : Run α} (f : α → β) (first : Keeps R x) : Keeps R (f <$> x) := by
  rw [map_eq_pure_bind]
  exact first.bind fun _ => .pure _

omit [IsPreorder Store R] in
theorem ite {c : Prop} [Decidable c] {x y : Run α} (first : Keeps R x) (second : Keeps R y) :
    Keeps R (if c then x else y) := by
  split
  · exact first
  · exact second

theorem mapM {f : α → Run β} (each : ∀ a, Keeps R (f a)) (as : List α) : Keeps R (as.mapM f) := by
  induction as with
  | nil => exact .pure _
  | cons a as ih =>
    rw [List.mapM_cons]
    exact (each a).bind fun _ => ih.bind fun _ => .pure _

theorem forM {f : α → Run PUnit} (each : ∀ a, Keeps R (f a)) (as : List α) :
    Keeps R (as.forM f) := by
  induction as with
  | nil => exact .pure _
  | cons a as ih => exact (each a).bind fun _ => ih

theorem lift (result : Except Error α) : Keeps R (Run.lift result) := by
  cases result with
  | ok a => exact .pure a
  | error e => exact .throw e

theorem resolve (registry : String) (q : Request) : Keeps R (Run.resolve registry q) :=
  .bind .get fun _ => .lift _

end Keeps

def Yields (R : Store → Store → Prop) (T : α → Prop) (x : Run α) : Prop :=
  ∀ st, R st (exec x st).2 ∧ ∀ a, (exec x st).1 = .ok a → T a

theorem Yields.keeps {R : Store → Store → Prop} {T : α → Prop} {x : Run α}
    (yields : Yields R T x) : Keeps R x := fun st => (yields st).1

theorem Keeps.yields {R : Store → Store → Prop} {T : α → Prop} {x : Run α} (keeps : Keeps R x)
    (all : ∀ a, T a) : Yields R T x := fun st => ⟨keeps st, fun a _ => all a⟩

theorem Yields.weaken {R S : Store → Store → Prop} {T : α → Prop} {x : Run α}
    (yields : Yields R T x) (wider : ∀ {st after}, R st after → S st after) : Yields S T x :=
  fun st => (yields st).imp_left wider

namespace Yields
variable {R : Store → Store → Prop} [IsPreorder Store R] {T : α → Prop} {U : β → Prop}

theorem pure {a : α} (holds : T a) : Yields R T (Pure.pure a) := by
  intro st
  refine ⟨refl_of R st, fun b given => ?_⟩
  cases given
  exact holds

theorem throw (e : Error) : Yields R T (throwThe Error e : Run α) := by
  intro st
  refine ⟨refl_of R st, fun a given => ?_⟩
  cases given

theorem bind {x : Run α} {f : α → Run β} (first : Yields R T x)
    (rest : ∀ a, T a → Yields R U (f a)) : Yields R U (x >>= f) := by
  intro st
  obtain ⟨begun, has⟩ := first st
  rw [exec_bind]
  rcases ran : exec x st with ⟨e | a, next⟩ <;> rw [ran] at begun has
  · exact ⟨begun, fun b given => by cases given⟩
  · obtain ⟨ended, gives⟩ := rest a (has a rfl) next
    exact ⟨trans_of R begun ended, gives⟩

theorem after {x : Run α} {f : α → Run β} (first : Keeps R x) (rest : ∀ a, Yields R U (f a)) :
    Yields R U (x >>= f) :=
  bind (first.yields (T := fun _ => True) fun _ => trivial) fun a _ => rest a

omit [IsPreorder Store R] in
theorem ite {c : Prop} [Decidable c] {x y : Run α} (first : Yields R T x) (second : Yields R T y) :
    Yields R T (if c then x else y) := by
  split
  · exact first
  · exact second

end Yields

theorem Keeps.following {R : Store → Store → Prop} [IsPreorder Store R] {T : α → Prop} {x : Run α}
    {f : α → Run β} (first : Yields R T x) (rest : ∀ a, T a → Keeps R (f a)) :
    Keeps R (x >>= f) :=
  (first.bind fun a holds => (rest a holds).yields (T := fun _ => True) fun _ => trivial).keeps

end Wiring.Run
