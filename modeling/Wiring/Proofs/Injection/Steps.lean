import Mathlib
import Wiring.Proofs.Injection.Rollback

/-! Taking planned steps. Either every step is taken, each once and in order, or one of them fails
and what was recorded of the attributes assigned before it is put back, which can fail as well. -/
namespace Wiring.Run

/-- From one store to the other the steps are taken, each once and in order; with what is recorded
of the attributes that they assign, the last first. -/
inductive Takes (perform : Perform) (target : Value) :
    Store → List Planned → Undo → Store → Prop
  | nil {st : Store} : Takes perform target st [] [] st
  | cons {st next last : Store} {p : Planned} {ps : List Planned} {done later : Undo} :
    exec (takeStep perform target p.step) st = (.ok done, next) →
    Takes perform target next ps later last →
    Takes perform target st (p :: ps) (later ++ done) last

variable {perform : Perform} {component : String} {target : Value} {st now last after : Store}
  {undo done : Undo} {e : Error}

namespace Takes

theorem exec_takeSteps {pre : List Planned} (taken : Takes perform target st pre done now)
    (component : String) (undo : Undo) (rest : List Planned) :
    exec (takeSteps perform component target undo (pre ++ rest)) st =
      exec (takeSteps perform component target (done ++ undo) rest) now := by
  induction taken generalizing undo with
  | nil => rfl
  | cons first _ ih => rw [List.cons_append, exec_takeSteps_cons first, ih, List.append_assoc]

theorem split {pre post : List Planned} {p : Planned}
    (taken : Takes perform target st (pre ++ p :: post) done last) :
    ∃ before between own rest now next, Takes perform target st pre before now ∧
      exec (takeStep perform target p.step) now = (.ok own, next) ∧
      Takes perform target next post rest last ∧ between = rest ++ own ∧
      done = between ++ before := by
  induction pre generalizing st done with
  | nil =>
    obtain _ | ⟨here, rest⟩ := taken
    exact ⟨[], _, _, _, st, _, .nil, here, rest, rfl, (List.append_nil _).symm⟩
  | cons first pre ih =>
    obtain _ | ⟨begun, rest⟩ := taken
    obtain ⟨before, between, own, later, now, next, earlier, here, after, rfl, rfl⟩ := ih rest
    exact ⟨_, _, own, later, now, next, .cons begun earlier, here, after, rfl,
      List.append_assoc _ _ _⟩

end Takes

inductive Stumbles (perform : Perform) (target : Value) (st : Store) (steps : List Planned)
    (bad : Planned) (done : Undo) (fault : Error) (left : Store) : Prop
  | intro {pre post : List Planned} {now : Store} (parts : steps = pre ++ bad :: post)
    (taken : Takes perform target st pre done now)
    (failed : exec (takeStep perform target bad.step) now = (.error fault, left))

theorem takes_or_stumbles (perform : Perform) (target : Value) (st : Store)
    (steps : List Planned) :
    (∃ done last, Takes perform target st steps done last) ∨
      ∃ bad done fault left, Stumbles perform target st steps bad done fault left := by
  induction steps generalizing st with
  | nil => exact .inl ⟨[], st, .nil⟩
  | cons p ps ih =>
    rcases here : exec (takeStep perform target p.step) st with ⟨fault | own, next⟩
    · exact .inr ⟨p, [], fault, next, .intro rfl .nil here⟩
    · rcases ih next with ⟨done, last, taken⟩ | ⟨bad, done, fault, left, parts, taken, failed⟩
      · exact .inl ⟨_, last, .cons here taken⟩
      · have parts : p :: ps = (p :: _) ++ bad :: _ := congrArg (p :: ·) parts
        exact .inr ⟨bad, _, fault, left, .intro parts (.cons here taken) failed⟩

theorem Stumbles.exec_takeSteps {steps : List Planned} {bad : Planned} {fault : Error}
    {left : Store} (stumbles : Stumbles perform target st steps bad done fault left)
    (undo : Undo) :
    exec (takeSteps perform component target undo steps) st =
      match exec (restore perform target (done ++ undo)) left with
      | (.ok _, after) => (.error (.injection component bad.title fault), after)
      | (.error e, after) => (.error e, after) := by
  obtain ⟨rfl, taken, failed⟩ := stumbles
  rw [taken.exec_takeSteps]
  refine (exec_takeSteps_error failed).trans ?_
  rcases exec (restore perform target (done ++ undo)) left with ⟨_ | _, _⟩ <;> rfl

theorem exec_takeSteps_eq_ok {steps : List Planned} :
    exec (takeSteps perform component target undo steps) st = (.ok (), last) ↔
      ∃ done, Takes perform target st steps done last := by
  constructor
  · intro ended
    rcases takes_or_stumbles perform target st steps with
      ⟨done, now, taken⟩ | ⟨bad, done, fault, left, stumbles⟩
    · have whole := taken.exec_takeSteps component undo []
      rw [List.append_nil, ended] at whole
      cases whole
      exact ⟨done, taken⟩
    · rw [stumbles.exec_takeSteps] at ended
      split at ended <;> cases ended
  · rintro ⟨done, taken⟩
    have whole := taken.exec_takeSteps component undo []
    rw [List.append_nil] at whole
    rw [whole]
    rfl

/-- Steps end in an error only at one that fails: the error is that of the step, or the one of
putting back what was assigned before. -/
theorem exec_takeSteps_eq_error {steps : List Planned} :
    exec (takeSteps perform component target undo steps) st = (.error e, after) ↔
      ∃ bad done fault left, Stumbles perform target st steps bad done fault left ∧
        (exec (restore perform target (done ++ undo)) left = (.ok (), after) ∧
          e = .injection component bad.title fault ∨
        exec (restore perform target (done ++ undo)) left = (.error e, after)) := by
  constructor
  · intro stopped
    rcases takes_or_stumbles perform target st steps with
      ⟨done, now, taken⟩ | ⟨bad, done, fault, left, stumbles⟩
    · rw [exec_takeSteps_eq_ok.mpr ⟨done, taken⟩] at stopped
      cases stopped
    · refine ⟨bad, done, fault, left, stumbles, ?_⟩
      rw [stumbles.exec_takeSteps] at stopped
      split at stopped
      · rename_i restored
        cases stopped
        exact .inl ⟨restored, rfl⟩
      · rename_i stuck
        cases stopped
        exact .inr stuck
  · rintro ⟨bad, done, fault, left, stumbles, ⟨restored, rfl⟩ | stuck⟩
    · rw [stumbles.exec_takeSteps, restored]
    · rw [stumbles.exec_takeSteps, stuck]

end Wiring.Run
