import Mathlib
import Wiring.Registry.Selection
import Wiring.Proofs.Registry.Resolution

/-! Which constructor is selected. Without a required one, the choice is the first of the
satisfiable constructors with the most parameters; if there is none, the error is about the first
parameter in the way of the first constructor with the most parameters. -/
namespace Wiring

namespace Constructor

end Constructor

namespace Registry

section
variable (r : Registry) (s : Settings) (w : World) (h : Heap)

/-- What a constructor parameter resolves to. A lazy handle needs nothing. -/
def outcome (q : Request) : Except Error Resolution :=
  if q.cardinality = .factory then .ok .empty else r.resolve s w h q

/-- Every parameter resolves, and `results` are what they resolve to, one for each. -/
def Satisfied (qs : List Request) (results : List Resolution) : Prop :=
  List.Forall₂ (fun q result => r.outcome s w h q = .ok result ∧ result.failure? = none) qs results

end

variable {r : Registry} {s : Settings} {w : World} {h : Heap}

theorem satisfied_of_resolveParameters {qs : List Request} {results : List Resolution}
    (walked : r.resolveParameters s w h qs = .ok results)
    (fine : results.findSome? Resolution.failure? = none) : r.Satisfied s w h qs results := by
  induction qs generalizing results with
  | nil =>
    cases walked
    exact .nil
  | cons q qs ih =>
    rw [resolveParameters] at walked
    split at walked
    · rename_i handle
      obtain ⟨rest, later, same⟩ := Outcome.bind_eq_ok.mp walked
      cases Outcome.pure_eq_ok.mp same
      exact .cons ⟨if_pos handle, rfl⟩ (ih later fine)
    · rename_i handle
      obtain ⟨result, resolved, walked⟩ := Outcome.bind_eq_ok.mp walked
      have here : r.outcome s w h q = .ok result := (if_neg handle).trans resolved
      cases result with
      | failure f =>
        cases Outcome.pure_eq_ok.mp walked
        cases fine
      | _ =>
        obtain ⟨rest, later, same⟩ := Outcome.bind_eq_ok.mp walked
        cases Outcome.pure_eq_ok.mp same
        exact .cons ⟨here, rfl⟩ (ih later fine)

variable {c : ClassRef}

theorem satisfied_of_firstSatisfied {missing : Option Failure} {ks : List Constructor}
    {selection : Selection} (taken : r.firstSatisfied s w h c missing ks = .ok selection) :
    ∃ results, selection.results = some results ∧
      r.Satisfied s w h selection.constructor.requests results := by
  induction ks generalizing missing with
  | nil => cases missing <;> cases taken
  | cons k ks ih =>
    rw [firstSatisfied] at taken
    obtain ⟨results, walked, taken⟩ := Outcome.bind_eq_ok.mp taken
    split at taken
    · rename_i fine
      cases Outcome.pure_eq_ok.mp taken
      exact ⟨results, rfl, satisfied_of_resolveParameters walked fine⟩
    · exact ih taken

theorem satisfied_of_select {selection : Selection} {results : List Resolution}
    (selected : r.select s w h c = .ok selection) (given : selection.results = some results) :
    r.Satisfied s w h selection.constructor.requests results := by
  obtain ⟨ks, -, selected⟩ := Outcome.bind_eq_ok.mp selected
  split at selected
  · cases Outcome.pure_eq_ok.mp selected
    cases given
  · obtain ⟨_, same, all⟩ := satisfied_of_firstSatisfied selected
    cases given.symm.trans same
    exact all

section
variable {h' : Heap} (answers : ∀ q, r.resolve s w h' q = r.resolve s w h q)
include answers

theorem resolveParameters_of_answers (qs : List Request) :
    r.resolveParameters s w h' qs = r.resolveParameters s w h qs := by
  induction qs with
  | nil => rfl
  | cons q qs ih => simp only [resolveParameters, answers, ih]

theorem firstSatisfied_of_answers (missing : Option Failure) (ks : List Constructor) :
    r.firstSatisfied s w h' c missing ks = r.firstSatisfied s w h c missing ks := by
  induction ks generalizing missing with
  | nil => cases missing <;> rfl
  | cons k ks ih =>
    cases missing <;> simp only [firstSatisfied, resolveParameters_of_answers answers, ih]

theorem select_of_answers (c : ClassRef) : r.select s w h' c = r.select s w h c := by
  simp only [select, firstSatisfied_of_answers answers]

end

theorem mem_of_mem_pool {ks : List Constructor} {k : Constructor} (mem : k ∈ Constructor.pool ks) :
    k ∈ ks := by
  simp only [Constructor.pool] at mem
  split at mem
  · exact mem
  · rcases List.mem_append.mp mem with marked | plain
    · exact List.mem_of_mem_filter marked
    · simp only [Option.mem_toList, Option.filter_eq_some_iff] at plain
      exact List.mem_of_find?_eq_some plain.1

theorem mem_byParameters {ks : List Constructor} {k : Constructor} :
    k ∈ Constructor.byParameters ks ↔ k ∈ ks :=
  List.mem_mergeSort

theorem mem_of_settled? {ks : List Constructor} {k : Constructor}
    (settled : Constructor.settled? ks = some k) : k ∈ ks := by
  unfold Constructor.settled? at settled
  split at settled
  · split at settled
    · cases settled
      exact List.mem_cons_self
    · cases settled
  · exact List.mem_of_find?_eq_some settled

theorem mem_of_firstSatisfied {missing : Option Failure} {ks : List Constructor}
    {selection : Selection} (taken : r.firstSatisfied s w h c missing ks = .ok selection) :
    selection.constructor ∈ ks := by
  induction ks generalizing missing with
  | nil => cases missing <;> cases taken
  | cons k ks ih =>
    rw [firstSatisfied] at taken
    obtain ⟨results, walked, taken⟩ := Outcome.bind_eq_ok.mp taken
    split at taken
    · cases Outcome.pure_eq_ok.mp taken
      exact List.mem_cons_self
    · exact List.mem_cons_of_mem k (ih taken)

theorem mem_of_select {selection : Selection} (selected : r.select s w h c = .ok selection) :
    ∃ ks, w.constructors s c = .ok ks ∧ selection.constructor ∈ ks := by
  obtain ⟨ks, found, selected⟩ := Outcome.bind_eq_ok.mp selected
  refine ⟨ks, found, ?_⟩
  split at selected
  · rename_i settled
    cases Outcome.pure_eq_ok.mp selected
    exact mem_of_settled? settled
  · exact mem_of_mem_pool (mem_byParameters.mp (mem_of_firstSatisfied selected))

end Registry

/-! An alarm can be set to a clock and a volume, to a clock alone, or be silent. On a wall with a
clock and no volume, the first of the two constructors with a clock is selected. -/
namespace Alarm

def clock : ClassInfo where
  name := "Clock"
  qualifiedName := "Clock"
  bases := [.builtin .object]
  linearization := [.declared 0, .builtin .object]

def constructor (name : String) (types : List (String × Hint)) : Function where
  name := name
  owner := "Alarm"
  subject := if name = "__init__" then .receiver else .newObject
  parameters := types.map fun (name, type) => { name, type := some type }
  constructs := name != "__init__"

def alarm : ClassInfo where
  name := "Alarm"
  qualifiedName := "Alarm"
  bases := [.builtin .object]
  linearization := [.declared 1, .builtin .object]
  members := [
    ("__init__", .method (constructor "__init__"
      [("clock", .cls (.declared 0)), ("volume", .cls (.builtin .int))])),
    ("silent", .classMethod (constructor "silent" [])),
    ("at_time", .classMethod (constructor "at_time" [("clock", .cls (.declared 0))])),
    ("at_dawn", .classMethod (constructor "at_dawn" [("clock", .cls (.declared 0))]))]

def shop : World where
  moduleName := "shop"
  classes := [clock, alarm]

def constructors : List Constructor := (shop.constructors {} (.declared 1)).toOption.getD []

end Alarm
end Wiring
