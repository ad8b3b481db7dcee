import Mathlib
import Wiring.Proofs.Class.WellFormed
import Wiring.Proofs.Hint.Variables

/-! The parameters of classes: type variables, each of them once. So it is in every world that
declarations make, since parameters are collected from the bases as they are written. -/
namespace Wiring

namespace ClassInfo

/-- The parameters are variables, each of them once. -/
def Parameterized (info : ClassInfo) : Prop :=
  (∀ p ∈ info.parameters, p.isVar) ∧ Hint.Distinct info.parameters

theorem parameterized_of_nil {info : ClassInfo} (none : info.parameters = []) :
    info.Parameterized := by
  rw [Parameterized, none]
  exact ⟨by simp, List.Pairwise.nil⟩

end ClassInfo

theorem Builtin.parameterized (b : Builtin) : b.info.Parameterized := by
  by_cases factory : b = .objectFactory
  · subst factory
    exact ⟨List.forall_mem_singleton.mpr rfl, List.pairwise_singleton _ _⟩
  · refine ClassInfo.parameterized_of_nil ?_
    cases b <;> first | rfl | exact absurd rfl factory

theorem ClassDefinition.parameterized (bases : List Hint) :
    (∀ p ∈ parametersOf bases, p.isVar) ∧ Hint.Distinct (parametersOf bases) := by
  unfold parametersOf
  split
  · exact Hint.collected_parameters _
  · exact Hint.collected_argumentParameters fun h _ => h.collected_parameters

namespace World
variable {w : World}

def Parameterized (w : World) : Prop := ∀ c, (w.info c).Parameterized

theorem parameterized_of_classes (each : ∀ info ∈ w.classes, info.Parameterized) :
    w.Parameterized := by
  intro c
  cases c with
  | builtin b => exact b.parameterized
  | declared n =>
    cases found : w.classes[n]? with
    | none => simpa [World.info, found] using Builtin.object.parameterized
    | some info => simpa [World.info, found] using each info (List.mem_of_getElem? found)

namespace Parameterized

theorem of_mem (vars : w.Parameterized) {info : ClassInfo} (mem : info ∈ w.classes) :
    info.Parameterized := by
  obtain ⟨n, found⟩ := List.mem_iff_getElem?.mp mem
  simpa [World.info, found] using vars (.declared n)

theorem append (vars : w.Parameterized) {info : ClassInfo} (added : info.Parameterized) :
    Parameterized { w with classes := w.classes ++ [info] } := by
  refine parameterized_of_classes fun info' mem => ?_
  rcases List.mem_append.mp mem with old | new
  · exact vars.of_mem old
  · cases List.mem_singleton.mp new
    exact added

theorem bind (vars : w.Parameterized) (name : String) (h : Hint) :
    (w.bind name h).Parameterized :=
  parameterized_of_classes fun _ mem => vars.of_mem mem

theorem setMember (vars : w.Parameterized) (c : ClassRef) (name : String) (m : Member) :
    (w.setMember c name m).Parameterized := by
  cases c with
  | builtin b => exact vars
  | declared n =>
    refine parameterized_of_classes fun info mem => ?_
    obtain ⟨i, found⟩ := List.mem_iff_getElem?.mp mem
    simp only [World.setMember, List.getElem?_modify] at found
    obtain ⟨old, held, rfl⟩ := Option.map_eq_some_iff.mp found
    have kept := vars.of_mem (List.mem_of_getElem? held)
    split <;> exact kept

theorem addEverywhere (vars : w.Parameterized) (name : String) (bases : List ClassRef)
    (members : List String) : (w.addEverywhere name bases members).Parameterized :=
  vars.append (ClassInfo.parameterized_of_nil rfl)

theorem declare? (vars : w.Parameterized) {d : ClassDefinition} {after : World}
    (declared : w.declare? d = some after) : after.Parameterized := by
  unfold World.declare? at declared
  dsimp only at declared
  split at declared
  · cases declared
  · have added : ∀ info : ClassInfo,
        (info.parameters = [] ∨ info.parameters = ClassDefinition.parametersOf d.bases) →
        info.Parameterized := by
      rintro info (none | collected)
      · exact ClassInfo.parameterized_of_nil none
      · rw [ClassInfo.Parameterized, collected]
        exact ClassDefinition.parameterized d.bases
    cases declared
    split
    · exact vars.append (added _ (by dsimp only; split <;> simp))
    · exact (vars.append (added _ (by dsimp only; split <;> simp))).bind _ _

end Parameterized

theorem parameterized_start (moduleName : String) : (start moduleName).Parameterized := by
  unfold start
  refine List.foldlRecOn furtherClasses _ ?_ fun w vars entry _ => vars.addEverywhere _ _ _
  refine List.foldlRecOn _ _ (parameterized_of_classes fun _ mem => by contradiction)
    fun w vars group _ => ?_
  exact List.foldlRecOn group.2 _ vars fun w vars name _ => vars.addEverywhere _ _ _

theorem Declared.parameterized (made : w.Declared) : w.Parameterized := by
  induction made with
  | start moduleName => exact parameterized_start moduleName
  | declare _ _ declared vars => exact vars.declare? declared
  | bind _ name h vars => exact vars.bind name h
  | setMember _ c name m vars => exact vars.setMember c name m

end World
end Wiring
