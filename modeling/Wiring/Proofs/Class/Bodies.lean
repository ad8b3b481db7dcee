import Wiring.Class.Metadata
import Wiring.Proofs.Entries
import Wiring.Proofs.Outcome

/-! Worlds that differ in the body of one class. Apart from the members, every class is the same in
both: the lines of ancestors, what is bound to type variables, and what names stand for in the
annotations of methods. Annotations of fields are looked up in the body as well, so they may change
with the members that they name. -/
namespace Wiring

theorem find?_eq_find? {α : Type} {p q : α → Bool} {a : α} {xs : List α}
    (same : ∀ x, x ≠ a → q x = p x) (holds : p a) (before : xs.find? p ≠ some a) :
    xs.find? q = xs.find? p := by
  induction xs with
  | nil => rfl
  | cons x xs ih =>
    by_cases here : x = a
    · subst here
      exact absurd (List.find?_cons_of_pos holds) before
    · rw [List.find?_cons, List.find?_cons, same x here]
      cases found : p x with
      | true => rfl
      | false => exact ih (by rwa [List.find?_cons, found] at before)

theorem findIdx?_modify {α : Type} {p : α → Bool} {f : α → α} (kept : ∀ a, p (f a) = p a)
    (xs : List α) (n : Nat) : (xs.modify n f).findIdx? p = xs.findIdx? p := by
  induction xs generalizing n with
  | nil => cases n <;> rfl
  | cons x xs ih => cases n <;> simp [List.findIdx?_cons, kept, ih]

namespace World

def withBody (w : World) (c : ClassRef) (body : Namespace) : World :=
  match c with
  | .builtin _ => w
  | .declared n =>
    { w with classes := w.classes.modify n fun info => { info with members := body } }

section
variable (w : World) (k : ClassRef) (body : Namespace) (j : ClassRef)

theorem info_withBody : (w.withBody k body).info j =
    { w.info j with members := ((w.withBody k body).info j).members } := by
  cases k with
  | builtin b => rfl
  | declared n =>
    cases j with
    | builtin b => rfl
    | declared i =>
      simp only [info, withBody, List.getElem?_modify]
      cases w.classes[i]? with
      | none => rfl
      | some info => by_cases same : n = i <;> simp [same]

theorem members_withBody_self :
    ((w.withBody k body).info k).members = body ∨ w.withBody k body = w := by
  cases k with
  | builtin b => exact .inr rfl
  | declared n =>
    by_cases known : n < w.classes.length
    · left
      simp [info, withBody, known]
    · right
      simp only [withBody, List.modify_eq_self (Nat.le_of_not_lt known)]

theorem qualifiedName_withBody :
    ((w.withBody k body).info j).qualifiedName = (w.info j).qualifiedName := by
  rw [info_withBody]

theorem parameters_withBody : ((w.withBody k body).info j).parameters = (w.info j).parameters := by
  rw [info_withBody]

theorem name_withBody : (w.withBody k body).name j = w.name j := by
  rw [World.name, info_withBody]
  rfl

theorem linearization_withBody : (w.withBody k body).linearization j = w.linearization j := by
  rw [linearization, info_withBody]
  rfl

theorem derives_withBody (target : ClassRef) :
    (w.withBody k body).derives j target = w.derives j target := by
  rw [World.derives, linearization_withBody]
  rfl

theorem hierarchy_withBody : (w.withBody k body).hierarchy j = w.hierarchy j := by
  rw [hierarchy, linearization_withBody]
  rfl

theorem everywhereClass?_withBody (text : String) :
    (w.withBody k body).everywhereClass? text = w.everywhereClass? text := by
  cases k with
  | builtin b => rfl
  | declared n =>
    let change (info : ClassInfo) : ClassInfo := { info with members := body }
    unfold everywhereClass?
    split
    · rfl
    · refine congrArg (Option.map ClassRef.declared) ?_
      exact findIdx?_modify (f := change) (fun _ => rfl) w.classes n

theorem global_withBody : Scope.global (w.withBody k body) = Scope.global w := by
  funext text
  simp only [Scope.global, Scope.everywhere, everywhereClass?_withBody]
  cases k <;> rfl

theorem methodScope_withBody : (w.withBody k body).methodScope j = w.methodScope j := by
  unfold methodScope
  rw [name_withBody, global_withBody]

theorem parametersOf_withBody (f : Function) :
    (w.withBody k body).parametersOf j f = w.parametersOf j f := by
  rw [parametersOf, methodScope_withBody]
  rfl

theorem declaredMethod_withBody (s : Settings) :
    (w.withBody k body).declaredMethod s j = w.declaredMethod s j := by
  funext entry
  unfold declaredMethod
  rw [qualifiedName_withBody]
  simp only [parametersOf_withBody]

theorem ofMember_withBody (n : Nat) (name : String) (m : Member) :
    Hint.ofMember (w.withBody k body) n name m = Hint.ofMember w n name m := by
  cases m <;> simp only [Hint.ofMember, Hint.ofMember.placed, name_withBody]

theorem searchArguments_withBody (target c : ClassRef) (σ : Bindings) :
    (w.withBody k body).searchArguments target c σ = w.searchArguments target c σ := by
  have own : (w.withBody k body).ownArguments c σ = w.ownArguments c σ := by
    rw [ownArguments, parameters_withBody]
    rfl
  have bases : ((w.withBody k body).info c).baseHints = (w.info c).baseHints := by
    rw [info_withBody]
    rfl
  unfold searchArguments
  rw [own, bases]
  congr 2
  funext base
  split
  · rename_i behind _
    rw [derives_withBody, parameters_withBody]
    congr 1
    split
    · rename_i lower
      dsimp only
      congr 1
      funext τ
      exact searchArguments_withBody target behind τ
    · rfl
  · rfl
termination_by c.rank

theorem bindingsFor_withBody (c owner : ClassRef) :
    (w.withBody k body).bindingsFor (.cls c) owner = w.bindingsFor (.cls c) owner := by
  have arguments : (w.withBody k body).genericArguments owner (.cls c) =
      w.genericArguments owner (.cls c) := by
    unfold genericArguments
    dsimp only
    split
    · rw [derives_withBody, parameters_withBody, searchArguments_withBody]
    · rfl
  unfold bindingsFor typeVariables
  rw [parameters_withBody, arguments]

end

variable {w : World} {k : ClassRef} {body : Namespace} {j : ClassRef} {name : String}

theorem members_withBody_of_ne (other : j ≠ k) :
    ((w.withBody k body).info j).members = (w.info j).members := by
  cases k with
  | builtin b => rfl
  | declared n =>
    cases j with
    | builtin b => rfl
    | declared i =>
      have apart : n ≠ i := fun same => other (by rw [same])
      simp [info, withBody, apart]

/-! The two bodies hold the same members, but for those of one name. -/
section
variable (others : body.erase name = (w.info k).members.erase name)
include others

theorem ownMember?_withBody {text : String} (apart : j ≠ k ∨ text ≠ name) :
    (w.withBody k body).ownMember? j text = w.ownMember? j text := by
  unfold ownMember?
  by_cases same : j = k
  · subst same
    have differ := apart.resolve_left (fun ne => ne rfl)
    rcases members_withBody_self w j body with held | kept
    · rw [held, ← Entries.lookup_erase_of_ne differ body, others,
        Entries.lookup_erase_of_ne differ]
    · rw [kept]
  · rw [members_withBody_of_ne same]

/-- Annotations stand for the same hints, unless one of them is just the name. -/
theorem annotationsOf_withBody
    (apart : j ≠ k ∨ ∀ entry ∈ (w.info k).annotations, ∀ text, entry.2 = .text text →
      Text.plainSpelling text ≠ name) :
    (w.withBody k body).annotationsOf j = w.annotationsOf j := by
  have annotations : ((w.withBody k body).info j).annotations = (w.info j).annotations := by
    rw [info_withBody]
  unfold annotationsOf
  rw [annotations]
  refine Outcome.mapM_congr fun (label, h) mem => ?_
  have read : h.evaluateField ((w.withBody k body).fieldScope j) =
      h.evaluateField (w.fieldScope j) := by
    unfold Hint.evaluateField
    split
    · rename_i text
      have differ : j ≠ k ∨ Text.plainSpelling text ≠ name := by
        by_cases same : j = k
        · subst same
          exact .inr (apart.resolve_left (fun ne => ne rfl) _ mem _ rfl)
        · exact .inl same
      have seen : (w.withBody k body).fieldScope j (Text.plainSpelling text) =
          w.fieldScope j (Text.plainSpelling text) := by
        unfold fieldScope
        rw [ownMember?_withBody others differ, global_withBody]
        simp only [ofMember_withBody]
      simp only [Scope.find, seen]
    · rfl
  simp only [read]

end

end World
end Wiring
