import Mathlib
import Wiring.Hint.Description
import Wiring.Proofs.Hint.Unions

/-! What a wrapped hint asks for. A hint that is made optional or annotated keeps its element type
and cardinality; the one adds that nothing will do as well, the other adds a qualifier. The empty
alternative is looked for below one annotation only, and only beside a single member: annotations
below it are not seen, and beside a choice of members it is not seen itself. -/
namespace Wiring.Hint

def isChoice : Hint → Bool
  | .union _ members => 1 < (members.filter (!·.isNoneType)).length
  | _ => false

def metadata : Hint → List Hint
  | .annotated _ metadata => metadata
  | _ => []

def isTag : Hint → Bool
  | .qualifier .. | .text _ => true
  | _ => false

section
variable {h o : Hint}

theorem isNoneType_iff : h.isNoneType ↔ h = noneType := by
  unfold isNoneType noneType
  split <;> simp_all

theorem same_noneType : h.same noneType ↔ h = noneType := by
  cases h <;> simp [same, noneType]

theorem single_member (present : h ≠ noneType) : [h, noneType].filter (!·.isNoneType) = [h] := by
  have kept : h.isNoneType = false :=
    Bool.not_eq_true _ ▸ fun empty => present (isNoneType_iff.mp empty)
  have dropped : noneType.isNoneType = true := rfl
  simp [kept, dropped]

theorem qualifierFrom_append {own : List Hint} (untagged : ∀ x ∈ own, ¬ x.isTag)
    (tags : List Hint) : qualifierFrom (own ++ tags) = qualifierFrom tags := by
  induction own with
  | nil => rfl
  | cons x own ih =>
    have here : ¬ x.isTag := untagged x List.mem_cons_self
    have rest := ih fun y mem => untagged y (List.mem_cons_of_mem _ mem)
    cases x <;> first | exact absurd rfl here | exact rest

theorem size_container_le (h : Hint) : h.container.1.size ≤ h.size := by
  have below {x : Hint} (mem : x ∈ h.arguments) : x.size ≤ h.size :=
    (Nat.le_of_lt (size_lt_sizeAll mem)).trans (sizeAll_arguments_le h)
  unfold container
  split
  · exact Nat.zero_le _
  · split
    · rename_i held
      exact below (by rw [held]; exact List.mem_cons_self)
    · exact Nat.zero_le _
    · rename_i held
      exact below (by rw [held]; exact List.mem_cons_self)
    · rename_i held
      split
      · exact below (by rw [held]; exact List.mem_cons_self)
      · exact Nat.le_refl _
    · rename_i held
      split
      · exact below (by rw [held]; exact List.mem_cons_of_mem _ List.mem_cons_self)
      · exact Nat.le_refl _
    · exact Nat.le_refl _
  · exact Nat.le_refl _

theorem size_peelOptional_le (h : Hint) : h.peelOptional.1.size ≤ h.size := by
  unfold peelOptional
  split
  · rename_i spelling members
    split
    · rename_i member only
      have mem : member ∈ members := (List.mem_filter.mp (only ▸ List.mem_singleton_self _)).1
      have inside := size_lt_sizeAll mem
      split
      · simp only [size]
        omega
      · exact Nat.le_refl _
    · exact Nat.le_refl _
  · exact Nat.le_refl _

theorem element_ne (wrapped : h.isAnnotated) : h.describe.element ≠ h := by
  cases h with
  | annotated inner metadata =>
    intro same
    have content : (annotated inner metadata).describe.element.size ≤ inner.size :=
      (size_container_le _).trans (size_peelOptional_le inner)
    rw [same, size] at content
    omega
  | _ => cases wrapped

theorem describe_alternative {spelling : UnionSpelling} {members : List Hint} {member : Hint}
    (several : 1 < members.length) (only : members.filter (!·.isNoneType) = [member]) :
    (union spelling members).describe =
      { element := member.container.1, cardinality := member.container.2, nullable := true } := by
  simp [describe, peelMetadata, peelOptional, only, several]

theorem describe_choice (choice : h.isChoice) :
    h.describe = { element := h, cardinality := .single } := by
  unfold isChoice at choice
  split at choice
  · rename_i spelling members
    have whole : (union spelling members).peelOptional = (union spelling members, false) := by
      unfold peelOptional
      dsimp only
      split
      · rename_i only
        simp [only] at choice
      · rfl
    simp only [describe, peelMetadata, whole]
    rfl
  · contradiction

theorem optional_eq_ok (type : h.argument = h) (made : h.optional = .ok o) :
    o = ofMembers .typing (h.unionMembers ++ [noneType]) := by
  obtain ⟨-, ts, arguments, -, rfl⟩ := unionOf_eq_ok.mp made
  rcases arguments with _ | ⟨first, _ | ⟨second, _ | _⟩⟩
  cases typeArgument_eq_ok first
  cases typeArgument_eq_ok second
  rw [type]
  rfl

theorem optional_single (type : h.argument = h) (present : h ≠ noneType)
    (single : h.unionMembers = [h]) (made : h.optional = .ok o) :
    o = .union .typing [h, noneType] := by
  have distinct : Distinct [h, noneType] := by
    exact List.pairwise_pair.mpr fun equal => present (same_noneType.mp equal)
  have kept : dedup [h, noneType] = [h, noneType] := dedup_eq_self distinct
  rw [optional_eq_ok type made, single, List.singleton_append, ofMembers_eq _ (by simp [kept]),
    kept]

theorem optional_union {spelling : UnionSpelling} {members : List Hint}
    (united : (union spelling members).United)
    (made : (union spelling members).optional = .ok o) : ∃ all, o = .union .typing all ∧
      1 < all.length ∧ all.filter (!·.isNoneType) = members.filter (!·.isNoneType) := by
  obtain ⟨several, distinct, -⟩ := united spelling members rfl
  have kept : dedup (members ++ [noneType]) = members ∨
      dedup (members ++ [noneType]) = members ++ [noneType] := by
    rw [dedup_concat, dedup_eq_self distinct]
    split
    · exact .inl rfl
    · exact .inr rfl
  have built := optional_eq_ok rfl made
  rcases kept with kept | kept
  · rw [unionMembers, ofMembers_eq _ (by rw [kept]; omega), kept] at built
    exact ⟨members, built, several, rfl⟩
  · have more : 1 < (members ++ [noneType]).length := by simp; omega
    rw [unionMembers, ofMembers_eq _ (by rw [kept]; omega), kept] at built
    exact ⟨members ++ [noneType], built, more, by simp [isNoneType, noneType]⟩

/-- A choice stays a choice with the empty type beside it. -/
theorem describe_optional_choice (united : h.United) (choice : h.isChoice)
    (made : h.optional = .ok o) : o.describe = { element := o, cardinality := .single } := by
  cases h with
  | union spelling members =>
    obtain ⟨all, rfl, -, same⟩ := optional_union united made
    refine describe_choice ?_
    rw [isChoice, same]
    exact choice
  | _ => cases choice

theorem describe_optional_annotated (wrapped : h.isAnnotated) (made : h.optional = .ok o) :
    o.describe = { element := h, cardinality := .single, nullable := true } := by
  cases h with
  | annotated inner metadata =>
    rw [optional_single rfl (by rintro ⟨⟩) rfl made]
    rfl
  | _ => cases wrapped

/-- Beside a single type the empty alternative is seen, and adds nothing to one that is there. -/
theorem describe_optional_plain (type : h.argument = h) (present : h ≠ noneType) (united : h.United)
    (plain : ¬ h.isAnnotated) (single : ¬ h.isChoice) (made : h.optional = .ok o) :
    o.describe = { h.describe with nullable := true } := by
  cases h with
  | annotated inner metadata => exact absurd rfl plain
  | union spelling members =>
    obtain ⟨several, distinct, -⟩ := united spelling members rfl
    obtain ⟨member, only⟩ : ∃ member, members.filter (!·.isNoneType) = [member] := by
      refine List.length_eq_one_iff.mp (Nat.le_antisymm (by simpa [isChoice] using single) ?_)
      -- Of two distinct members one is not empty.
      match members, distinct with
      | x :: y :: rest, distinct =>
        have apart : ¬ x.same y := List.rel_of_pairwise_cons distinct List.mem_cons_self
        by_contra none
        have empty : ∀ z ∈ x :: y :: rest, z = noneType := by
          simpa [List.filter_eq_nil_iff, isNoneType_iff] using none
        rw [empty x List.mem_cons_self, empty y (by simp)] at apart
        exact apart (same_noneType.mpr rfl)
    obtain ⟨all, rfl, more, same⟩ := optional_union united made
    rw [describe_alternative more (same.trans only), describe_alternative several only]
  | _ =>
    rw [optional_single type present rfl made,
      describe_alternative (by simp) (single_member present)]
    rfl

theorem describe_annotate {a : Hint} {tags : List Hint} (type : h.argument = h)
    (untagged : ∀ x ∈ h.metadata, ¬ x.isTag) (made : h.annotate tags = .ok a) :
    a.isAnnotated ∧ a.describe = { h.describe with qualifier := qualifierFrom tags } := by
  unfold annotate at made
  split at made
  · cases made
  obtain ⟨t, argument, built⟩ := Outcome.bind_eq_ok.mp made
  cases type ▸ typeArgument_eq_ok argument
  split at built
  · cases built
    refine ⟨rfl, ?_⟩
    have tagged := qualifierFrom_append untagged tags
    rw [metadata] at tagged
    simp only [describe, peelMetadata, tagged]
  · cases built
  · cases built
  · cases built
    rename_i plain _ _
    refine ⟨rfl, ?_⟩
    cases h with
    | annotated inner metadata => exact absurd rfl (plain inner metadata)
    | _ => rfl

/-- What wrapping a type changes in what is asked for. Made optional, it asks for the same with
nothing allowed exactly if it is neither annotated nor a choice: an annotated type becomes an
element type with its annotation, whose qualifier is lost, and a choice becomes one that has the
empty type among its elements and is not optional. Annotated, a type asks for the same with the qualifier, and
an annotated type that is made optional loses it. -/
theorem describe_wrapped {h : Hint} (type : h.argument = h) (present : h ≠ noneType)
    (united : h.United) :
    (∀ o, h.optional = .ok o →
      (o.describe = { h.describe with nullable := true } ↔ ¬ h.isAnnotated ∧ ¬ h.isChoice) ∧
      (h.isAnnotated → o.describe = { element := h, cardinality := .single, nullable := true }) ∧
      (h.isChoice → o.describe = { element := o, cardinality := .single })) ∧
    ∀ tags a, (∀ x ∈ h.metadata, ¬ x.isTag) → h.annotate tags = .ok a →
      a.describe = { h.describe with qualifier := qualifierFrom tags } ∧
      ∀ o, a.optional = .ok o →
        o.describe = { element := a, cardinality := .single, nullable := true } := by
  refine ⟨fun o made => ⟨⟨fun same => ⟨fun wrapped => ?_, fun choice => ?_⟩, ?_⟩,
    fun wrapped => describe_optional_annotated wrapped made,
    fun choice => describe_optional_choice united choice made⟩, fun tags a untagged made => ?_⟩
  · rw [describe_optional_annotated wrapped made] at same
    exact element_ne wrapped (congrArg Description.element same).symm
  · rw [describe_optional_choice united choice made] at same
    cases congrArg Description.nullable same
  · rintro ⟨plain, single⟩
    exact describe_optional_plain type present united plain single made
  · obtain ⟨wrapped, described⟩ := describe_annotate type untagged made
    exact ⟨described, fun o again => describe_optional_annotated wrapped again⟩

end

end Wiring.Hint

/-! A clock asked for by its qualifier, and a clock or a lamp, whichever there is. Made optional,
the first request has lost its qualifier, and the second is not optional. -/
namespace Wiring.Clocks

def clock : Hint := .cls (.declared 0)

def lamp : Hint := .cls (.declared 1)

def oneOf (members : List Hint) : Hint := .union .typing members

def fast (h : Hint) : Hint := .annotated h [.text "fast"]

theorem clock_wrapped : clock.optional = .ok (oneOf [clock, .noneType]) ∧
    (oneOf [clock, .noneType]).describe = { clock.describe with nullable := true } ∧
    clock.annotate [.text "fast"] = .ok (fast clock) ∧
    (fast clock).describe = { clock.describe with qualifier := some (.text "fast") } := by
  obtain ⟨optional, annotated⟩ :=
    Hint.describe_wrapped (h := clock) rfl (by rintro ⟨⟩) (by rintro spelling members ⟨⟩)
  have made : clock.optional = .ok (oneOf [clock, .noneType]) := by cbv
  have tagged : clock.annotate [.text "fast"] = .ok (fast clock) := rfl
  have untagged : ∀ x ∈ clock.metadata, ¬ x.isTag := by rintro x ⟨⟩
  exact ⟨made, (optional _ made).1.mpr ⟨by decide, by decide⟩, tagged,
    (annotated _ _ untagged tagged).1⟩

theorem fast_lost : (fast clock).optional = .ok (oneOf [fast clock, .noneType]) ∧
    (fast clock).describe.qualifier = some (.text "fast") ∧
    (oneOf [fast clock, .noneType]).describe.qualifier = none ∧
    (oneOf [clock, lamp]).optional = .ok (oneOf [clock, lamp, .noneType]) ∧
    (oneOf [clock, lamp, .noneType]).describe.nullable = false := by
  have tagged : (fast clock).optional = .ok (oneOf [fast clock, .noneType]) := by cbv
  have chosen : (oneOf [clock, lamp]).optional = .ok (oneOf [clock, lamp, .noneType]) := by cbv
  exact ⟨tagged, rfl, rfl, chosen, rfl⟩

end Wiring.Clocks
