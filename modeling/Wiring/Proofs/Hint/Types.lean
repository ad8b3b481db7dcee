import Mathlib
import Wiring.Class.Application
import Wiring.Proofs.Hint.Unions

/-! Hints that are types wherever they stand: as arguments, among the members of a union and below
an annotation. Unions of types are equal just if their members are, one by one. -/
namespace Wiring.Hint

def Valid (h : Hint) : Prop := h.typeArgument = .ok h ∧ h ≠ .ellipsis

def Flat (h : Hint) : Prop := ∀ spelling members, h ≠ .union spelling members

def isLeaf : Hint → Bool
  | .list _ | .alias .. | .union .. | .annotated .. => false
  | _ => true

def Spelled (w : World) (origin : ClassRef) : Spelling → Prop
  | .plain => origin = .builtin .callable ∨ w.brackets? origin ≠ some .callable
  | .callable => w.brackets? origin = some .callable
  | .typing => ¬ isGenericForm origin

/-- Hints that are put together from types, with data that can be hashed and equals itself. -/
inductive Formed (w : World) : Hint → Prop
  | leaf {h : Hint} (leaf : h.isLeaf) (hashable : h.isHashable) (self : h.same h) :
      Formed w h
  | applied {spelling : Spelling} {origin : ClassRef} {args : List Hint}
      (spelled : Spelled w origin spelling) (each : ∀ a ∈ args, Formed w a) :
      Formed w (.alias spelling origin args)
  | union {spelling : UnionSpelling} {members : List Hint} (several : 1 < members.length)
      (distinct : Distinct members) (each : ∀ m ∈ members, Formed w m)
      (valid : ∀ m ∈ members, m.Valid ∧ m.Flat)
      (bars : spelling = .bar → ∀ m ∈ members, m.joinsByBar) :
      Formed w (.union spelling members)
  | annotated {inner : Hint} {metadata : List Hint} (type : Formed w inner) (valid : inner.Valid)
      (single : ¬ inner.isAnnotated) (some : metadata ≠ [])
      (data : ∀ x ∈ metadata, x.isHashable ∧ x.same x) : Formed w (.annotated inner metadata)

structure IsType (w : World) (h : Hint) : Prop where
  formed : Formed w h
  valid : h.Valid

def SameMembers (xs ys : List Hint) : Prop :=
  (∀ x ∈ xs, ∃ y ∈ ys, x.same y) ∧ ∀ y ∈ ys, ∃ x ∈ xs, x.same y

section
variable {w : World} {x y : Hint}

namespace Formed

theorem hashable (formed : Formed w x) : x.isHashable := by
  induction formed with
  | leaf _ hashable _ => exact hashable
  | applied _ _ ih => exact areHashable_iff.mpr ih
  | union _ _ _ _ _ ih => exact areHashable_iff.mpr ih
  | annotated _ _ _ _ data ih =>
    rw [isHashable, ih, Bool.true_and, areHashable_iff]
    exact fun x mem => (data x mem).1

theorem same_self (formed : Formed w x) : x.same x := by
  induction formed with
  | leaf _ _ self => exact self
  | @applied spelling origin args _ _ ih =>
    have spelled : spelling.comparable spelling := by cases spelling <;> rfl
    exact same_alias.mpr ⟨spelling, args, rfl, spelled, sameAll_self ih⟩
  | @union spelling members _ _ _ _ _ ih =>
    exact same_union.mpr ⟨spelling, members, rfl, fun m mem => ⟨m, mem, ih m mem⟩,
      fun m mem => ⟨m, mem, ih m mem⟩⟩
  | @annotated inner metadata _ _ _ _ data ih =>
    exact same_annotated.mpr
      ⟨inner, metadata, rfl, ih, sameAll_self fun x mem => (data x mem).2⟩

theorem symm (formed : Formed w x) (equal : x.same y) : y.same x := same_symm formed.hashable equal

theorem trans {z : Hint} (formed : Formed w x) (first : x.same y) (second : y.same z) : x.same z :=
  same_trans formed.hashable first second

end Formed

namespace SameMembers
variable {xs ys zs : List Hint}

theorem refl (formed : ∀ x ∈ xs, Formed w x) : SameMembers xs xs :=
  ⟨fun x mem => ⟨x, mem, (formed x mem).same_self⟩, fun x mem => ⟨x, mem, (formed x mem).same_self⟩⟩

theorem symm (formed : ∀ x ∈ xs, Formed w x) (equal : SameMembers xs ys) : SameMembers ys xs := by
  constructor
  · intro y mem
    obtain ⟨x, listed, equal⟩ := equal.2 y mem
    exact ⟨x, listed, (formed x listed).symm equal⟩
  · intro x mem
    obtain ⟨y, listed, equal⟩ := equal.1 x mem
    exact ⟨y, listed, (formed x mem).symm equal⟩

theorem trans (formed : ∀ x ∈ xs, Formed w x) (first : SameMembers xs ys)
    (second : SameMembers ys zs) : SameMembers xs zs := by
  constructor
  · intro x mem
    obtain ⟨y, listed, here⟩ := first.1 x mem
    obtain ⟨z, last, there⟩ := second.1 y listed
    exact ⟨z, last, (formed x mem).trans here there⟩
  · intro z mem
    obtain ⟨y, listed, there⟩ := second.2 z mem
    obtain ⟨x, first, here⟩ := first.2 y listed
    exact ⟨x, first, (formed x first).trans here there⟩

theorem flatMap {f g : Hint → List Hint} (equal : SameMembers xs ys)
    (each : ∀ x ∈ xs, ∀ y ∈ ys, x.same y → SameMembers (f x) (g y)) :
    SameMembers (xs.flatMap f) (ys.flatMap g) := by
  constructor
  · intro a mem
    obtain ⟨x, listed, inside⟩ := List.mem_flatMap.mp mem
    obtain ⟨y, listed', equal⟩ := equal.1 x listed
    obtain ⟨b, inside', same⟩ := (each x listed y listed' equal).1 a inside
    exact ⟨b, List.mem_flatMap.mpr ⟨y, listed', inside'⟩, same⟩
  · intro b mem
    obtain ⟨y, listed, inside⟩ := List.mem_flatMap.mp mem
    obtain ⟨x, listed', equal⟩ := equal.2 y listed
    obtain ⟨a, inside', same⟩ := (each x listed' y listed equal).2 b inside
    exact ⟨a, List.mem_flatMap.mpr ⟨x, listed', inside'⟩, same⟩

theorem flatMap_right {f g : Hint → List Hint} (each : ∀ x ∈ xs, SameMembers (f x) (g x)) :
    SameMembers (xs.flatMap f) (xs.flatMap g) := by
  constructor
  · intro a mem
    obtain ⟨x, listed, inside⟩ := List.mem_flatMap.mp mem
    obtain ⟨b, inside', same⟩ := (each x listed).1 a inside
    exact ⟨b, List.mem_flatMap.mpr ⟨x, listed, inside'⟩, same⟩
  · intro b mem
    obtain ⟨x, listed, inside⟩ := List.mem_flatMap.mp mem
    obtain ⟨a, inside', same⟩ := (each x listed).2 b inside
    exact ⟨a, List.mem_flatMap.mpr ⟨x, listed, inside'⟩, same⟩

theorem dedup (formed : ∀ x ∈ xs, Formed w x) : SameMembers (dedup xs) xs := by
  constructor
  · intro x kept
    have mem := mem_of_mem_dedup kept
    exact ⟨x, mem, (formed x mem).same_self⟩
  · intro x mem
    rcases exists_mem_dedup mem with kept | kept
    · exact ⟨x, kept, (formed x mem).same_self⟩
    · exact kept

end SameMembers

theorem flat_or_union (h : Hint) : h.Flat ∨ ∃ spelling members, h = .union spelling members := by
  cases h with
  | union spelling members => exact .inr ⟨spelling, members, rfl⟩
  | _ => exact .inl (by rintro _ _ ⟨⟩)

theorem unionMembers_of_flat (flat : x.Flat) : x.unionMembers = [x] := by
  cases x with
  | union spelling members => exact absurd rfl (flat spelling members)
  | _ => rfl

theorem unionMembers_ofMembers {spelling : UnionSpelling} {xs : List Hint}
    (flat : ∀ x ∈ xs, x.Flat) : (ofMembers spelling xs).unionMembers = dedup xs := by
  unfold ofMembers
  split
  · rename_i h only
    rw [only]
    exact unionMembers_of_flat (flat h (mem_of_mem_dedup (only ▸ List.mem_singleton_self h)))
  · rfl

theorem Formed.members (formed : Formed w x) : ∀ m ∈ x.unionMembers, Formed w m ∧ m.Flat := by
  rcases x.flat_or_union with flat | ⟨spelling, members, rfl⟩
  · rw [unionMembers_of_flat flat]
    exact List.forall_mem_singleton.mpr ⟨formed, flat⟩
  · cases formed with
    | leaf leaf _ _ => cases leaf
    | union _ _ each valid _ => exact fun m mem => ⟨each m mem, (valid m mem).2⟩

theorem Formed.member (formed : Formed w x) : ∀ m ∈ x.unionMembers, Formed w m :=
  fun m mem => (formed.members m mem).1

theorem IsType.members (type : IsType w x) : ∀ m ∈ x.unionMembers, IsType w m ∧ m.Flat := by
  obtain ⟨formed, valid⟩ := type
  rcases x.flat_or_union with flat | ⟨spelling, members, rfl⟩
  · rw [unionMembers_of_flat flat]
    exact List.forall_mem_singleton.mpr ⟨⟨formed, valid⟩, flat⟩
  · cases formed with
    | leaf leaf _ _ => cases leaf
    | union _ _ each valid _ => exact fun m mem => ⟨⟨each m mem, (valid m mem).1⟩, (valid m mem).2⟩

theorem isType_ofMembers {spelling : UnionSpelling} {xs : List Hint} (some : xs ≠ [])
    (types : ∀ x ∈ xs, IsType w x ∧ x.Flat) (bars : spelling = .bar → ∀ x ∈ xs, x.joinsByBar) :
    IsType w (ofMembers spelling xs) := by
  unfold ofMembers
  split
  · rename_i h only
    exact (types h (mem_of_mem_dedup (only ▸ List.mem_singleton_self h))).1
  · rename_i several
    have nonempty : dedup xs ≠ [] := by
      intro none
      obtain ⟨x, mem⟩ := List.exists_mem_of_ne_nil _ some
      rcases exists_mem_dedup mem with kept | ⟨_, kept, -⟩ <;> rw [none] at kept <;> contradiction
    have several : 1 < (dedup xs).length := by
      match found : dedup xs with
      | [] => exact absurd found nonempty
      | [h] => exact absurd found (several h)
      | _ :: _ :: _ => simp
    have old {x : Hint} (mem : x ∈ dedup xs) := types x (mem_of_mem_dedup mem)
    exact ⟨.union several (distinct_dedup xs) (fun x mem => (old mem).1.formed)
      (fun x mem => ⟨(old mem).1.valid, (old mem).2⟩)
      (fun bar x mem => bars bar x (mem_of_mem_dedup mem)), rfl, by rintro ⟨⟩⟩

theorem not_sameMembers_singleton {spelling : UnionSpelling} {members : List Hint}
    (formed : Formed w (.union spelling members)) : ¬ ∀ m ∈ members, m.same y := by
  intro all
  cases formed with
  | leaf leaf _ _ => cases leaf
  | union several distinct each _ _ =>
    match members, several, distinct with
    | a :: b :: rest, _, distinct =>
      have first : a ∈ a :: b :: rest := List.mem_cons_self
      have second : b ∈ a :: b :: rest := List.mem_cons_of_mem _ List.mem_cons_self
      refine List.rel_of_pairwise_cons distinct List.mem_cons_self ?_
      exact (each a first).trans (all a first) ((each b second).symm (all b second))

/-- Types are equal just if they have the same members. -/
theorem same_iff_members (left : Formed w x) (right : Formed w y) :
    x.same y ↔ SameMembers x.unionMembers y.unionMembers := by
  -- A union has two members that differ, so no single hint is equal to all of them.
  rcases x.flat_or_union with flat | ⟨spelling, members, rfl⟩ <;>
    rcases y.flat_or_union with flat' | ⟨spelling', members', rfl⟩
  · rw [unionMembers_of_flat flat, unionMembers_of_flat flat']
    simp [SameMembers]
  · rw [unionMembers_of_flat flat]
    constructor
    · intro equal
      cases x <;> simp [same] at equal
      exact absurd rfl (flat _ _)
    · rintro ⟨-, all⟩
      refine (not_sameMembers_singleton (y := x) right fun m mem => ?_).elim
      obtain ⟨x', only, equal⟩ := all m mem
      cases List.mem_singleton.mp only
      exact left.symm equal
  · rw [unionMembers_of_flat flat']
    constructor
    · intro equal
      obtain ⟨_, _, rfl, -⟩ := same_union.mp equal
      exact absurd rfl (flat' _ _)
    · rintro ⟨all, -⟩
      refine (not_sameMembers_singleton (y := y) left fun m mem => ?_).elim
      obtain ⟨y', only, equal⟩ := all m mem
      cases List.mem_singleton.mp only
      exact equal
  · simp [same_union, unionMembers, SameMembers]

end

end Wiring.Hint
