import Mathlib
import Wiring.Proofs.Hint.Types
import Wiring.Proofs.Hint.Variables

/-! Replacing the variables of types by types. It always succeeds, with a type, and what it makes of
a hint is a function of the hint and of what the variables stand for. Equal types stay equal, and
replacing variables twice is replacing them once. -/
namespace Wiring

def Bindings.Typed (w : World) (σ : Bindings) : Prop :=
  ∀ id name bound, Hint.IsType w (σ.get (.var id name bound))

namespace Hint

def annotatedWith (metadata : List Hint) : Hint → Hint
  | .annotated inner own => .annotated inner (own ++ metadata)
  | h => .annotated h metadata

def originFilled (spelling : Spelling) (origin : ClassRef) (args : List Hint) : ClassRef :=
  if spelling = .callable ∧ ∃ a ∈ args, a.isOpen then .builtin .callable else origin

mutual

/-- The hint with its variables replaced, all at once. Unions and annotations that meet on the way
are put together. -/
def put (σ : Bindings) : Hint → Hint
  | .var id name bound => σ.get (.var id name bound)
  | .alias spelling origin args =>
    .alias spelling (originFilled spelling origin args) (putAll σ args)
  | .union spelling members => ofMembers spelling ((putAll σ members).flatMap unionMembers)
  | .annotated inner metadata => (put σ inner).annotatedWith metadata
  | h => h

def putAll (σ : Bindings) : List Hint → List Hint
  | [] => []
  | h :: hs => put σ h :: putAll σ hs

end

section
variable {w : World} {σ τ ρ : Bindings} {h x y : Hint}

theorem putAll_eq (σ : Bindings) (hs : List Hint) : putAll σ hs = hs.map (put σ) := by
  induction hs with
  | nil => rfl
  | cons h hs ih => rw [putAll, ih, List.map_cons]

theorem put_leaf (leaf : h.isLeaf) (bound : ¬ h.isVar) : put σ h = h := by
  cases h <;> first | exact absurd rfl bound | rfl | cases leaf

theorem put_union (σ : Bindings) (spelling : UnionSpelling) (members : List Hint) :
    put σ (.union spelling members) =
      ofMembers spelling (members.flatMap fun m => (put σ m).unionMembers) := by
  rw [put, putAll_eq, List.flatMap_map]

theorem spelled_originFilled {spelling : Spelling} {origin : ClassRef} (args : List Hint)
    (spelled : Spelled w origin spelling) :
    Spelled w (originFilled spelling origin args) spelling := by
  unfold originFilled
  split
  · rename_i callable
    rw [callable.1]
    rfl
  · exact spelled

theorem valid_alias {spelling : Spelling} {origin : ClassRef} {args : List Hint}
    (spelled : Spelled w origin spelling) : («alias» spelling origin args).Valid := by
  refine ⟨?_, by rintro ⟨⟩⟩
  cases spelling with
  | typing =>
    have noForm : ¬ isGenericForm origin := spelled
    simp [typeArgument, noForm]
  | _ => rfl

theorem joinsByBar_put (flat : h.Flat) (joins : h.joinsByBar) :
    (put σ h).joinsByBar ∧ (put σ h).Flat := by
  cases h with
  | «alias» spelling origin args =>
    cases spelling with
    | typing => cases joins
    | _ => exact ⟨rfl, by rintro _ _ ⟨⟩⟩
  | union spelling members => exact absurd rfl (flat spelling members)
  | cls k => exact ⟨rfl, by rintro _ _ ⟨⟩⟩
  | none => exact ⟨rfl, by rintro _ _ ⟨⟩⟩
  | _ => cases joins

theorem isType_annotatedWith {metadata : List Hint} (type : IsType w h) (some : metadata ≠ [])
    (data : ∀ x ∈ metadata, x.isHashable ∧ x.same x) : IsType w (h.annotatedWith metadata) := by
  obtain ⟨formed, valid⟩ := type
  refine ⟨?_, ?_⟩
  · unfold annotatedWith
    split
    · cases formed with
      | leaf leaf _ _ => cases leaf
      | annotated inside valid' single _ own =>
        refine .annotated inside valid' single (by simp [some]) fun x mem => ?_
        exact (List.mem_append.mp mem).elim (own x) (data x)
    · rename_i plain
      refine .annotated formed valid (fun wrapped => ?_) some data
      unfold isAnnotated at wrapped
      split at wrapped
      · exact plain _ _ rfl
      · cases wrapped
  · unfold annotatedWith
    split <;> exact ⟨rfl, by rintro ⟨⟩⟩

theorem unionMembers_ne_nil (formed : Formed w h) : h.unionMembers ≠ [] := by
  rcases h.flat_or_union with flat | ⟨spelling, members, rfl⟩
  · rw [unionMembers_of_flat flat]
    exact List.cons_ne_nil _ _
  · cases formed with
    | leaf leaf _ _ => cases leaf
    | union several _ _ _ _ =>
      exact List.ne_nil_of_length_pos (Nat.lt_trans Nat.zero_lt_one several)

theorem Formed.put (typed : σ.Typed w) (formed : Formed w h) :
    Formed w (h.put σ) ∧ (h.Valid → (h.put σ).Valid) := by
  induction formed with
  | @leaf h leaf hashable self =>
    by_cases isVar : h.isVar
    · obtain ⟨id, name, bound, rfl⟩ := exists_of_isVar isVar
      exact ⟨(typed id name bound).formed, fun _ => (typed id name bound).valid⟩
    · rw [put_leaf leaf isVar]
      exact ⟨.leaf leaf hashable self, id⟩
  | @applied spelling origin args spelled each ih =>
    have spelled' := spelled_originFilled args spelled
    rw [Hint.put, putAll_eq]
    refine ⟨.applied spelled' fun a mem => ?_, fun _ => valid_alias spelled'⟩
    obtain ⟨a', listed, rfl⟩ := List.mem_map.mp mem
    exact (ih a' listed).1
  | @union spelling members several distinct each valid bars ih =>
    have type (m : Hint) (mem : m ∈ members) : IsType w (m.put σ) :=
      ⟨(ih m mem).1, (ih m mem).2 (valid m mem).1⟩
    -- A variable among the members may become a union, whose members then stand for themselves.
    have built : IsType w ((Hint.union spelling members).put σ) := by
      rw [put_union]
      refine isType_ofMembers ?_ (fun x mem => ?_) fun bar x mem => ?_
      · match members, several with
        | m :: rest, _ =>
          rw [List.flatMap_cons]
          exact List.append_ne_nil_of_left_ne_nil
            (unionMembers_ne_nil (type m List.mem_cons_self).formed) _
      · obtain ⟨m, listed, inside⟩ := List.mem_flatMap.mp mem
        exact (type m listed).members x inside
      · obtain ⟨m, listed, inside⟩ := List.mem_flatMap.mp mem
        obtain ⟨joins, flat⟩ := joinsByBar_put (σ := σ) (valid m listed).2 (bars bar m listed)
        rw [unionMembers_of_flat flat] at inside
        cases List.mem_singleton.mp inside
        exact joins
    exact ⟨built.formed, fun _ => built.valid⟩
  | @annotated inner metadata type valid single some data ih =>
    have built := isType_annotatedWith ⟨ih.1, ih.2 valid⟩ some data
    rw [Hint.put]
    exact ⟨built.formed, fun _ => built.valid⟩

theorem IsType.put (typed : σ.Typed w) (type : IsType w h) : IsType w (h.put σ) :=
  ⟨(type.formed.put typed).1, (type.formed.put typed).2 type.valid⟩

theorem not_isOpen_of_leaf (leaf : h.isLeaf) (bound : ¬ h.isVar) : ¬ h.isOpen := by
  cases h <;> first | exact absurd rfl bound | rintro ⟨⟩ | cases leaf

theorem put_of_not_isOpen (formed : Formed w h) (closed : ¬ h.isOpen) : put σ h = h := by
  induction formed with
  | @leaf h leaf _ _ =>
    refine put_leaf leaf fun isVar => closed ?_
    simp [isOpen, isVar]
  | @applied spelling origin args _ _ ih =>
    have each : ∀ a ∈ args, ¬ a.isOpen := fun a mem free => closed (isOpen_alias.mpr ⟨a, mem, free⟩)
    have kept : args.map (put σ) = args :=
      (List.map_congr_left fun a mem => ih a mem (each a mem)).trans (List.map_id _)
    have plain : ¬ (spelling = .callable ∧ ∃ a ∈ args, a.isOpen) := by
      rintro ⟨-, a, mem, free⟩
      exact each a mem free
    rw [put, putAll_eq, kept, originFilled, if_neg plain]
  | @union spelling members several distinct _ valid _ ih =>
    have each : ∀ m ∈ members, ¬ m.isOpen :=
      fun m mem free => closed (isOpen_union.mpr ⟨m, mem, free⟩)
    have kept : members.flatMap (fun m => (put σ m).unionMembers) = members := by
      refine (List.flatMap_congr fun m mem => ?_).trans (List.flatMap_singleton' members)
      rw [ih m mem (each m mem), unionMembers_of_flat (valid m mem).2]
    have whole := dedup_eq_self distinct
    rw [put_union, kept, ofMembers_eq _ (by rw [whole]; omega), whole]
  | @annotated inner metadata _ _ single _ _ ih =>
    rw [put, ih (fun isOpen => closed (isOpen_annotated.mpr isOpen))]
    cases inner with
    | annotated inner own => exact absurd rfl single
    | _ => rfl

theorem argument_of_valid (valid : h.Valid) : h.argument = h :=
  (typeArgument_eq_ok valid.1).symm

theorem barAll_eq {hs : List Hint} (some : hs ≠ [])
    (each : ∀ h ∈ hs, h.Valid ∧ h.Flat ∧ h.joinsByBar) : barAll hs = .ok (ofMembers .bar hs) := by
  induction hs using List.reverseRecOn with
  | nil => exact absurd rfl some
  | append_singleton hs h ih =>
    obtain ⟨before, last⟩ := List.forall_mem_append.mp each
    obtain ⟨valid, flat, joins⟩ := last h (List.mem_singleton_self h)
    by_cases first : hs = []
    · rw [first]
      rfl
    have joined : barAll (hs ++ [h]) = (do (← barAll hs).bar h) := by
      cases hs with
      | nil => exact absurd rfl first
      | cons h' hs => simp [barAll, List.foldlM_append]
    have joins' : (ofMembers .bar hs).joinsByBar := by
      unfold ofMembers
      split
      · rename_i h' only
        exact (before h' (mem_of_mem_dedup (only ▸ List.mem_singleton_self h'))).2.2
      · rfl
    have whole : (ofMembers .bar hs).argument = ofMembers .bar hs := by
      unfold ofMembers
      split
      · rename_i h' only
        exact argument_of_valid
          (before h' (mem_of_mem_dedup (only ▸ List.mem_singleton_self h'))).1
      · rfl
    have noNone : h.isNone = false := by
      cases h <;> first | rfl | exact absurd (argument_of_valid valid) (by rintro ⟨⟩)
    -- Duplicates are removed each time a hint is joined, but those before it are gone already.
    have once : dedup (dedup hs ++ [h]) = dedup (hs ++ [h]) := by
      rw [dedup_concat, dedup_concat, dedup_eq_self (distinct_dedup hs)]
    rw [joined, ih first before]
    change (ofMembers .bar hs).bar h = _
    rw [bar, if_pos (by rw [joins', joins]; rfl), noNone, Bool.and_false]
    simp only [Bool.false_eq_true, if_false, List.map_cons, List.map_nil, whole,
      argument_of_valid valid, List.flatMap_cons, List.flatMap_nil, List.append_nil,
      unionMembers_of_flat flat, unionMembers_ofMembers fun x mem => (before x mem).2.1]
    rw [ofMembers, once]
    rfl

theorem fillAll_eq {hs : List Hint} (each : ∀ h ∈ hs, Formed w h)
    (filled : ∀ h ∈ hs, h.isOpen → fill σ h = .ok (put σ h)) :
    fillAll σ hs = .ok (hs.map (put σ)) := by
  induction hs with
  | nil => rfl
  | cons h hs ih =>
    have rest := ih (fun h' mem => each h' (List.mem_cons_of_mem _ mem))
      fun h' mem => filled h' (List.mem_cons_of_mem _ mem)
    by_cases isOpen : h.isOpen
    · rw [fillAll, if_pos isOpen, filled h List.mem_cons_self isOpen, rest]
      rfl
    · rw [fillAll, if_neg isOpen, rest, List.map_cons,
        put_of_not_isOpen (each h List.mem_cons_self) isOpen]
      rfl

theorem annotate_eq {metadata : List Hint} (type : IsType w h) (some : metadata ≠ []) :
    annotate h metadata = .ok (h.annotatedWith metadata) := by
  have given : metadata.isEmpty = false := by simpa using some
  obtain ⟨formed, valid, noEllipsis⟩ := type
  cases h with
  | list items => cases formed.hashable
  | ellipsis => exact absurd rfl noEllipsis
  | _ =>
    simp only [annotate, given, Bool.false_eq_true, if_false, valid]
    rfl

theorem fill_eq (typed : σ.Typed w) (formed : Formed w h) (isOpen : h.isOpen) :
    fill σ h = .ok (put σ h) := by
  induction formed with
  | @leaf h leaf _ _ =>
    by_cases isVar : h.isVar
    · obtain ⟨id, name, bound, rfl⟩ := exists_of_isVar isVar
      exact (typed id name bound).valid.1
    · exact absurd isOpen (not_isOpen_of_leaf leaf isVar)
  | @applied spelling origin args spelled each ih =>
    have filled : fillAll σ args = .ok (args.map (put σ)) := fillAll_eq each ih
    have free := isOpen_alias.mp isOpen
    rw [fill, filled, put, putAll_eq]
    change withArguments spelling origin (args.map (put σ)) = _
    unfold withArguments originFilled
    split
    · rename_i params rest listed
      -- No argument is a parameter list.
      have mem : list params ∈ args.map (put σ) := listed ▸ List.mem_cons_self
      obtain ⟨a, given, same⟩ := List.mem_map.mp mem
      have hashable := ((each a given).put typed).1.hashable
      rw [same] at hashable
      cases hashable
    · simp [free]
    · have noForm : ¬ isGenericForm origin := spelled
      simp [noForm]
    · simp
  | @union spelling members several distinct each valid bars ih =>
    have filled : fillAll σ members = .ok (members.map (put σ)) := fillAll_eq each ih
    have type (m : Hint) (mem : m ∈ members.map (put σ)) : IsType w m := by
      obtain ⟨m', listed, rfl⟩ := List.mem_map.mp mem
      exact IsType.put typed ⟨each m' listed, (valid m' listed).1⟩
    have some : members.map (put σ) ≠ [] := by
      rw [ne_eq, List.map_eq_nil_iff]
      exact List.ne_nil_of_length_pos (Nat.lt_trans Nat.zero_lt_one several)
    cases spelling with
    | typing =>
      rw [fill, filled, put, putAll_eq]
      refine unionOf_eq_ok.mpr ⟨some, members.map (put σ), ?_, ?_, rfl⟩
      · exact List.forall₂_same.mpr fun m mem => (type m mem).valid.1
      · refine areHashable_iff.mpr fun x mem => ?_
        obtain ⟨m, listed, inside⟩ := List.mem_flatMap.mp mem
        exact ((type m listed).members x inside).1.formed.hashable
    | bar =>
      have joined (m : Hint) (mem : m ∈ members.map (put σ)) : m.Flat ∧ m.joinsByBar := by
        obtain ⟨m', listed, rfl⟩ := List.mem_map.mp mem
        exact (joinsByBar_put (valid m' listed).2 (bars rfl m' listed)).symm
      have flat : (members.map (put σ)).flatMap unionMembers = members.map (put σ) :=
        (List.flatMap_congr fun m mem => unionMembers_of_flat (joined m mem).1).trans
          (List.flatMap_singleton' _)
      rw [fill, filled, put, putAll_eq, flat]
      exact barAll_eq some fun m mem => ⟨(type m mem).valid, joined m mem⟩
  | @annotated inner metadata type valid single some data ih =>
    have filled := ih (isOpen_annotated.mp isOpen)
    have type : IsType w (put σ inner) := IsType.put typed ⟨type, valid⟩
    rw [fill, filled, put]
    exact annotate_eq type some

def replaced (σ : Bindings) (h : Hint) : Hint := if σ.isEmpty then h else put σ h

theorem replaced_of_ne_nil (some : σ ≠ []) : replaced σ = put σ :=
  funext fun _ => if_neg (by simpa using some)

theorem replaced_of_not_isOpen (formed : Formed w h) (closed : ¬ h.isOpen) : replaced σ h = h := by
  unfold replaced
  split
  · rfl
  · exact put_of_not_isOpen formed closed

theorem substitute_eq (typed : σ.Typed w) (type : IsType w h) :
    substitute σ h = .ok (replaced σ h) := by
  by_cases isVar : h.isVar
  · obtain ⟨id, name, bound, rfl⟩ := exists_of_isVar isVar
    rw [substitute, replaced]
    split
    · rename_i empty
      rw [List.isEmpty_iff.mp empty]
      rfl
    · rfl
  have noList : ∀ items, h ≠ .list items := by
    rintro items rfl
    cases type.formed.hashable
  have step : substitute σ h = if σ.isEmpty || h.parameters.isEmpty then .ok h else h.fill σ := by
    cases h <;> first | rfl | exact absurd rfl isVar | exact absurd rfl (noList _)
  rw [step, replaced]
  by_cases empty : σ.isEmpty
  · simp [empty]
  by_cases isOpen : h.isOpen
  · have free : h.parameters.isEmpty = false := by simpa [Hint.isOpen, isVar] using isOpen
    simp [empty, free, fill_eq typed type.formed isOpen]
  · have closed : h.parameters.isEmpty = true := by simpa [Hint.isOpen, isVar] using isOpen
    simp [empty, closed, put_of_not_isOpen type.formed isOpen]

theorem substituteAll_eq {hs : List Hint} (typed : σ.Typed w) (types : ∀ h ∈ hs, IsType w h) :
    substituteAll σ hs = .ok (hs.map (replaced σ)) := by
  induction hs with
  | nil => rfl
  | cons h hs ih =>
    obtain ⟨here, rest⟩ := List.forall_mem_cons.mp types
    rw [substituteAll, substitute_eq typed here, ih rest]
    rfl

theorem isType_replaced (typed : σ.Typed w) (type : IsType w h) : IsType w (replaced σ h) := by
  unfold replaced
  split
  · exact type
  · exact type.put typed

theorem isOpen_of_same (formed : Formed w x) (equal : x.same y) (isOpen : x.isOpen) : y.isOpen := by
  induction formed generalizing y with
  | @leaf x leaf _ _ =>
    by_cases isVar : x.isVar
    · obtain ⟨id, name, bound, rfl⟩ := exists_of_isVar isVar
      obtain ⟨_, _, rfl⟩ := same_var.mp equal
      rfl
    · exact absurd isOpen (not_isOpen_of_leaf leaf isVar)
  | applied _ _ ih =>
    obtain ⟨_, args', rfl, -, all⟩ := same_alias.mp equal
    obtain ⟨a, mem, free⟩ := isOpen_alias.mp isOpen
    obtain ⟨b, listed, equal⟩ := exists_right_of_mem (sameAll_iff.mp all) mem
    exact isOpen_alias.mpr ⟨b, listed, ih a mem equal free⟩
  | union _ _ _ _ _ ih =>
    obtain ⟨_, members', rfl, forth, -⟩ := same_union.mp equal
    obtain ⟨m, mem, free⟩ := isOpen_union.mp isOpen
    obtain ⟨m', listed, equal⟩ := forth m mem
    exact isOpen_union.mpr ⟨m', listed, ih m mem equal free⟩
  | annotated _ _ _ _ _ ih =>
    obtain ⟨_, _, rfl, inside, -⟩ := same_annotated.mp equal
    exact isOpen_annotated.mpr (ih inside (isOpen_annotated.mp isOpen))

theorem Formed.flatMap_put (typed : σ.Typed w) {hs : List Hint} (each : ∀ h ∈ hs, Formed w h) :
    ∀ x ∈ hs.flatMap fun m => (Hint.put σ m).unionMembers, Formed w x ∧ x.Flat := by
  intro x mem
  obtain ⟨m, listed, inside⟩ := List.mem_flatMap.mp mem
  exact ((each m listed).put typed).1.members x inside

theorem sameMembers_put (typed : σ.Typed w) (formed : Formed w h) : SameMembers
    (put σ h).unionMembers (h.unionMembers.flatMap fun m => (put σ m).unionMembers) := by
  rcases h.flat_or_union with flat | ⟨spelling, members, rfl⟩
  · rw [unionMembers_of_flat flat, List.flatMap_singleton]
    exact SameMembers.refl (formed.put typed).1.member
  · have each : ∀ m ∈ members, Formed w m := formed.member
    have inside := Formed.flatMap_put typed each
    rw [put_union, unionMembers_ofMembers fun x mem => (inside x mem).2]
    exact SameMembers.dedup fun x mem => (inside x mem).1

theorem get_same (typed : σ.Typed w) {id : Nat} {name name' : String} {bound bound' : Option Hint} :
    (σ.get (.var id name bound)).same (σ.get (.var id name' bound')) := by
  cases found : σ.lookup id with
  | none =>
    simp only [Bindings.get, found, Option.getD_none]
    exact same_var.mpr ⟨_, _, rfl⟩
  | some t =>
    have self := (typed id name bound).formed.same_self
    simpa only [Bindings.get, found, Option.getD_some] using self

theorem leaf_of_same (leaf : x.isLeaf) (bound : ¬ x.isVar) (equal : x.same y) :
    y.isLeaf ∧ ¬ y.isVar := by
  cases x <;> cases y <;> simp_all [same, isLeaf, isVar]

theorem same_annotatedWith {metadata metadata' : List Hint} (equal : x.same y)
    (data : sameAll metadata metadata') :
    (x.annotatedWith metadata).same (y.annotatedWith metadata') := by
  by_cases wrapped : ∃ inner own, x = .annotated inner own
  · obtain ⟨inner, own, rfl⟩ := wrapped
    obtain ⟨inner', own', rfl, inside, all⟩ := same_annotated.mp equal
    refine same_annotated.mpr ⟨inner', _, rfl, inside, ?_⟩
    rw [sameAll_iff] at all data ⊢
    exact List.rel_append all data
  · have plain : ∀ inner own, y ≠ .annotated inner own := by
      rintro inner own rfl
      cases x <;> simp [same] at equal
      exact wrapped ⟨_, _, rfl⟩
    have left : x.annotatedWith metadata = .annotated x metadata := by
      cases x <;> first | rfl | exact absurd ⟨_, _, rfl⟩ wrapped
    have right : y.annotatedWith metadata' = .annotated y metadata' := by
      cases y <;> first | rfl | exact absurd rfl (plain _ _)
    rw [left, right]
    exact same_annotated.mpr ⟨_, _, rfl, equal, data⟩

theorem originFilled_of_same {s t : Spelling} {k : ClassRef} {xs ys : List Hint}
    (spelled : Spelled w k s) (spelled' : Spelled w k t) (comparable : s.comparable t)
    (isOpen : (∃ a ∈ xs, a.isOpen) ↔ ∃ a ∈ ys, a.isOpen) :
    originFilled s k xs = originFilled t k ys := by
  simp only [originFilled, isOpen]
  cases s <;> cases t <;> simp_all [Spelling.comparable, Spelled]

/-- Types are equal after variables are replaced, if that holds of their members. -/
theorem same_put_of_members (typed : σ.Typed w) (typed' : ρ.Typed w) (left : Formed w x)
    (right : Formed w y) (equal : SameMembers x.unionMembers y.unionMembers)
    (each : ∀ m ∈ x.unionMembers, ∀ m' ∈ y.unionMembers, m.same m' → (put σ m).same (put ρ m')) :
    (put σ x).same (put ρ y) := by
  have new := (left.put typed).1
  have new' := (right.put typed').1
  have inside := equal.flatMap fun m mem m' mem' same =>
    (same_iff_members ((left.member m mem).put typed).1 ((right.member m' mem').put typed').1).mp
      (each m mem m' mem' same)
  have first := (sameMembers_put typed left).trans new.member inside
  exact (same_iff_members new new').mpr
    (first.trans new.member ((sameMembers_put typed' right).symm new'.member))

/-- Equal types stay equal, if their variables are replaced by equal types. -/
theorem same_put (typed : σ.Typed w) (typed' : ρ.Typed w) (left : Formed w x) (right : Formed w y)
    (agree : ∀ v, Occurs v x → (σ.get v).same (ρ.get v)) (equal : x.same y) :
    (put σ x).same (put ρ y) := by
  induction left generalizing y with
  | @leaf x leaf hashable self =>
    by_cases isVar : x.isVar
    · obtain ⟨id, name, bound, rfl⟩ := exists_of_isVar isVar
      obtain ⟨name', bound', rfl⟩ := same_var.mp equal
      exact (typed id name bound).formed.trans (agree _ (.self rfl)) (get_same typed')
    · obtain ⟨leaf', isVar'⟩ := leaf_of_same leaf isVar equal
      rw [put_leaf leaf isVar, put_leaf leaf' isVar']
      exact equal
  | @applied spelling origin args spelled each ih =>
    have left : Formed w («alias» spelling origin args) := .applied spelled each
    obtain ⟨spelling', args', rfl, comparable, all⟩ := same_alias.mp equal
    cases right with
    | leaf leaf _ _ => cases leaf
    | applied spelled' each' =>
      have isOpen : (∃ a ∈ args, a.isOpen) ↔ ∃ a ∈ args', a.isOpen := by
        constructor
        · exact fun free => isOpen_alias.mp (isOpen_of_same left equal (isOpen_alias.mpr free))
        · exact fun free => isOpen_alias.mp
            (isOpen_of_same (.applied spelled' each') (left.symm equal) (isOpen_alias.mpr free))
      rw [put, put, putAll_eq, putAll_eq, originFilled_of_same spelled spelled' comparable isOpen]
      refine same_alias.mpr ⟨spelling', args'.map (put ρ), rfl, comparable, ?_⟩
      rw [sameAll_iff, List.forall₂_map_left_iff, List.forall₂_map_right_iff]
      rw [sameAll_iff, List.forall₂_iff_zip] at all
      refine List.forall₂_iff_zip.mpr ⟨all.1, fun {a b} place => ?_⟩
      obtain ⟨mem, mem'⟩ := List.of_mem_zip place
      exact ih a mem (each' b mem') (fun v inside => agree v (.argument mem inside))
        (all.2 place)
  | @union spelling members several distinct each valid bars ih =>
    have left : Formed w (union spelling members) := .union several distinct each valid bars
    obtain ⟨spelling', members', rfl, both⟩ := same_union.mp equal
    refine same_put_of_members typed typed' left right both fun m mem m' mem' equal => ?_
    exact ih m mem (right.members m' mem').1 (fun v inside => agree v (.member mem inside)) equal
  | @annotated inner metadata type valid single some data ih =>
    obtain ⟨inner', metadata', rfl, inside, all⟩ := same_annotated.mp equal
    cases right with
    | leaf leaf _ _ => cases leaf
    | annotated type' _ _ _ _ =>
      rw [put, put]
      exact same_annotatedWith (ih type' (fun v free => agree v (.inner free)) inside) all

theorem same_put_same (typed : σ.Typed w) (left : Formed w x) (right : Formed w y)
    (equal : x.same y) : (put σ x).same (put σ y) := by
  refine same_put typed typed left right (fun v occurs => ?_) equal
  obtain ⟨id, name, bound, rfl⟩ := exists_of_isVar occurs.isVar
  exact get_same typed

theorem annotatedWith_append (own metadata : List Hint) (h : Hint) :
    (h.annotatedWith own).annotatedWith metadata = h.annotatedWith (own ++ metadata) := by
  cases h <;> simp [annotatedWith]

theorem put_annotatedWith (metadata : List Hint) (h : Hint) :
    put σ (h.annotatedWith metadata) = (put σ h).annotatedWith metadata := by
  cases h with
  | annotated inner own => rw [annotatedWith, put, put, annotatedWith_append]
  | _ => rfl

theorem originFilled_twice {spelling : Spelling} {origin : ClassRef} {args : List Hint}
    (each : ∀ a ∈ args, Formed w a) :
    originFilled spelling (originFilled spelling origin args) (args.map (put τ)) =
      originFilled spelling origin args := by
  by_cases filled : spelling = .callable ∧ ∃ a ∈ args, a.isOpen
  · have first : originFilled spelling origin args = .builtin .callable := if_pos filled
    rw [first, originFilled, ite_self]
  · have first : originFilled spelling origin args = origin := if_neg filled
    rw [first, originFilled, if_neg]
    rintro ⟨callable, _, mem, free⟩
    obtain ⟨a, listed, rfl⟩ := List.mem_map.mp mem
    have closed : ¬ a.isOpen := fun free => filled ⟨callable, a, listed, free⟩
    rw [put_of_not_isOpen (each a listed) closed] at free
    exact closed free

theorem sameMembers_put_put (typed : σ.Typed w) (typed' : τ.Typed w) (formed : Formed w h) :
    SameMembers (put σ (put τ h)).unionMembers
      (h.unionMembers.flatMap fun m => (put σ (put τ m)).unionMembers) := by
  have once := (formed.put typed').1
  have twice := (once.put typed).1
  have between : ∀ x ∈ h.unionMembers.flatMap fun m => (put τ m).unionMembers, Formed w x :=
    fun x mem => (Formed.flatMap_put typed' formed.member x mem).1
  have outer := (sameMembers_put typed once).trans twice.member
    ((sameMembers_put typed' formed).flatMap fun a mem b mem' equal =>
      (same_iff_members ((once.member a mem).put typed).1 ((between b mem').put typed).1).mp
        (same_put_same typed (once.member a mem) (between b mem') equal))
  rw [List.flatMap_assoc] at outer
  refine outer.trans twice.member (SameMembers.flatMap_right fun m mem => ?_)
  have member := ((formed.member m mem).put typed').1
  exact (sameMembers_put typed member).symm (member.put typed).1.member

/-- Replacing variables twice is replacing them once. -/
theorem same_put_put (typed : σ.Typed w) (typed' : τ.Typed w) (typed'' : ρ.Typed w)
    (formed : Formed w h)
    (agree : ∀ v, Occurs v h → (ρ.get v).same (put σ (τ.get v))) :
    (put ρ h).same (put σ (put τ h)) := by
  induction formed with
  | @leaf h leaf hashable self =>
    by_cases isVar : h.isVar
    · obtain ⟨id, name, bound, rfl⟩ := exists_of_isVar isVar
      exact agree _ (.self rfl)
    · rw [put_leaf leaf isVar, put_leaf leaf isVar, put_leaf leaf isVar]
      exact self
  | @applied spelling origin args spelled each ih =>
    rw [put, put, put, putAll_eq, putAll_eq, putAll_eq, originFilled_twice each, List.map_map]
    have comparable : spelling.comparable spelling := by cases spelling <;> rfl
    refine same_alias.mpr ⟨spelling, args.map (put σ ∘ put τ), rfl, comparable, ?_⟩
    rw [sameAll_iff, List.forall₂_map_left_iff, List.forall₂_map_right_iff, List.forall₂_same]
    exact fun a mem => ih a mem fun v inside => agree v (.argument mem inside)
  | @union spelling members several distinct each valid bars ih =>
    have formed : Formed w (union spelling members) := .union several distinct each valid bars
    have new := (formed.put typed'').1
    have inside : SameMembers (members.flatMap fun m => (put ρ m).unionMembers)
        (members.flatMap fun m => (put σ (put τ m)).unionMembers) := by
      refine SameMembers.flatMap_right fun m mem => ?_
      have twice := (((each m mem).put typed').1.put typed).1
      exact (same_iff_members ((each m mem).put typed'').1 twice).mp
        (ih m mem fun v inside => agree v (.member mem inside))
    have twice := ((formed.put typed').1.put typed).1
    have first := (sameMembers_put typed'' formed).trans new.member inside
    have last := (sameMembers_put_put typed typed' formed).symm twice.member
    exact (same_iff_members new twice).mpr (first.trans new.member last)
  | @annotated inner metadata type valid single some data ih =>
    have inside := ih fun v free => agree v (.inner free)
    rw [put, put, put_annotatedWith]
    exact same_annotatedWith inside (sameAll_self fun x mem => (data x mem).2)

end

end Hint
end Wiring
