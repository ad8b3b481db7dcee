import Mathlib
import Wiring.Generic
import Wiring.Proofs.Class.WellFormed

/-! Where ancestors come from. Following the bases of a class as they were written leads to all of
its ancestors, but for `object` and the forms that generic classes are declared with. So it is in
every world that declarations make. -/
namespace Wiring

namespace Hint

def baseClass? (base : Hint) : Option ClassRef := (base.origin?.getD base).class?

theorem origin_of_baseClass? {base : Hint} {k : ClassRef} (behind : base.baseClass? = some k) :
    base.origin?.getD base = .cls k := by
  unfold baseClass? class? at behind
  split at behind
  · rename_i found
    cases behind
    exact found
  · cases behind

theorem baseClass?_cls (k : ClassRef) : baseClass? (.cls k) = some k := by
  cases k with
  | builtin b => cases b <;> rfl
  | declared n => rfl

end Hint

namespace ClassRef

/-- Neither `object` nor a form that generic and structural classes are declared with. -/
def Proper (k : ClassRef) : Prop := k ≠ .builtin .object ∧ ¬ Hint.isGenericForm k

instance (k : ClassRef) : Decidable k.Proper :=
  inferInstanceAs (Decidable (k ≠ .builtin .object ∧ ¬ Hint.isGenericForm k))

end ClassRef

namespace World
variable {w : World} {c k G : ClassRef}

def leads (w : World) (G : ClassRef) (base : Hint) : Bool := base.baseClass?.any (w.derives · G)

theorem leads_eq_true {base : Hint} :
    w.leads G base ↔ ∃ k, base.baseClass? = some k ∧ w.derives k G := by
  rw [leads, Option.any_eq_true]

theorem rank_lt_iff {n : Nat} : k.rank < (ClassRef.declared n).rank ↔
    ∀ m, k = .declared m → m < n := by
  cases k with
  | builtin b =>
    have low := b.rank_lt_ranks
    simp only [ClassRef.rank, reduceCtorEq, false_implies, implies_true, iff_true]
    omega
  | declared m => simp [ClassRef.rank]

theorem not_proper_of_derives_builtin {b : Builtin}
    (form : b = .object ∨ b = .generic ∨ b = .protocol) (derives : w.derives (.builtin b) G) :
    ¬ G.Proper := by
  have mem : G ∈ b.info.linearization := List.contains_iff_mem.mp derives
  have improper : G = .builtin .object ∨ G = .builtin .generic ∨ G = .builtin .protocol := by
    rcases form with rfl | rfl | rfl <;>
      simp only [Builtin.info, Builtin.linearization, List.map_cons, List.map_nil, List.mem_cons,
        List.not_mem_nil, or_false] at mem <;> tauto
  rintro ⟨noObject, noForm⟩
  rcases improper with rfl | rfl | rfl
  · exact noObject rfl
  · exact noForm rfl
  · exact noForm rfl

end World

namespace ClassInfo

/-- The class is an ancestor of its own, its written bases come before it, and its ancestors are
those of its written bases. -/
structure Inherits (info : ClassInfo) (c : ClassRef) (w : World) : Prop where
  own : c ∈ info.linearization
  lower : ∀ base ∈ info.baseHints, ∀ k ∈ base.baseClass?, k.rank < c.rank
  covered : ∀ G ∈ info.linearization, G ≠ c → G.Proper → ∃ base ∈ info.baseHints, w.leads G base

theorem Inherits.congr {w w' : World} {info info' : ClassInfo} {c : ClassRef}
    (inherits : info.Inherits c w) (line : info'.linearization = info.linearization)
    (hints : info'.baseHints = info.baseHints)
    (before : ∀ k, k.rank < c.rank → w'.linearization k = w.linearization k) :
    info'.Inherits c w' where
  own := by
    rw [line]
    exact inherits.own
  lower := by
    rw [hints]
    exact inherits.lower
  covered G mem other proper := by
    rw [line] at mem
    obtain ⟨base, listed, leads⟩ := inherits.covered G mem other proper
    obtain ⟨k, behind, derives⟩ := World.leads_eq_true.mp leads
    refine ⟨base, by rw [hints]; exact listed, World.leads_eq_true.mpr ⟨k, behind, ?_⟩⟩
    rw [World.derives, before k (inherits.lower base listed k behind)]
    exact derives

end ClassInfo

namespace Builtin

theorem baseHints_info (b : Builtin) : b = .objectFactory ∨
    b.info.baseHints = b.bases.map fun base => .cls (.builtin base) := by
  cases b <;> first | exact .inl rfl | exact .inr rfl

theorem linearization_covered (b : Builtin) : ∀ G ∈ b.linearization, G ≠ b → G ≠ .object →
    G ≠ .generic → G ≠ .protocol → ∃ base ∈ b.bases, G ∈ base.linearization := by
  cases b <;> decide

theorem inherits (b : Builtin) (w : World) : b.info.Inherits (.builtin b) w where
  own := by
    refine List.mem_map.mpr ⟨b, ?_, rfl⟩
    cases b <;> decide
  lower base listed k behind := by
    rcases b.baseHints_info with rfl | plain
    · cases List.mem_singleton.mp listed
      cases behind
      decide
    · rw [plain] at listed
      obtain ⟨a, mem, rfl⟩ := List.mem_map.mp listed
      rw [Hint.baseClass?_cls] at behind
      cases behind
      exact rank_lt_of_mem_bases mem
  covered G mem other proper := by
    obtain ⟨a, listed, rfl⟩ := List.mem_map.mp mem
    obtain ⟨noObject, noForm⟩ := proper
    have differ : a ≠ b := fun same => other (congrArg ClassRef.builtin same)
    have noObject : a ≠ .object := fun same => noObject (congrArg ClassRef.builtin same)
    have noGeneric : a ≠ .generic := by rintro rfl; exact noForm rfl
    have noProtocol : a ≠ .protocol := by rintro rfl; exact noForm rfl
    obtain ⟨base, isBase, above⟩ :=
      b.linearization_covered a listed differ noObject noGeneric noProtocol
    rcases b.baseHints_info with rfl | plain
    · cases List.mem_singleton.mp isBase
      simp [linearization] at above
      rcases above with rfl | rfl
      · exact absurd rfl noGeneric
      · exact absurd rfl noObject
    · rw [plain]
      refine ⟨_, List.mem_map_of_mem isBase, World.leads_eq_true.mpr
        ⟨.builtin base, Hint.baseClass?_cls _, List.contains_iff_mem.mpr ?_⟩⟩
      exact List.mem_map_of_mem above

end Builtin

namespace World
variable {w : World} {c k G : ClassRef}

def Inherits (w : World) : Prop := ∀ c, w.Knows c → (w.info c).Inherits c w

theorem knows_of_derives (derives : w.derives c G) (proper : G.Proper) : w.Knows c := by
  cases c with
  | builtin b => trivial
  | declared n =>
    by_contra unknown
    have missing : w.info (.declared n) = Builtin.object.info := by
      rw [World.info, List.getElem?_eq_none (Nat.le_of_not_lt unknown)]
      rfl
    have derives : w.derives (.builtin .object) G := by
      rw [World.derives, World.linearization, missing] at derives
      exact derives
    exact not_proper_of_derives_builtin (.inl rfl) derives proper

theorem Knows.of_rank_lt (known : w.Knows c) (lower : k.rank < c.rank) : w.Knows k := by
  cases k with
  | builtin b => trivial
  | declared m =>
    cases c with
    | builtin b =>
      have low := b.rank_lt_ranks
      simp only [ClassRef.rank] at lower
      omega
    | declared n =>
      have before := rank_lt_iff.mp lower m rfl
      exact Nat.lt_trans before known

theorem Inherits.bind (inherits : w.Inherits) (name : String) (h : Hint) :
    (w.bind name h).Inherits :=
  fun c known => (inherits c known).congr rfl rfl fun _ _ => rfl

theorem Inherits.setMember (inherits : w.Inherits) (c : ClassRef) (name : String) (m : Member) :
    (w.setMember c name m).Inherits := by
  cases c with
  | builtin b => exact inherits
  | declared n =>
    have kept (k : ClassRef) :
        ((w.setMember (.declared n) name m).info k).linearization = (w.info k).linearization ∧
        ((w.setMember (.declared n) name m).info k).baseHints = (w.info k).baseHints := by
      cases k with
      | builtin b => exact ⟨rfl, rfl⟩
      | declared i =>
        simp only [World.setMember, World.info, List.getElem?_modify]
        cases w.classes[i]? with
        | none => exact ⟨rfl, rfl⟩
        | some info =>
          by_cases changed : n = i
          · simp [changed, ClassInfo.baseHints]
          · simp [changed]
    intro c known
    have known : w.Knows c := by
      cases c with
      | builtin b => trivial
      | declared i => simpa [Knows, World.setMember] using known
    exact (inherits c known).congr (kept c).1 (kept c).2 fun k _ => (kept k).1

theorem Inherits.append (inherits : w.Inherits) {info : ClassInfo}
    (added : info.Inherits (.declared w.classes.length) w) :
    Inherits { w with classes := w.classes ++ [info] } := by
  have old (k : ClassRef) (known : w.Knows k) :
      World.info { w with classes := w.classes ++ [info] } k = w.info k := by
    cases k with
    | builtin b => rfl
    | declared n =>
      simp only [World.info]
      rw [List.getElem?_append_left known]
  have earlier (c k : ClassRef) (known : c = .declared w.classes.length ∨ w.Knows c)
      (lower : k.rank < c.rank) : w.Knows k := by
    rcases known with rfl | known
    · cases k with
      | builtin b => trivial
      | declared n => exact rank_lt_iff.mp lower n rfl
    · exact known.of_rank_lt lower
  intro c known
  by_cases before : w.Knows c
  · rw [old c before]
    refine (inherits c before).congr rfl rfl fun k lower => ?_
    rw [World.linearization, old k (before.of_rank_lt lower)]
    rfl
  · have new : c = .declared w.classes.length := by
      cases c with
      | builtin b => exact absurd trivial before
      | declared n =>
        simp only [Knows, List.length_append, List.length_singleton] at known before
        congr
        omega
    have found : World.info { w with classes := w.classes ++ [info] } c = info := by
      rw [new]
      simp [World.info]
    rw [found, new]
    refine added.congr rfl rfl fun k lower => ?_
    rw [World.linearization, old k (earlier _ k (.inl rfl) lower)]
    rfl

theorem rank_lt_of_knows (known : w.Knows k) :
    k.rank < (ClassRef.declared w.classes.length).rank := by
  rw [rank_lt_iff]
  rintro n rfl
  exact known

/-- A class whose ancestors are those of its bases, if all bases that lead anywhere are written. -/
theorem Inherits.extend (inherits : w.Inherits) {info : ClassInfo} {bases rest : List ClassRef}
    (known : ∀ k ∈ bases, w.Knows k)
    (line : info.linearization = .declared w.classes.length :: rest)
    (inherited : ∀ G ∈ rest, ∃ l ∈ bases.map w.linearization ++ [bases], G ∈ l)
    (lower : ∀ base ∈ info.baseHints, ∀ k, base.baseClass? = some k → w.Knows k)
    (written : ∀ k ∈ bases, (∃ base ∈ info.baseHints, base.baseClass? = some k) ∨
      ∀ G, w.derives k G → ¬ G.Proper) : info.Inherits (.declared w.classes.length) w where
  own := by simp [line]
  lower base listed k behind := rank_lt_of_knows (lower base listed k behind)
  covered G mem other proper := by
    have mem : G ∈ rest := by
      rw [line] at mem
      exact (List.mem_cons.mp mem).resolve_left other
    have above : ∃ k ∈ bases, w.derives k G := by
      obtain ⟨l, listed, held⟩ := inherited G mem
      rcases List.mem_append.mp listed with fromBase | isBase
      · obtain ⟨k, isBase, rfl⟩ := List.mem_map.mp fromBase
        exact ⟨k, isBase, List.contains_iff_mem.mpr held⟩
      · cases List.mem_singleton.mp isBase
        exact ⟨G, held, List.contains_iff_mem.mpr (inherits G (known G held)).own⟩
    obtain ⟨k, isBase, derives⟩ := above
    rcases written k isBase with ⟨base, listed, behind⟩ | leadsNowhere
    · exact ⟨base, listed, leads_eq_true.mpr ⟨k, behind, derives⟩⟩
    · exact absurd proper (leadsNowhere G derives)

theorem Inherits.extend_plain (inherits : w.Inherits) {info : ClassInfo}
    {bases rest : List ClassRef} (known : ∀ k ∈ bases, w.Knows k)
    (line : info.linearization = .declared w.classes.length :: rest)
    (inherited : ∀ G ∈ rest, ∃ l ∈ bases.map w.linearization ++ [bases], G ∈ l)
    (plain : info.baseHints = bases.map .cls) :
    info.Inherits (.declared w.classes.length) w := by
  refine inherits.extend known line inherited ?_ fun k isBase => .inl ⟨.cls k, ?_, ?_⟩
  · intro base listed k behind
    rw [plain] at listed
    obtain ⟨k', isBase, rfl⟩ := List.mem_map.mp listed
    rw [Hint.baseClass?_cls] at behind
    cases behind
    exact known k isBase
  · rw [plain]
    exact List.mem_map_of_mem isBase
  · exact Hint.baseClass?_cls k

end World

namespace ClassDefinition
variable {w : World} {all later : List Hint}

/-- A written base stands for the class behind it, and may bring the generic form along. -/
theorem behind_of_mem_resolveBase {base : Hint} {k : ClassRef}
    (mem : k ∈ resolveBase w all later base) :
    base.baseClass? = some k ∨ k = .builtin .generic := by
  have named (origin : Builtin) (listed covered : Bool)
      (mem : k ∈ (if listed then [] else [ClassRef.builtin origin]) ++
        if covered then [] else [ClassRef.builtin .generic]) :
      k = .builtin origin ∨ k = .builtin .generic := by
    rcases List.mem_append.mp mem with own | generic
    · split at own
      · contradiction
      · exact .inl (List.mem_singleton.mp own)
    · split at generic
      · contradiction
      · exact .inr (List.mem_singleton.mp generic)
  unfold resolveBase at mem
  dsimp only at mem
  split at mem
  · cases List.mem_singleton.mp mem
    exact .inl (Hint.baseClass?_cls _)
  · exact (named _ _ _ mem).imp_left fun same => by rw [same]; rfl
  · split at mem
    · contradiction
    · exact .inr (List.mem_singleton.mp mem)
  · split at mem
    · exact (named _ _ _ mem).imp_left fun same => by rw [same]; rfl
    · exact .inl (by rw [List.mem_singleton.mp mem]; rfl)
  · exact .inl (by rw [List.mem_singleton.mp mem]; rfl)
  · contradiction

theorem mem_resolveBase {base : Hint} {n : Nat} (behind : base.baseClass? = some (.declared n)) :
    ClassRef.declared n ∈ resolveBase w all later base := by
  cases base with
  | cls k =>
    rw [Hint.baseClass?_cls] at behind
    cases behind
    exact List.mem_singleton_self _
  | «alias» spelling origin args =>
    cases behind
    cases spelling <;> exact List.mem_singleton_self _
  | union spelling members => cases spelling <;> cases behind
  | _ => cases behind

theorem behind_of_mem_resolveBases {bases : List Hint} {k : ClassRef}
    (mem : k ∈ resolveBases w all bases) :
    (∃ base ∈ bases, base.baseClass? = some k) ∨ k = .builtin .generic := by
  induction bases with
  | nil => contradiction
  | cons base bases ih =>
    rcases List.mem_append.mp mem with here | there
    · exact (behind_of_mem_resolveBase here).imp_left fun behind =>
        ⟨base, List.mem_cons_self, behind⟩
    · refine (ih there).imp_left ?_
      rintro ⟨base, listed, behind⟩
      exact ⟨base, List.mem_cons_of_mem _ listed, behind⟩

theorem mem_resolveBases {bases : List Hint} {base : Hint} {n : Nat} (listed : base ∈ bases)
    (behind : base.baseClass? = some (.declared n)) :
    ClassRef.declared n ∈ resolveBases w all bases := by
  induction bases with
  | nil => contradiction
  | cons first bases ih =>
    rcases List.mem_cons.mp listed with rfl | later
    · exact List.mem_append_left _ (mem_resolveBase behind)
    · exact List.mem_append_right _ (ih later)

theorem mem_baseClasses {d : ClassDefinition} {base : Hint} {n : Nat} (listed : base ∈ d.bases)
    (behind : base.baseClass? = some (.declared n)) : ClassRef.declared n ∈ d.baseClasses w := by
  have mem : ClassRef.declared n ∈ resolveBases w d.bases d.bases :=
    mem_resolveBases listed behind
  unfold baseClasses
  split
  · rename_i none
    rw [none] at mem
    contradiction
  · exact mem

theorem behind_of_mem_baseClasses {d : ClassDefinition} {k : ClassRef}
    (mem : k ∈ d.baseClasses w) : (∃ base ∈ d.bases, base.baseClass? = some k) ∨
      k = .builtin .object ∨ k = .builtin .generic := by
  unfold baseClasses at mem
  split at mem
  · exact .inr (.inl (List.mem_singleton.mp mem))
  · exact (behind_of_mem_resolveBases mem).imp_right .inr

end ClassDefinition

namespace World
variable {w : World}

theorem inherited_of_merge {bases line : List ClassRef}
    (merged : Linearization.merge (bases.map w.linearization ++ [bases]) = some line) :
    ∀ G ∈ line, ∃ l ∈ bases.map w.linearization ++ [bases], G ∈ l :=
  fun _ mem => Linearization.mem_of_mem_merge merged mem

theorem Inherits.extend_written (inherits : w.Inherits) {d : ClassDefinition} {info : ClassInfo}
    {rest : List ClassRef} (known : ∀ k ∈ d.baseClasses w, w.Knows k)
    (line : info.linearization = .declared w.classes.length :: rest)
    (inherited : ∀ G ∈ rest,
      ∃ l ∈ (d.baseClasses w).map w.linearization ++ [d.baseClasses w], G ∈ l)
    (hints : info.baseHints = d.bases ∨ info.baseHints = (d.baseClasses w).map .cls) :
    info.Inherits (.declared w.classes.length) w := by
  rcases hints with written | plain
  · refine inherits.extend known line inherited ?_ ?_
    · rw [written]
      intro base listed k behind
      cases k with
      | builtin b => trivial
      | declared n => exact known _ (ClassDefinition.mem_baseClasses listed behind)
    · rw [written]
      intro k mem
      refine (ClassDefinition.behind_of_mem_baseClasses mem).imp_right ?_
      rintro (rfl | rfl) G derives
      · exact not_proper_of_derives_builtin (.inl rfl) derives
      · exact not_proper_of_derives_builtin (.inr (.inl rfl)) derives
  · exact inherits.extend_plain known line inherited plain

theorem Inherits.declare? (inherits : w.Inherits) {d : ClassDefinition} {after : World}
    (known : ∀ k ∈ d.baseClasses w, w.Knows k) (declared : w.declare? d = some after) :
    after.Inherits := by
  unfold World.declare? at declared
  dsimp only at declared
  split at declared
  · cases declared
  rename_i line linearized
  obtain ⟨rest, merged, rfl⟩ := Option.map_eq_some_iff.mp linearized
  have bound {w : World} {info : ClassInfo} (inherits : w.Inherits)
      (added : info.Inherits (.declared w.classes.length) w) (name : String) (h : Hint) :
      World.Inherits (if d.isLocal then { w with classes := w.classes ++ [info] }
        else World.bind { w with classes := w.classes ++ [info] } name h) := by
    split
    · exact inherits.append added
    · exact (inherits.append added).bind name h
  cases declared
  refine bound inherits ?_ _ _
  refine inherits.extend_written known rfl (inherited_of_merge merged) ?_
  dsimp only [ClassInfo.baseHints]
  split
  · exact .inl rfl
  · exact .inr rfl

theorem Inherits.addEverywhere (inherits : w.Inherits) (name : String) {bases : List ClassRef}
    (known : ∀ k ∈ bases, w.Knows k) (members : List String) :
    (w.addEverywhere name bases members).Inherits := by
  unfold World.addEverywhere
  refine inherits.append (inherits.extend_plain known rfl ?_ rfl)
  cases merged : Linearization.merge (bases.map w.linearization ++ [bases]) with
  | none => simp
  | some line => exact inherited_of_merge merged

theorem inherits_new (moduleName : String) : Inherits { moduleName } := by
  intro c known
  cases c with
  | builtin b => exact b.inherits _
  | declared n => exact absurd known (Nat.not_lt_zero n)

theorem inherits_start (moduleName : String) : (start moduleName).Inherits := by
  unfold start
  refine List.foldlRecOn furtherClasses _ ?_ fun w inherits entry _ => ?_
  · refine List.foldlRecOn _ _ (inherits_new moduleName) fun w inherits group _ => ?_
    refine List.foldlRecOn group.2 _ inherits fun w inherits name _ => ?_
    refine inherits.addEverywhere name ?_ []
    intro k mem
    obtain ⟨base, _, found⟩ := List.mem_filterMap.mp mem
    exact knows_of_everywhereClass? found
  · refine inherits.addEverywhere entry.1 ?_ entry.2
    intro k mem
    cases List.mem_singleton.mp mem
    trivial

theorem Declared.inherits (made : w.Declared) : w.Inherits := by
  induction made with
  | start moduleName => exact inherits_start moduleName
  | declare _ known declared inherits => exact inherits.declare? known declared
  | bind _ name h inherits => exact inherits.bind name h
  | setMember _ c name m inherits => exact inherits.setMember c name m

end World
end Wiring
