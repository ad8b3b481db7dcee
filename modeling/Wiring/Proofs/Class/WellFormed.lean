import Mathlib.Data.List.Nodup
import Wiring.Class.Definition
import Wiring.Class.Standard
import Wiring.Proofs.Entries

/-! Worlds in order. No class stands twice in a linearization, every class in one is known, and no
body holds a name twice. Every world is in order that is made from a new one by declaring classes,
making names visible and putting members into bodies. -/
namespace Wiring

namespace Linearization

variable {α : Type} [DecidableEq α]

theorem notMem_advance_of_next? {lists : List (List α)} {c : α} (next : next? lists = some c) :
    ∀ l ∈ advance c lists, c ∉ l := by
  have clear := List.find?_some next
  intro l mem held
  obtain ⟨l', listed, rfl⟩ := List.mem_map.mp mem
  have behind : c ∉ l'.tail := by
    simpa using List.all_eq_true.mp clear l' listed
  split at held
  · exact behind held
  · rename_i other
    cases l' with
    | nil => contradiction
    | cons x xs =>
      rcases List.mem_cons.mp held with rfl | later
      · exact other rfl
      · exact behind later

theorem mem_of_mem_advance {lists : List (List α)} {c d : α} {l : List α}
    (mem : l ∈ advance c lists) (held : d ∈ l) : ∃ l' ∈ lists, d ∈ l' := by
  obtain ⟨l', listed, rfl⟩ := List.mem_map.mp mem
  refine ⟨l', listed, ?_⟩
  split at held
  · exact List.mem_of_mem_tail held
  · exact held

theorem mem_of_mem_merge {lists : List (List α)} {order : List α}
    (merged : merge lists = some order) {c : α} (mem : c ∈ order) : ∃ l ∈ lists, c ∈ l := by
  fun_induction merge lists generalizing order with
  | case1 => cases merged; contradiction
  | case2 => cases merged
  | case3 lists _ d next ih =>
    obtain ⟨rest, walked, rfl⟩ := Option.map_eq_some_iff.mp merged
    rcases List.mem_cons.mp mem with rfl | later
    · obtain ⟨l, listed, heads⟩ := List.mem_filterMap.mp (List.mem_of_find?_eq_some next)
      exact ⟨l, listed, List.mem_of_mem_head? heads⟩
    · obtain ⟨l, advanced, held⟩ := ih walked later
      exact mem_of_mem_advance advanced held

theorem nodup_merge {lists : List (List α)} {order : List α} (merged : merge lists = some order) :
    order.Nodup := by
  fun_induction merge lists generalizing order with
  | case1 => cases merged; exact List.nodup_nil
  | case2 => cases merged
  | case3 lists _ d next ih =>
    obtain ⟨rest, walked, rfl⟩ := Option.map_eq_some_iff.mp merged
    rw [List.nodup_cons]
    -- What is taken is in no tail, so nothing that is merged later can be the same again.
    refine ⟨fun later => ?_, ih walked⟩
    obtain ⟨l, advanced, held⟩ := mem_of_mem_merge walked later
    exact notMem_advance_of_next? next l advanced held

end Linearization

namespace ClassInfo

structure InOrder (info : ClassInfo) (count : Nat) : Prop where
  line_nodup : info.linearization.Nodup
  line_known : ∀ n, .declared n ∈ info.linearization → n < count
  names_nodup : info.members.names.Nodup

theorem InOrder.mono {info : ClassInfo} {count more : Nat} (order : info.InOrder count)
    (le : count ≤ more) : info.InOrder more where
  line_nodup := order.line_nodup
  line_known n mem := Nat.lt_of_lt_of_le (order.line_known n mem) le
  names_nodup := order.names_nodup

end ClassInfo

namespace Builtin

theorem linearization_nodup (b : Builtin) : b.linearization.Nodup := by
  cases b <;> decide

theorem members_nodup (b : Builtin) : b.members.names.Nodup := by
  cases b <;> decide +kernel

theorem inOrder (b : Builtin) (count : Nat) : b.info.InOrder count where
  line_nodup := by
    refine List.Nodup.map ?_ b.linearization_nodup
    intro a b same
    cases same
    rfl
  line_known n mem := by
    obtain ⟨_, _, same⟩ := List.mem_map.mp mem
    cases same
  names_nodup := b.members_nodup

end Builtin

namespace World

def Knows (w : World) : ClassRef → Prop
  | .builtin _ => True
  | .declared n => n < w.classes.length

def WellFormed (w : World) : Prop := ∀ c, (w.info c).InOrder w.classes.length

variable {w : World}

theorem WellFormed.line_nodup (order : w.WellFormed) (c : ClassRef) :
    (w.linearization c).Nodup := (order c).line_nodup

theorem WellFormed.names_nodup (order : w.WellFormed) (c : ClassRef) :
    (w.info c).members.names.Nodup := (order c).names_nodup

theorem WellFormed.line_known (order : w.WellFormed) {c k : ClassRef}
    (mem : k ∈ w.linearization c) : w.Knows k := by
  cases k with
  | builtin b => trivial
  | declared n => exact (order c).line_known n mem

theorem wellFormed_of_classes
    (each : ∀ info ∈ w.classes, info.InOrder w.classes.length) : w.WellFormed := by
  intro c
  cases c with
  | builtin b => exact b.inOrder _
  | declared n =>
    cases found : w.classes[n]? with
    | none => simpa [World.info, found] using Builtin.inOrder .object w.classes.length
    | some info => simpa [World.info, found] using each info (List.mem_of_getElem? found)

theorem WellFormed.inOrder (order : w.WellFormed) {info : ClassInfo} (mem : info ∈ w.classes) :
    info.InOrder w.classes.length := by
  obtain ⟨n, found⟩ := List.mem_iff_getElem?.mp mem
  simpa [World.info, found] using order (.declared n)

theorem WellFormed.append (order : w.WellFormed) {info : ClassInfo}
    (added : info.InOrder (w.classes.length + 1)) :
    WellFormed { w with classes := w.classes ++ [info] } := by
  apply wellFormed_of_classes
  intro info' mem
  rw [List.length_append, List.length_singleton]
  rcases List.mem_append.mp mem with old | new
  · exact (order.inOrder old).mono (Nat.le_succ _)
  · cases List.mem_singleton.mp new
    exact added

theorem WellFormed.bind (order : w.WellFormed) (name : String) (h : Hint) :
    (w.bind name h).WellFormed :=
  wellFormed_of_classes fun _ mem => order.inOrder mem

theorem WellFormed.setMember (order : w.WellFormed) (c : ClassRef) (name : String) (m : Member) :
    (w.setMember c name m).WellFormed := by
  cases c with
  | builtin b => exact order
  | declared n =>
    apply wellFormed_of_classes
    intro info mem
    simp only [World.setMember, List.length_modify]
    obtain ⟨i, found⟩ := List.mem_iff_getElem?.mp mem
    simp only [World.setMember, List.getElem?_modify] at found
    obtain ⟨old, held, rfl⟩ := Option.map_eq_some_iff.mp found
    have kept := order.inOrder (List.mem_of_getElem? held)
    split
    · exact ⟨kept.line_nodup, kept.line_known, Entries.nodup_set kept.names_nodup name m⟩
    · exact kept

theorem WellFormed.merge (order : w.WellFormed) {bases line : List ClassRef}
    (known : ∀ k ∈ bases, w.Knows k)
    (merged : Linearization.merge (bases.map w.linearization ++ [bases]) = some line) :
    (ClassRef.declared w.classes.length :: line).Nodup ∧
      ∀ n, .declared n ∈ ClassRef.declared w.classes.length :: line → n < w.classes.length + 1 := by
  have before : ∀ n, .declared n ∈ line → n < w.classes.length := by
    intro n mem
    obtain ⟨l, listed, held⟩ := Linearization.mem_of_mem_merge merged mem
    rcases List.mem_append.mp listed with inherited | own
    · obtain ⟨k, _, rfl⟩ := List.mem_map.mp inherited
      exact order.line_known held
    · cases List.mem_singleton.mp own
      exact known _ held
  constructor
  · refine List.nodup_cons.mpr ⟨fun mem => ?_, Linearization.nodup_merge merged⟩
    exact Nat.lt_irrefl _ (before _ mem)
  · intro n mem
    rcases List.mem_cons.mp mem with same | mem
    · cases same
      exact Nat.lt_succ_self _
    · exact Nat.lt_succ_of_lt (before n mem)

end World

namespace ClassDefinition

theorem nodup_members (d : ClassDefinition) : d.members.names.Nodup := by
  unfold members
  refine Entries.nodup_foldl_set id (fun _ => Member.slot) _ ?_
  refine Entries.nodup_append_of_lookup (Entries.nodup_ofList _) ?_ ?_
  · split
    · exact List.nodup_singleton _
    · exact List.nodup_nil
  · intro name mem
    split at mem
    · rename_i unhashed
      cases List.mem_singleton.mp mem
      simpa using (Bool.and_eq_true_iff.mp unhashed).2
    · contradiction

theorem nodup_decorate (d : ClassDefinition) {ns : Namespace} (distinct : ns.names.Nodup) :
    (d.decorate ns).names.Nodup := by
  unfold decorate
  dsimp only
  cases d.priority with
  | none =>
    split
    · exact Entries.nodup_set distinct _ _
    · exact distinct
  | some n =>
    have prioritized := Entries.nodup_set distinct priorityMember (.value (priorityLiteral n))
    split
    · exact Entries.nodup_set prioritized _ _
    · exact prioritized

end ClassDefinition

namespace World

variable {w : World}

theorem nodup_handOver (w : World) (bases line : List ClassRef) (d : ClassDefinition)
    {ns : Namespace} (distinct : ns.names.Nodup) : (w.handOver bases line d ns).names.Nodup := by
  unfold handOver
  dsimp only
  split
  · rename_i missing
    refine Entries.nodup_append_of_lookup distinct (List.nodup_singleton _) ?_
    intro name mem
    cases List.mem_singleton.mp mem
    simp only [Bool.and_eq_true, Option.isNone_iff_eq_none] at missing
    exact missing.1.2
  · exact distinct

def impliedNames : List String :=
  ["__module__", "__doc__"] ++ ["__dict__"] ++ ["__weakref__"] ++ ["__slots__"] ++
    ["__annotations__"] ++ ["__orig_bases__"] ++ ["__parameters__"] ++
    ["_is_protocol", "__subclasshook__"] ++ ["__abstractmethods__", "_abc_impl"] ++
    ["_is_runtime_protocol"]

theorem nodup_impliedNames : impliedNames.Nodup := by decide

theorem names_ite_sublist {p : Prop} [Decidable p] {part other : Namespace} {names : List String}
    (listed : part.names.Sublist names) (others : other.names.Sublist names) :
    (if p then part else other).names.Sublist names := by
  split
  · exact listed
  · exact others

theorem impliedMembers_sublist (w : World) (d : ClassDefinition) (info : ClassInfo) :
    (w.impliedMembers d info).names.Sublist impliedNames := by
  have written : (Entries.names (info.writtenBases.toList.map fun bases =>
      ("__orig_bases__", Member.hints bases))).Sublist ["__orig_bases__"] := by
    cases info.writtenBases with
    | none => exact List.nil_sublist _
    | some bases => exact List.Sublist.refl _
  unfold impliedMembers Builtin.access impliedNames
  simp only [Entries.names_append, ← List.append_assoc]
  repeat' apply List.Sublist.append
  all_goals first
    | exact written
    | exact names_ite_sublist (List.Sublist.refl _) (List.nil_sublist _)
    | exact names_ite_sublist (List.nil_sublist _) (List.Sublist.refl _)
    | exact List.Sublist.refl _

theorem nodup_append_implied (w : World) (d : ClassDefinition) (info : ClassInfo)
    {body : Namespace} (distinct : body.names.Nodup) :
    (body ++ (w.impliedMembers d info).filter
      fun (name, _) => (body.lookup name).isNone).names.Nodup := by
  have listed := impliedMembers_sublist w d info
  have fewer : Entries.names ((w.impliedMembers d info).filter
      fun (name, _) => (body.lookup name).isNone) |>.Sublist (w.impliedMembers d info).names :=
    List.filter_sublist.map _
  refine Entries.nodup_append_of_lookup distinct
    (nodup_impliedNames.sublist (fewer.trans listed)) ?_
  intro name mem
  obtain ⟨entry, kept, rfl⟩ := List.mem_map.mp mem
  simpa using (List.mem_filter.mp kept).2

theorem WellFormed.declare? (order : w.WellFormed) {d : ClassDefinition} {after : World}
    (known : ∀ k ∈ d.baseClasses w, w.Knows k) (declared : w.declare? d = some after) :
    after.WellFormed := by
  unfold World.declare? at declared
  dsimp only at declared
  split at declared
  · cases declared
  · rename_i line linearized
    obtain ⟨rest, merged, rfl⟩ := Option.map_eq_some_iff.mp linearized
    obtain ⟨distinct, earlier⟩ := order.merge known merged
    have distinctBody := d.nodup_decorate
      (w.nodup_handOver (d.baseClasses w) (.declared w.classes.length :: rest) d d.nodup_members)
    have inOrder := fun info => w.nodup_append_implied d info distinctBody
    cases declared
    split
    · exact order.append ⟨distinct, earlier, inOrder _⟩
    · exact (order.append ⟨distinct, earlier, inOrder _⟩).bind _ _

theorem knows_of_everywhereClass? {name : String} {c : ClassRef}
    (found : w.everywhereClass? name = some c) : w.Knows c := by
  unfold everywhereClass? at found
  split at found
  · cases found
    trivial
  · obtain ⟨n, place, rfl⟩ := Option.map_eq_some_iff.mp found
    exact (List.findIdx?_eq_some_iff_findIdx_eq.mp place).1

theorem WellFormed.addEverywhere (order : w.WellFormed) (name : String) {bases : List ClassRef}
    (known : ∀ k ∈ bases, w.Knows k) {members : List String} (distinct : members.Nodup) :
    (w.addEverywhere name bases members).WellFormed := by
  have names : (Entries.names (members.map (·, Member.native .operation))).Nodup := by
    simpa [Entries.names, Function.comp_def] using distinct
  unfold World.addEverywhere
  cases merged : Linearization.merge (bases.map w.linearization ++ [bases]) with
  | none =>
    refine order.append ⟨List.nodup_singleton _, fun n mem => ?_, names⟩
    cases List.mem_singleton.mp mem
    exact Nat.lt_succ_self _
  | some line =>
    obtain ⟨line_nodup, line_known⟩ := order.merge known merged
    exact order.append ⟨line_nodup, line_known, names⟩

theorem wellFormed_new (moduleName : String) : WellFormed { moduleName } :=
  wellFormed_of_classes fun _ mem => by contradiction

theorem WellFormed.addErrors (order : w.WellFormed) (group : String × List String) :
    (group.2.foldl (fun w name => w.addEverywhere name (w.errorBases group.1 name) [])
      w).WellFormed := by
  refine List.foldlRecOn group.2 _ order fun w order name _ => ?_
  refine order.addEverywhere name ?_ List.nodup_nil
  intro k mem
  obtain ⟨base, _, found⟩ := List.mem_filterMap.mp mem
  exact knows_of_everywhereClass? found

theorem furtherClasses_nodup : ∀ entry ∈ furtherClasses, entry.2.Nodup := by decide

theorem wellFormed_start (moduleName : String) : (start moduleName).WellFormed := by
  unfold start
  refine List.foldlRecOn furtherClasses _ ?_ fun w order entry listed => ?_
  · exact List.foldlRecOn _ _ (wellFormed_new moduleName)
      fun w order group _ => order.addErrors group
  · refine order.addEverywhere entry.1 ?_ (furtherClasses_nodup entry listed)
    intro k mem
    cases List.mem_singleton.mp mem
    trivial

inductive Declared : World → Prop
  | start (moduleName : String) : Declared (start moduleName)
  | declare {w after : World} {d : ClassDefinition} (made : Declared w)
      (known : ∀ k ∈ d.baseClasses w, w.Knows k) (declared : w.declare? d = some after) :
      Declared after
  | bind {w : World} (made : Declared w) (name : String) (h : Hint) : Declared (w.bind name h)
  | setMember {w : World} (made : Declared w) (c : ClassRef) (name : String) (m : Member) :
      Declared (w.setMember c name m)

theorem Declared.wellFormed {w : World} (made : w.Declared) : w.WellFormed := by
  induction made with
  | start moduleName => exact wellFormed_start moduleName
  | declare _ known declared order => exact order.declare? known declared
  | bind _ name h order => exact order.bind name h
  | setMember _ c name m order => exact order.setMember c name m

end World
end Wiring
