import Wiring.Proofs.Class.Ancestry
import Wiring.Proofs.Class.Points
import Wiring.Proofs.Object.Seat

/-! The root of all classes. It stands last in every linearization, in every world that declarations
make. The first class that holds a name is thus the first one below the root, if there is one: what
a class has under the name of a point is the marker, which manages no attribute. -/
namespace Wiring

namespace Linearization
variable {α : Type} [DecidableEq α] {lists : List (List α)} {order : List α} {root : α}

def Rooted (root : α) (lists : List (List α)) : Prop :=
  ∀ l ∈ lists, ∀ d ∈ l, d ≠ root → ∃ l' ∈ lists, d ∈ l' ∧ l'.getLast? = some root

theorem Rooted.advance {c : α} (next : next? lists = some c) (rooted : Rooted root lists) :
    Rooted root (advance c lists) := by
  intro l mem d held other
  obtain ⟨l₀, listed, before⟩ := mem_of_mem_advance mem held
  obtain ⟨l', listed', within, last⟩ := rooted l₀ listed d before other
  have ne : d ≠ c := by
    rintro rfl
    exact notMem_advance_of_next? next l mem held
  refine ⟨if l'.head? = some c then l'.tail else l', List.mem_map_of_mem listed', ?_⟩
  split
  · rename_i heads
    cases l' with
    | nil => contradiction
    | cons x xs =>
      cases heads
      have later : d ∈ xs := (List.mem_cons.mp within).resolve_left ne
      obtain ⟨y, ys, rfl⟩ := List.exists_cons_of_ne_nil (List.ne_nil_of_mem later)
      exact ⟨later, by simpa [List.getLast?_cons] using last⟩
  · exact ⟨within, last⟩

theorem eq_nil_of_merge (merged : merge lists = some []) : ∀ l ∈ lists, l = [] := by
  unfold merge at merged
  split at merged
  · rename_i empty
    simpa using empty
  · split at merged
    · cases merged
    · obtain ⟨_, _, same⟩ := Option.map_eq_some_iff.mp merged
      cases same

theorem getLast?_merge (rooted : Rooted root lists) (merged : merge lists = some order) :
    order = [] ∨ order.getLast? = some root := by
  fun_induction merge lists generalizing order with
  | case1 =>
    cases merged
    exact .inl rfl
  | case2 => cases merged
  | case3 lists _ c next ih =>
    obtain ⟨rest, walked, rfl⟩ := Option.map_eq_some_iff.mp merged
    rcases ih (rooted.advance next) walked with rfl | last
    · -- Nothing comes after, so that the list in which this one stands before the root has no more.
      have ended := eq_nil_of_merge walked
      suffices c = root by simp [this]
      by_contra other
      obtain ⟨l, listed, heads⟩ := List.mem_filterMap.mp (List.mem_of_find?_eq_some next)
      obtain ⟨l', listed', within, last⟩ := rooted l listed c (List.mem_of_mem_head? heads) other
      have none := ended _ (List.mem_map_of_mem listed')
      split at none
      · rename_i front
        cases l' with
        | nil => contradiction
        | cons x xs =>
          cases front
          simp_all
      · simp [none] at within
    · obtain ⟨y, ys, rfl⟩ := List.exists_cons_of_ne_nil (l := rest) (by rintro rfl; cases last)
      exact .inr (by simpa [List.getLast?_cons] using last)

end Linearization

namespace ClassInfo

def Rooted (info : ClassInfo) : Prop := info.linearization.getLast? = some (.builtin .object)

end ClassInfo

theorem Builtin.rooted (b : Builtin) : b.info.Rooted := by cases b <;> rfl

namespace World
variable {w : World} {s : Settings} {c k : ClassRef}

def Rooted (w : World) : Prop := ∀ c, (w.info c).Rooted

theorem rooted_of_classes (each : ∀ info ∈ w.classes, info.Rooted) : w.Rooted := by
  intro c
  cases c with
  | builtin b => exact b.rooted
  | declared n =>
    cases found : w.classes[n]? with
    | none => simpa [World.info, found] using Builtin.object.rooted
    | some info => simpa [World.info, found] using each info (List.mem_of_getElem? found)

namespace Rooted

theorem of_mem (rooted : w.Rooted) {info : ClassInfo} (mem : info ∈ w.classes) : info.Rooted := by
  obtain ⟨n, found⟩ := List.mem_iff_getElem?.mp mem
  simpa [World.info, found] using rooted (.declared n)

theorem append (rooted : w.Rooted) {info : ClassInfo} (added : info.Rooted) :
    Rooted { w with classes := w.classes ++ [info] } := by
  apply rooted_of_classes
  intro info' mem
  rcases List.mem_append.mp mem with old | new
  · exact rooted.of_mem old
  · cases List.mem_singleton.mp new
    exact added

theorem bind (rooted : w.Rooted) (name : String) (h : Hint) : (w.bind name h).Rooted :=
  rooted_of_classes fun _ mem => rooted.of_mem mem

theorem setMember (rooted : w.Rooted) (c : ClassRef) (name : String) (m : Member) :
    (w.setMember c name m).Rooted := by
  cases c with
  | builtin b => exact rooted
  | declared n =>
    apply rooted_of_classes
    intro info mem
    obtain ⟨i, found⟩ := List.mem_iff_getElem?.mp mem
    simp only [World.setMember, List.getElem?_modify] at found
    obtain ⟨old, held, rfl⟩ := Option.map_eq_some_iff.mp found
    have kept := rooted.of_mem (List.mem_of_getElem? held)
    split <;> exact kept

theorem merge (rooted : w.Rooted) (inherits : w.Inherits) {bases line : List ClassRef}
    (known : ∀ k ∈ bases, w.Knows k) (nonempty : bases ≠ [])
    (merged : Linearization.merge (bases.map w.linearization ++ [bases]) = some line) :
    line.getLast? = some (.builtin .object) := by
  have within : Linearization.Rooted (.builtin .object) (bases.map w.linearization ++ [bases]) := by
    intro l listed d held _
    rcases List.mem_append.mp listed with inherited | own
    · obtain ⟨k, _, rfl⟩ := List.mem_map.mp inherited
      exact ⟨_, listed, held, rooted k⟩
    · cases List.mem_singleton.mp own
      refine ⟨w.linearization d, List.mem_append_left _ (List.mem_map_of_mem held), ?_, rooted d⟩
      exact (inherits d (known d held)).own
  refine (Linearization.getLast?_merge within merged).resolve_left ?_
  rintro rfl
  exact nonempty (Linearization.eq_nil_of_merge merged bases (by simp))

theorem declare? (rooted : w.Rooted) (inherits : w.Inherits) {d : ClassDefinition} {after : World}
    (known : ∀ k ∈ d.baseClasses w, w.Knows k) (declared : w.declare? d = some after) :
    after.Rooted := by
  unfold World.declare? at declared
  dsimp only at declared
  split at declared
  · cases declared
  · rename_i line linearized
    obtain ⟨rest, merged, rfl⟩ := Option.map_eq_some_iff.mp linearized
    have nonempty : d.baseClasses w ≠ [] := by
      unfold ClassDefinition.baseClasses
      split
      · simp
      · assumption
    have last := rooted.merge inherits known nonempty merged
    have added (info : ClassInfo)
        (line : info.linearization = .declared w.classes.length :: rest) : info.Rooted := by
      rw [ClassInfo.Rooted, line, List.getLast?_cons, last]
      rfl
    cases declared
    split
    · exact rooted.append (added _ rfl)
    · exact (rooted.append (added _ rfl)).bind _ _

end Rooted

theorem classes_foldl {α : Type} {f : World → α → World}
    (respects : ∀ {w w' : World} (a : α), w'.classes = w.classes →
      (f w' a).classes = (f w a).classes)
    (as : List α) {w w' : World} (same : w'.classes = w.classes) :
    (as.foldl f w').classes = (as.foldl f w).classes := by
  induction as generalizing w w' with
  | nil => exact same
  | cons a as ih => exact ih (respects a same)

theorem classes_addEverywhere {w w' : World} (same : w'.classes = w.classes) (name : String)
    (bases : List ClassRef) (members : List String) :
    (w'.addEverywhere name bases members).classes =
      (w.addEverywhere name bases members).classes := by
  have line : w'.linearization = w.linearization := by
    funext c
    cases c <;> simp [World.linearization, World.info, same]
  simp [World.addEverywhere, same, line]

theorem classes_start (moduleName : String) : (start moduleName).classes = (start "").classes := by
  -- The tables are left general, since nothing is gained by walking through them.
  unfold start
  dsimp only
  generalize errorClasses ++ [("Exception", ["ExceptionGroup"])] = groups
  generalize furtherClasses = further
  apply classes_foldl
  · intro w w' entry same
    exact classes_addEverywhere same _ _ _
  have new : World.classes { moduleName } = World.classes { moduleName := "" } := rfl
  refine classes_foldl ?_ groups new
  intro w w' group same
  refine classes_foldl ?_ group.2 same
  intro w w' name same
  have bases : w'.errorBases group.1 name = w.errorBases group.1 name := by
    have found : w'.everywhereClass? = w.everywhereClass? := by
      funext name
      simp [everywhereClass?, same]
    simp [errorBases, found]
  rw [bases]
  exact classes_addEverywhere same _ _ _

theorem rooted_start (moduleName : String) : (start moduleName).Rooted := by
  have each : ∀ info ∈ (start "").classes,
      info.linearization.getLast? = some (.builtin .object) := by
    decide +kernel
  apply rooted_of_classes
  rw [classes_start]
  exact each

theorem Declared.rooted (made : w.Declared) : w.Rooted := by
  induction made with
  | start moduleName => exact rooted_start moduleName
  | declare made known declared rooted => exact rooted.declare? made.inherits known declared
  | bind _ name h rooted => exact rooted.bind name h
  | setMember _ c name m rooted => exact rooted.setMember c name m

/-- The first class below the root that holds a name is the first that holds it at all. -/
theorem member?_of_definingClass? (order : w.WellFormed) (rooted : w.Rooted) {name : String}
    {held : Member} (defines : w.definingClass? c name = some k)
    (own : w.ownMember? k name = some held) : w.member? c name = some (k, held) := by
  obtain ⟨line, parts⟩ := List.getLast?_eq_some_iff.mp (rooted c)
  have parts : w.linearization c = line ++ [.builtin .object] := parts
  have hierarchy : w.hierarchy c = line := by
    have distinct := order.line_nodup c
    rw [parts, List.nodup_append] at distinct
    rw [World.hierarchy, parts, List.filter_append]
    simpa using fun k mem => distinct.2.2 k mem _ List.mem_cons_self
  rw [definingClass?, hierarchy] at defines
  obtain ⟨-, front, back, rfl, before⟩ := List.find?_eq_some_iff_append.mp defines
  have missing : front.findSome? (fun k => (w.ownMember? k name).map (k, ·)) = none := by
    rw [List.findSome?_eq_none_iff]
    intro k mem
    simpa using before k mem
  rw [member?, parts, List.append_assoc, List.findSome?_append, missing]
  simp [own]

/-- What a class has under the name of a field that is injected manages no attribute. -/
theorem plain_of_point (made : w.Declared) {m : Metadata} (scanned : w.metadata s c = .ok m)
    {p : InjectionPoint} (mem : p ∈ m.points) (field : p.kind = .field) : w.Plain c p.name := by
  have spot : (p.declaredBy, p.kind, p.name) ∈ m.points.map InjectionPoint.spot :=
    List.mem_map_of_mem mem
  obtain ⟨defines, held, own, kind⟩ := (mem_spots made.wellFormed scanned).mp spot
  intro entry found
  rw [member?_of_definingClass? made.wellFormed made.rooted defines own] at found
  cases found
  rw [field] at kind
  cases held with
  | marker marker => rfl
  | method f =>
    simp only [Member.pointKind?] at kind
    split at kind
    · cases kind
    · split at kind <;> cases kind
  | _ => cases kind

end World
end Wiring
