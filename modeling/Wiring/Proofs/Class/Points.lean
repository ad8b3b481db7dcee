import Mathlib.Data.List.Forall2
import Mathlib.Data.List.Nodup
import Wiring.Class.Metadata
import Wiring.Proofs.Outcome
import Wiring.Proofs.Class.WellFormed

/-! Which points a class has. A name is a point exactly if the first class that holds it marks it
there; no name is a point twice; and the points stand in the order of their classes, the most
derived last, with fields before methods and both as in the body. -/
namespace Wiring

namespace Member

/-- What a member held under a name is for injection: a recognised marker is a field, and a function
with one is a method, unless it is the initialiser. -/
def pointKind? (s : Settings) (name : String) : Member → Option PointKind
  | .marker m => if s.recognises m then some .field else none
  | .method f =>
    if name = Constructor.initializer then none
    else if (s.find? f.markers).isSome then some .method
    else none
  | _ => none

end Member

namespace InjectionPoint

def spot (p : InjectionPoint) : ClassRef × PointKind × String := (p.declaredBy, p.kind, p.name)

end InjectionPoint

namespace World

open InjectionPoint (spot)

variable {w : World} {s : Settings} {c k : ClassRef}

def markedNames (w : World) (s : Settings) (kind : PointKind) (k : ClassRef) : List String :=
  Entries.names ((w.info k).members.filter fun (name, m) => m.pointKind? s name == some kind)

def ownNames (w : World) (s : Settings) (c : ClassRef) (kind : PointKind) (k : ClassRef) :
    List String :=
  (w.markedNames s kind k).filter fun name => w.definingClass? c name == some k

theorem markedNames_eq_filterMap (w : World) (s : Settings) (kind : PointKind) (k : ClassRef) :
    w.markedNames s kind k = (w.info k).members.filterMap fun (name, m) =>
      if m.pointKind? s name = some kind then some name else none := by
  unfold markedNames Entries.names
  rw [← List.filterMap_eq_map, List.filterMap_filter]
  congr 1
  funext (name, m)
  simp [beq_iff_eq]

theorem markedFields_names (w : World) (s : Settings) (k : ClassRef) :
    (w.markedFields s k).map (·.1) = w.markedNames s .field k := by
  unfold markedFields
  rw [markedNames_eq_filterMap, List.map_filterMap]
  congr 1
  funext (name, m)
  cases m with
  | marker m => by_cases known : s.recognises m <;> simp [Member.pointKind?, known]
  | method f =>
    simp only [Member.pointKind?]
    split
    · rfl
    · split <;> rfl
  | _ => rfl

theorem declaredFields_names {fields : List FieldDeclaration}
    (declared : w.declaredFields s k = .ok fields) :
    fields.map (·.name) = w.markedNames s .field k := by
  rw [← markedFields_names]
  unfold declaredFields at declared
  dsimp only at declared
  split at declared
  · rename_i empty
    cases declared
    rw [List.isEmpty_iff.mp empty]
    rfl
  · obtain ⟨annotations, _, walked⟩ := Outcome.bind_eq_ok.mp declared
    refine Outcome.map_eq_of_mapM walked fun (name, marker) field made => ?_
    dsimp only at made
    split at made
    · cases made
      rfl
    · cases made

theorem declaredMethod_name {name : String} {m : Member} {declared : Option MethodDeclaration}
    (made : w.declaredMethod s k (name, m) = .ok declared) :
    declared.map (·.name) = if m.pointKind? s name = some .method then some name else none := by
  cases m with
  | staticMethod f =>
    simp only [declaredMethod] at made
    split at made
    · cases made
    · cases made
      rfl
  | method f =>
    simp only [declaredMethod] at made
    simp only [Member.pointKind?]
    split at made
    · rename_i first
      cases made
      simp [first]
    · rename_i later
      split at made
      · rename_i plain
        cases made
        simp [later, plain]
      · rename_i marker marked
        obtain ⟨parameters, _, made⟩ := Outcome.bind_eq_ok.mp made
        cases Outcome.pure_eq_ok.mp made
        simp [later, marked]
  | marker m =>
    cases made
    by_cases known : s.recognises m <;> simp [Member.pointKind?, known]
  | _ => cases made; rfl

theorem declaredMethods_names {methods : List MethodDeclaration}
    (declared : w.declaredMethods s k = .ok methods) :
    methods.map (·.name) = w.markedNames s .method k := by
  obtain ⟨found, walked, rfl⟩ := Outcome.map_eq_ok.mp declared
  have names : found.map (Option.map (·.name)) = (w.info k).members.map fun (name, m) =>
      if m.pointKind? s name = some .method then some name else none :=
    Outcome.map_eq_of_mapM walked fun (name, m) _ made => declaredMethod_name made
  rw [markedNames_eq_filterMap, List.map_filterMap]
  have same := congrArg (List.filterMap id) names
  simpa [List.filterMap_map, Function.comp_def] using same

theorem declarations_names {own : Declarations} (declared : w.declarations s k = .ok own) :
    own.owner = k ∧ own.fields.map (·.name) = w.markedNames s .field k ∧
      own.methods.map (·.name) = w.markedNames s .method k := by
  obtain ⟨fields, hfields, declared⟩ := Outcome.bind_eq_ok.mp declared
  obtain ⟨methods, hmethods, declared⟩ := Outcome.bind_eq_ok.mp declared
  cases Outcome.pure_eq_ok.mp declared
  exact ⟨rfl, declaredFields_names hfields, declaredMethods_names hmethods⟩

def ownSpots (w : World) (s : Settings) (c k : ClassRef) : List (ClassRef × PointKind × String) :=
  (w.ownNames s c .field k).map (k, .field, ·) ++ (w.ownNames s c .method k).map (k, .method, ·)

theorem ofField_spot {σ : Bindings} {f : FieldDeclaration} {p : InjectionPoint}
    (made : (InjectionPoint.ofField s σ k f).mapError Error.ofFormation = .ok p) :
    p.spot = (k, .field, f.name) := by
  obtain ⟨request, _, made⟩ := Outcome.bind_eq_ok.mp (Outcome.mapError_eq_ok.mp made)
  cases Outcome.pure_eq_ok.mp made
  rfl

theorem ofMethod_spot {σ : Bindings} {m : MethodDeclaration} {p : InjectionPoint}
    (made : InjectionPoint.ofMethod w s σ k m = .ok p) : p.spot = (k, .method, m.name) := by
  unfold InjectionPoint.ofMethod at made
  dsimp only at made
  split at made
  · cases made
  · obtain ⟨requests, _, made⟩ := Outcome.bind_eq_ok.mp made
    cases Outcome.pure_eq_ok.mp made
    rfl

theorem pointsOf_spots {own : Declarations} {points : List InjectionPoint}
    (declared : w.declarations s k = .ok own) (made : w.pointsOf s c own = .ok points) :
    points.map spot = w.ownSpots s c k := by
  obtain ⟨rfl, fieldNames, methodNames⟩ := declarations_names declared
  obtain ⟨σ, _, made⟩ := Outcome.bind_eq_ok.mp made
  obtain ⟨fieldPoints, fields, made⟩ := Outcome.bind_eq_ok.mp made
  obtain ⟨methodPoints, methods, made⟩ := Outcome.bind_eq_ok.mp made
  cases Outcome.pure_eq_ok.mp made
  have fieldSpots := Outcome.map_eq_of_mapM fields fun f p made => ofField_spot made
  have methodSpots := Outcome.map_eq_of_mapM methods fun m p made => ofMethod_spot made
  unfold ownSpots ownNames
  rw [List.map_append, fieldSpots, methodSpots, ← fieldNames, ← methodNames, List.filter_map,
    List.filter_map, List.map_map, List.map_map]
  rfl

theorem pointsOf_line_spots {line : List ClassRef} {bodies : List Declarations}
    {points : List (List InjectionPoint)} (declared : line.mapM (w.declarations s) = .ok bodies)
    (made : bodies.mapM (w.pointsOf s c) = .ok points) :
    points.map (List.map spot) = line.map (w.ownSpots s c) := by
  have read := Outcome.mapM_eq_ok.mp declared
  have found := Outcome.mapM_eq_ok.mp made
  clear declared made
  induction read generalizing points with
  | nil => cases found; rfl
  | cons body _ ih =>
    cases found with
    | cons here found => rw [List.map_cons, List.map_cons, pointsOf_spots body here, ih found]

theorem metadata_spots {m : Metadata} (scanned : w.metadata s c = .ok m) :
    m.points.map spot = (w.hierarchy c).reverse.flatMap (w.ownSpots s c) := by
  obtain ⟨bodies, declared, scanned⟩ := Outcome.bind_eq_ok.mp scanned
  obtain ⟨points, made, scanned⟩ := Outcome.bind_eq_ok.mp scanned
  cases Outcome.pure_eq_ok.mp scanned
  rw [List.map_flatten, List.map_reverse, pointsOf_line_spots declared made, ← List.map_reverse,
    List.flatMap_def]

theorem definingClass?_mem {name : String} (defines : w.definingClass? c name = some k) :
    k ∈ w.hierarchy c :=
  List.mem_of_find?_eq_some defines

theorem mem_ownNames (order : w.WellFormed) {kind : PointKind} {name : String} :
    name ∈ w.ownNames s c kind k ↔ w.definingClass? c name = some k ∧
      ∃ m, w.ownMember? k name = some m ∧ m.pointKind? s name = some kind := by
  have held (m : Member) :
      (w.info k).members.lookup name = some m ↔ (name, m) ∈ (w.info k).members :=
    Entries.lookup_iff_mem (order.names_nodup k)
  unfold ownNames markedNames ownMember?
  simp only [held]
  simp only [Entries.names, List.mem_filter, List.mem_map, beq_iff_eq, Prod.exists,
    exists_and_right, exists_eq_right]
  exact and_comm

theorem mem_ownSpots {kind : PointKind} {name : String} {owner : ClassRef} :
    (owner, kind, name) ∈ w.ownSpots s c k ↔ owner = k ∧ name ∈ w.ownNames s c kind k := by
  unfold ownSpots
  cases kind <;> simp [eq_comm, and_comm]

/-- A point of a kind stands at a name in a class exactly if this class is the first that holds the
name, and marks it so. -/
theorem mem_spots (order : w.WellFormed) {m : Metadata} (scanned : w.metadata s c = .ok m)
    {kind : PointKind} {name : String} :
    (k, kind, name) ∈ m.points.map spot ↔ w.definingClass? c name = some k ∧
      ∃ held, w.ownMember? k name = some held ∧ held.pointKind? s name = some kind := by
  rw [metadata_spots scanned, List.mem_flatMap]
  simp only [mem_ownSpots, mem_ownNames order, List.mem_reverse]
  constructor
  · rintro ⟨_, _, rfl, found⟩
    exact found
  · intro found
    exact ⟨k, definingClass?_mem found.1, rfl, found⟩

/-- One spot comes before another: its class is less derived, or in the same class it is a field
before a method, or of the same kind and earlier in the body. -/
def Before (w : World) (c : ClassRef) (a b : ClassRef × PointKind × String) : Prop :=
  (w.hierarchy c).idxOf b.1 < (w.hierarchy c).idxOf a.1 ∨
    a.1 = b.1 ∧ (a.2.1 = .field ∧ b.2.1 = .method ∨ a.2.1 = b.2.1 ∧
      (w.info a.1).members.names.idxOf a.2.2 < (w.info a.1).members.names.idxOf b.2.2)

theorem pairwise_idxOf {α : Type} [DecidableEq α] {xs : List α} (distinct : xs.Nodup) :
    xs.Pairwise fun a b => xs.idxOf a < xs.idxOf b := by
  rw [List.pairwise_iff_getElem]
  intro i j hi hj before
  rw [distinct.idxOf_getElem i hi, distinct.idxOf_getElem j hj]
  exact before

theorem hierarchy_nodup (order : w.WellFormed) (c : ClassRef) : (w.hierarchy c).Nodup :=
  (order.line_nodup c).filter _

theorem ownNames_pairwise (order : w.WellFormed) (kind : PointKind) :
    (w.ownNames s c kind k).Pairwise fun a b =>
      (w.info k).members.names.idxOf a < (w.info k).members.names.idxOf b := by
  have body := pairwise_idxOf (order.names_nodup k)
  have marked : (w.markedNames s kind k).Sublist (w.info k).members.names :=
    List.filter_sublist.map _
  exact body.sublist (List.filter_sublist.trans marked)

theorem ownSpots_pairwise (order : w.WellFormed) (s : Settings) (c k : ClassRef) :
    (w.ownSpots s c k).Pairwise (w.Before c) := by
  have inBody (kind : PointKind) :
      ((w.ownNames s c kind k).map (k, kind, ·)).Pairwise (w.Before c) := by
    refine List.Pairwise.map _ (fun a b before => ?_) (ownNames_pairwise order kind)
    exact .inr ⟨rfl, .inr ⟨rfl, before⟩⟩
  refine List.pairwise_append.mpr ⟨inBody .field, inBody .method, ?_⟩
  intro a fields b methods
  obtain ⟨_, _, rfl⟩ := List.mem_map.mp fields
  obtain ⟨_, _, rfl⟩ := List.mem_map.mp methods
  exact .inr ⟨rfl, .inl ⟨rfl, rfl⟩⟩

theorem spots_pairwise (order : w.WellFormed) {m : Metadata} (scanned : w.metadata s c = .ok m) :
    (m.points.map spot).Pairwise (w.Before c) := by
  rw [metadata_spots scanned, List.pairwise_flatMap]
  refine ⟨fun k _ => ownSpots_pairwise order s c k, ?_⟩
  -- The hierarchy starts with the most derived class, and the points end with its own.
  rw [List.pairwise_reverse]
  refine (pairwise_idxOf (hierarchy_nodup order c)).imp fun before => ?_
  intro a later b earlier
  obtain ⟨rfl, _⟩ := mem_ownSpots.mp later
  obtain ⟨rfl, _⟩ := mem_ownSpots.mp earlier
  exact .inl before

theorem names_differ_of_before (order : w.WellFormed) {m : Metadata}
    (scanned : w.metadata s c = .ok m) {a b : ClassRef × PointKind × String}
    (first : a ∈ m.points.map spot) (second : b ∈ m.points.map spot) (before : w.Before c a b) :
    a.2.2 ≠ b.2.2 := by
  intro same
  obtain ⟨k, kind, name⟩ := a
  obtain ⟨k', kind', name'⟩ := b
  cases same
  obtain ⟨defines, held, member, known⟩ := (mem_spots order scanned).mp first
  obtain ⟨defines', held', member', known'⟩ := (mem_spots order scanned).mp second
  -- A name has one first class and there one kind, so the two spots would be the same.
  cases defines.symm.trans defines'
  cases member.symm.trans member'
  cases known.symm.trans known'
  rcases before with before | ⟨_, ⟨field, method⟩ | ⟨_, before⟩⟩
  · exact Nat.lt_irrefl _ before
  · cases field.symm.trans method
  · exact Nat.lt_irrefl _ before

theorem names_nodup (order : w.WellFormed) {m : Metadata} (scanned : w.metadata s c = .ok m) :
    (m.points.map (·.name)).Nodup := by
  have distinct : ((m.points.map spot).map (·.2.2)).Nodup := by
    refine List.Pairwise.map _ (fun _ _ differ => differ) ?_
    exact (spots_pairwise order scanned).imp_of_mem fun first second =>
      names_differ_of_before order scanned first second
  simpa [List.map_map, Function.comp_def, spot] using distinct

theorem requests_of_field {m : Metadata} (scanned : w.metadata s c = .ok m) {p : InjectionPoint}
    (mem : p ∈ m.points) (field : p.kind = .field) : ∃ q, p.requests = [q] := by
  obtain ⟨bodies, _, scanned⟩ := Outcome.bind_eq_ok.mp scanned
  obtain ⟨points, made, scanned⟩ := Outcome.bind_eq_ok.mp scanned
  cases Outcome.pure_eq_ok.mp scanned
  obtain ⟨ownPoints, listed, mem⟩ := List.mem_flatten.mp mem
  obtain ⟨own, _, made⟩ := Outcome.exists_of_mem_mapM made (List.mem_reverse.mp listed)
  obtain ⟨σ, _, made⟩ := Outcome.bind_eq_ok.mp made
  obtain ⟨fieldPoints, fields, made⟩ := Outcome.bind_eq_ok.mp made
  obtain ⟨methodPoints, methods, made⟩ := Outcome.bind_eq_ok.mp made
  cases Outcome.pure_eq_ok.mp made
  rcases List.mem_append.mp mem with mem | mem
  · obtain ⟨f, _, made⟩ := Outcome.exists_of_mem_mapM fields mem
    obtain ⟨q, _, made⟩ := Outcome.bind_eq_ok.mp (Outcome.mapError_eq_ok.mp made)
    cases Outcome.pure_eq_ok.mp made
    exact ⟨q, rfl⟩
  · obtain ⟨f, _, made⟩ := Outcome.exists_of_mem_mapM methods mem
    have kind : p.kind = .method := congrArg (·.2.1) (ofMethod_spot made)
    rw [field] at kind
    cases kind

/-- The points of a class are exactly those its hierarchy marks, one for each name, and they stand
from the least to the most derived class, in each with fields before methods, and both as in the
body. -/
theorem metadata_points (order : w.WellFormed) {m : Metadata} (scanned : w.metadata s c = .ok m) :
    (∀ k kind name, (∃ p ∈ m.points, p.name = name ∧ p.declaredBy = k ∧ p.kind = kind) ↔
      w.definingClass? c name = some k ∧
        ∃ held, w.ownMember? k name = some held ∧ held.pointKind? s name = some kind) ∧
    (m.points.map (·.name)).Nodup ∧
    m.points.Pairwise fun p q => w.Before c p.spot q.spot := by
  have sorted := spots_pairwise order scanned
  refine ⟨fun k kind name => ?_, names_nodup order scanned, List.pairwise_map.mp sorted⟩
  rw [← mem_spots order scanned, List.mem_map]
  refine exists_congr fun p => and_congr_right fun _ => ?_
  simp only [spot, Prod.mk.injEq]
  tauto

end World

/-! A class with two bases that share one. It gets the field of the shared base, and of its two
methods only the one that a further base marks again. -/
namespace Diamond

def marked : Marker := Marker.make .autowired

def setter (name owner : String) (markers : List Marker) : Function where
  name := name
  owner := owner
  parameters := [{ name := "part", type := some (.cls (.builtin .int)) }]
  markers := markers

def house : World where
  moduleName := "house"
  classes := [
    { name := "Base", qualifiedName := "Base", bases := [.builtin .object]
      linearization := [.declared 0, .builtin .object]
      members := [("set_lamp", .method (setter "set_lamp" "Base" [marked])),
        ("set_bell", .method (setter "set_bell" "Base" [marked])), ("lock", .marker marked)]
      annotations := [("lock", .cls (.builtin .str))] },
    { name := "Left", qualifiedName := "Left", bases := [.declared 0]
      linearization := [.declared 1, .declared 0, .builtin .object]
      members := [("set_lamp", .method (setter "set_lamp" "Left" []))] },
    { name := "Right", qualifiedName := "Right", bases := [.declared 0]
      linearization := [.declared 2, .declared 0, .builtin .object]
      members := [("set_bell", .method (setter "set_bell" "Right" [marked])),
        ("door", .marker marked)]
      annotations := [("door", .cls (.builtin .str))] },
    { name := "Both", qualifiedName := "Both", bases := [.declared 1, .declared 2]
      linearization := [.declared 3, .declared 1, .declared 2, .declared 0, .builtin .object]
      members := [("set_roof", .method (setter "set_roof" "Both" [marked]))] }]

theorem house_wellFormed : house.WellFormed := by
  apply World.wellFormed_of_classes
  intro info mem
  refine ⟨?_, ?_, ?_⟩
  · revert info
    decide
  · revert info
    simp [house]
  · revert info
    decide +kernel

theorem house_points : ∃ m, house.metadata {} (.declared 3) = .ok m ∧
    m.points.map (·.name) = ["lock", "door", "set_bell", "set_roof"] ∧
    (∃ p ∈ m.points, p.name = "set_bell" ∧ p.declaredBy = .declared 2 ∧ p.kind = .method) ∧
    (m.points.map (·.name)).Nodup ∧
    m.points.Pairwise fun p q => house.Before (.declared 3) p.spot q.spot := by
  have scanned : house.metadata {} (.declared 3) =
      .ok ((house.metadata {} (.declared 3)).toOption.getD default) := by rfl
  obtain ⟨marks, distinct, sorted⟩ := World.metadata_points house_wellFormed scanned
  exact ⟨_, scanned, by rfl, (marks _ _ _).mpr ⟨by rfl, _, by rfl, by rfl⟩, distinct, sorted⟩

end Diamond
end Wiring
