import Mathlib
import Wiring.Proofs.Registry.Collection
import Wiring.Proofs.Registry.Identity
import Wiring.Proofs.Registry.Packaging

/-! The containers in which several components are received. Requests for a list, a tuple and a
mapping by name find the same candidates and fetch the same components, and differ in what these are
put into. The mapping keeps one entry for each name, so that it holds as much as the list exactly if
the names of the candidates differ. -/
namespace Wiring

namespace Request

/-- The two requests find the same candidates in the store, or neither of them is answered. -/
def Alike (registry : String) (st : Store) (a b : Request) : Prop :=
  (∀ cs, st.resolve registry a = .ok (.values cs) ↔ st.resolve registry b = .ok (.values cs)) ∧
    ∀ e, st.resolve registry a = .error e ↔ st.resolve registry b = .error e

theorem multiple_eq_values {q : Request} {s : Settings} {taken cs : List Candidate} :
    q.multiple s taken = .values cs ↔ taken ≠ [] ∧
      (if s.orderByPriority then taken.mergeSort Candidate.before else taken) = cs := by
  unfold multiple nothing
  cases taken with
  | nil => by_cases required : q.required <;> simp [required]
  | cons c taken => simp

theorem alike {registry : String} {a b : Request} (type : a.type = b.type)
    (qualifier : a.qualifier = b.qualifier) (many : a.cardinality.isMultiple)
    (several : b.cardinality.isMultiple) (st : Store) : Alike registry st a b := by
  simp only [Alike, Store.resolve, Registry.resolve_eq_map,
    Registry.matching_congr type qualifier, answer_of_multiple many, answer_of_multiple several]
  cases (st.registry registry).matching st.world st.heap b with
  | error e => simp [Except.map]
  | ok taken => simp [Except.map, multiple_eq_values]

end Request

namespace Registry.Recorded
variable {title : String} {start finish : Store} {history : List Registered} {r : Registry}

/-- A collection holds each candidate once. Two of them have the same name only if one is an entry for
a type. -/
theorem names_of_collection (recorded : Recorded title start finish history r) {s : Settings}
    {w : World} {h : Heap} {q : Request} {cs : List Candidate} (many : q.cardinality.isMultiple)
    (resolved : r.resolve s w h q = .ok (.values cs)) :
    (cs.map (·.name)).Nodup ↔
      ∀ c ∈ cs, c.resolvable → ∀ other ∈ cs, other.name = c.name → other = c := by
  obtain ⟨taken, matching, answer⟩ := Outcome.bind_eq_ok.mp resolved
  obtain ⟨eligible, lookup, -⟩ := Outcome.bind_eq_ok.mp matching
  have lookup := Outcome.mapError_eq_ok.mp lookup
  obtain ⟨inOrder, -⟩ := recorded.eligible_sublist lookup
  obtain ⟨-, rfl⟩ := (matching_eq_ok lookup).mp matching
  have listed := (q.best_sublist w eligible).trans inOrder
  simp only [many, if_true] at answer
  have answer : q.multiple s (q.best w eligible) = .values cs := Outcome.pure_eq_ok.mp answer
  obtain ⟨found, same, perm, distinct, -⟩ := Request.multiple_of_ne (q := q) (s := s)
    (Request.multiple_eq_values.mp answer).1 (recorded.pairwise_index.sublist listed)
  cases same.symm.trans answer
  have registered {c : Candidate} (mem : c ∈ cs) : ∃ e ∈ history, e.candidate = c :=
    List.mem_map.mp (listed.subset (perm.subset mem))
  rw [List.nodup_map_iff_inj_on distinct]
  constructor
  · intro apart c mem _ other listed same
    exact apart other listed c mem same
  · intro own c mem other listed same
    by_contra differ
    obtain ⟨e, first, rfl⟩ := registered mem
    obtain ⟨e', second, rfl⟩ := registered listed
    rcases recorded.forType_of_same_name first second same.symm (Ne.symm differ) with
      forType | forType
    · exact differ (own _ mem forType _ listed same.symm).symm
    · exact differ (own _ listed forType _ mem same)

end Registry.Recorded

namespace Run
variable {registry : String} {cs : List Candidate} {vs : List Value} {st after : Store}

theorem held_of_mapM (got : exec (cs.mapM (getComponent registry)) st = (.ok vs, after)) :
    List.Forall₂ (fun c v => (after.registry registry).instances.lookup c.name = some v) cs vs := by
  induction cs generalizing st vs with
  | nil =>
    cases got
    exact .nil
  | cons c cs ih =>
    rw [List.mapM_cons] at got
    obtain ⟨v, next, first, got⟩ := exec_bind_eq_ok.mp got
    obtain ⟨rest, last, later, got⟩ := exec_bind_eq_ok.mp got
    cases got
    have grown : next.Grows after := by
      have quiet := Keeps.mapM (R := Store.Grows) (quiet_getComponent registry) cs next
      rwa [later] at quiet
    exact .cons ((grown.registry registry).kept _ _ (held_of_getComponent first)) (ih later)

theorem mapM_of_held (held : List.Forall₂
    (fun c v => (st.registry registry).instances.lookup c.name = some v) cs vs) :
    exec (cs.mapM (getComponent registry)) st = (.ok vs, st) := by
  induction held with
  | nil => rfl
  | cons here _ ih =>
    rw [List.mapM_cons, exec_bind_of_ok (getComponent_of_held here), exec_bind_of_ok ih, exec_pure]

theorem exec_materialise_values {q : Request} (many : q.cardinality.isMultiple) :
    materialise perform registry q (.values cs) =
      q.container cs <$> cs.mapM (getComponent registry) := by
  have present : q.isLazy = false := by
    cases sort : q.cardinality <;> simp_all [Request.isLazy, Cardinality.isMultiple]
  rw [materialise, present]
  exact bind_pure_comp _ _

/-- From the store, requests for a collection that found the candidates receive their components: in
a list, a tuple, or a mapping with an entry for each name, where it comes first. In the end each
candidate's component is at hand. -/
structure Shares (registry : String) (cs : List Candidate) (st : Store) (vs : List Value)
    (es : Entries Value) (after : Store) : Prop where
  list : ∀ q : Request, q.cardinality = .orderedList →
    exec (materialise perform registry q (.values cs)) st = (.ok (.list vs), after)
  tuple : ∀ q : Request, q.cardinality = .array →
    exec (materialise perform registry q (.values cs)) st = (.ok (.tuple vs), after)
  mapping : ∀ q : Request, q.cardinality = .nameKeyedMap →
    exec (materialise perform registry q (.values cs)) st = (.ok (.dict es), after)
  own : List.Forall₂ (fun c v => exec (getComponent registry c) after = (.ok v, after)) cs vs
  names : es.names = (cs.map (·.name)).eraseDups
  entries : ∀ c v, (c, v) ∈ cs.zip vs → es.lookup c.name = some v

theorem shares_of_mapM (got : exec (cs.mapM (getComponent registry)) st = (.ok vs, after)) :
    Shares registry cs st vs (Entries.ofList ((cs.map (·.name)).zip vs)) after := by
  have held := held_of_mapM got
  have keys : ((cs.map (·.name)).zip vs).map (·.1) = cs.map (·.name) :=
    List.map_fst_zip (by simp [held.length_eq])
  have received {q : Request} (many : q.cardinality.isMultiple) :
      exec (materialise perform registry q (.values cs)) st = (.ok (q.container cs vs), after) := by
    rw [exec_materialise_values many, map_eq_pure_bind, exec_bind_of_ok got]
    rfl
  have found {c : Candidate} {v : Value} (mem : (c, v) ∈ cs.zip vs) :
      (after.registry registry).instances.lookup c.name = some v :=
    (List.forall₂_iff_zip.mp held).2 mem
  refine {
    list := fun q sort => ?_
    tuple := fun q sort => ?_
    mapping := fun q sort => ?_
    own := held.imp fun _ _ here => getComponent_of_held here
    names := by rw [Entries.names_ofList, keys]
    entries := fun c v mem => ?_ }
  · rw [received (by rw [sort]; rfl), Request.container, sort]
  · rw [received (by rw [sort]; rfl), Request.container, sort]
  · rw [received (by rw [sort]; rfl), Request.container, sort]
  · refine Entries.lookup_ofList (f := fun name => (after.registry registry).instances.lookup name) ?_ ?_
    · intro name x listed
      rw [List.zip_map_left, List.mem_map] at listed
      obtain ⟨⟨c', x'⟩, pair, same⟩ := listed
      cases same
      exact found pair
    · rw [List.zip_map_left, List.mem_map]
      exact ⟨(c, v), mem, rfl⟩

/-- In every registry that operations lead to, requests for a list, a tuple and a mapping of the same
type with the same qualifier find the same candidates. They either receive the same components, which
are the candidates' own and are received again whenever they are asked for, or fail with the same
error. The mapping has an entry for each element, in order, exactly if the names of the candidates
differ, and they do unless one of them is an entry for a type and has the name of another. -/
theorem containers_agree {title : String} {operations : List (String × Operation)}
    {history : List Registered} {now : Store} {a b m : Request} (empty : st.registry title = {})
    (ran : Operation.runAll title operations st = (history, now))
    (list : a.cardinality = .orderedList) (tuple : b.cardinality = .array)
    (mapping : m.cardinality = .nameKeyedMap) (types : b.type = a.type ∧ m.type = a.type)
    (qualifiers : b.qualifier = a.qualifier ∧ m.qualifier = a.qualifier) :
    Request.Alike title now b a ∧ Request.Alike title now m a ∧
      ∀ cs, now.resolve title a = .ok (.values cs) →
        ((∃ vs es after, Shares title cs now vs es after ∧ Shares title cs after vs es after ∧
          (es = (cs.map (·.name)).zip vs ↔ (cs.map (·.name)).Nodup)) ∨
        ∃ e after, ∀ q ∈ [a, b, m],
          exec (materialise perform title q (.values cs)) now = (.error e, after)) ∧
        ((cs.map (·.name)).Nodup ↔
          ∀ c ∈ cs, c.resolvable → ∀ other ∈ cs, other.name = c.name → other = c) := by
  have many : a.cardinality.isMultiple := by rw [list]; rfl
  have severalB : b.cardinality.isMultiple := by rw [tuple]; rfl
  have severalM : m.cardinality.isMultiple := by rw [mapping]; rfl
  refine ⟨Request.alike types.1 qualifiers.1 severalB many now,
    Request.alike types.2 qualifiers.2 severalM many now, fun cs resolved => ⟨?_, ?_⟩⟩
  · rcases got : exec (cs.mapM (getComponent title)) now with ⟨e | vs, after⟩
    · refine .inr ⟨e, after, fun q mem => ?_⟩
      have several : q.cardinality.isMultiple := by
        simp only [List.mem_cons, List.not_mem_nil, or_false] at mem
        rcases mem with rfl | rfl | rfl <;> assumption
      rw [exec_materialise_values several, map_eq_pure_bind]
      exact exec_bind_of_error got _
    · have shares := shares_of_mapM got
      have held := held_of_mapM got
      have keys : ((cs.map (·.name)).zip vs).map (·.1) = cs.map (·.name) :=
        List.map_fst_zip (by simp [held.length_eq])
      refine .inl ⟨vs, _, after, shares, shares_of_mapM (mapM_of_held held), ?_, ?_⟩
      · intro whole
        have distinct := Entries.nodup_ofList ((cs.map (·.name)).zip vs)
        rwa [whole, Entries.names, keys] at distinct
      · intro distinct
        exact Entries.ofList_eq_self (by rwa [keys])
  · exact ((evolves_runAll ran).recorded empty).names_of_collection many resolved

end Run

/-! A rack of lamps that are made when they are asked for. Two that are put up for the type share a
name, and a mapping has room for one of them. -/
namespace Rack
open Run

def lamp : ClassInfo where
  name := "Lamp"
  qualifiedName := "Lamp"
  bases := [.builtin .object]
  linearization := [.declared 0, .builtin .object]

def store : Store where
  world := { moduleName := "rack", classes := [lamp] }
  heap := [{ cls := .declared 0 }, { cls := .declared 0 }]

def maker : Provider := .cls (.declared 0)

def making (name : String) (index : Nat) : Candidate where
  name := name
  declaredType := .cls (.declared 0)
  index := index

def pair : List Candidate := [making "left" 0, making "right" 1]

def makers : List (String × Operation) :=
  pair.map fun c => ("main", .registerProvider c.name maker {})

def stocked : Store :=
  { store with registries := [("main", {
      entries := pair, providers := pair.map fun c => (c.name, maker) })] }

def lamps (cardinality : Cardinality) : Request where
  type := .cls (.declared 0)
  cardinality := cardinality

theorem pair_shared : stocked.resolve "main" (lamps .nameKeyedMap) = .ok (.values pair) ∧
    ∃ after,
      exec (materialise perform "main" (lamps .orderedList) (.values pair)) stocked =
        (.ok (.list [.object 2, .object 3]), after) ∧
      exec (materialise perform "main" (lamps .array) (.values pair)) after =
        (.ok (.tuple [.object 2, .object 3]), after) ∧
      exec (materialise perform "main" (lamps .nameKeyedMap) (.values pair)) after =
        (.ok (.dict [("left", .object 2), ("right", .object 3)]), after) := by
  have ran : Operation.runAll "main" makers store = (pair.map (⟨·, .made maker⟩), stocked) := rfl
  have found : stocked.resolve "main" (lamps .orderedList) = .ok (.values pair) := by cbv
  obtain ⟨-, alike, law⟩ := containers_agree (a := lamps .orderedList) (b := lamps .array)
    (m := lamps .nameKeyedMap) rfl ran rfl rfl rfl ⟨rfl, rfl⟩ ⟨rfl, rfl⟩
  refine ⟨(alike.1 pair).mpr found, ?_⟩
  have listed : exec (materialise perform "main" (lamps .orderedList) (.values pair)) stocked =
      (.ok (.list [.object 2, .object 3]),
        (exec (materialise perform "main" (lamps .orderedList) (.values pair)) stocked).2) := by rfl
  rcases (law pair found).1 with ⟨vs, es, after, shares, again, whole⟩ | ⟨e, after, failed⟩
  · cases (shares.list (lamps .orderedList) rfl).symm.trans listed
    cases whole.mpr (by decide)
    exact ⟨_, listed, again.tuple (lamps .array) rfl, again.mapping (lamps .nameKeyedMap) rfl⟩
  · cases (failed (lamps .orderedList) List.mem_cons_self).symm.trans listed

def hanging (id : Nat) : Registered where
  candidate := {
    name := "Lamp@resolvable", declaredType := .cls (.declared 0), index := id, resolvable := true }
  source := .given (.object id)

def hangers : List (String × Operation) :=
  [0, 1].map fun id => ("main", .registerResolvable (.cls (.declared 0)) (.object id))

def hung : Store := (Operation.runAll "main" hangers store).2

def both : List Candidate := [(hanging 0).candidate, (hanging 1).candidate]

theorem lamp_dropped : store.registry "main" = {} ∧
    Operation.runAll "main" hangers store = ([hanging 0, hanging 1], hung) ∧
    (∀ q ∈ [lamps .orderedList, lamps .array, lamps .nameKeyedMap],
      hung.resolve "main" q = .ok (.values both)) ∧
    exec (materialise perform "main" (lamps .orderedList) (.values both)) hung =
      (.ok (.list [.object 1, .object 1]), hung) ∧
    exec (materialise perform "main" (lamps .array) (.values both)) hung =
      (.ok (.tuple [.object 1, .object 1]), hung) ∧
    exec (materialise perform "main" (lamps .nameKeyedMap) (.values both)) hung =
      (.ok (.dict [("Lamp@resolvable", .object 1)]), hung) := by
  have found : ∀ q ∈ [lamps .orderedList, lamps .array, lamps .nameKeyedMap],
      hung.resolve "main" q = .ok (.values both) := by
    intro q mem
    simp only [List.mem_cons, List.not_mem_nil, or_false] at mem
    rcases mem with rfl | rfl | rfl <;> cbv
  exact ⟨rfl, rfl, found, rfl, rfl, rfl⟩

end Rack
end Wiring
