import Mathlib
import Wiring.Proofs.Operations
import Wiring.Proofs.Registry.Matching

/-! What a collection holds: the best matches among the eligible candidates, each once, by priority
or in the order in which they were registered. Comparing types can be refused, and a request is
answered exactly if no comparison that it needs is. -/
namespace Wiring

namespace Candidate

/-- By priority, candidates without one last, and in order of registration among equals. -/
def Precedes (a b : Candidate) : Prop :=
  match a.priority, b.priority with
  | some p, some q => p < q ∨ p = q ∧ a.index < b.index
  | some _, none => True
  | none, some _ => False
  | none, none => a.index < b.index

theorem before_trans (a b c : Candidate) : before a b → before b c → before a c := by
  unfold before
  cases a.priority <;> cases b.priority <;> cases c.priority <;> simp
  omega

theorem before_total (a b : Candidate) : before a b || before b a := by
  unfold before
  cases a.priority <;> cases b.priority <;> simp
  omega

theorem precedes_of_before {a b : Candidate} (le : before a b)
    (tie : before b a → a.index < b.index) : a.Precedes b := by
  unfold before at le tie
  unfold Precedes
  cases first : a.priority with
  | none => cases second : b.priority <;> simp_all
  | some p =>
    cases second : b.priority with
    | none => trivial
    | some q =>
      simp only [first, second, decide_eq_true_eq] at le tie ⊢
      omega

theorem precedes_mergeSort {cs : List Candidate} (registered : cs.Pairwise (·.index < ·.index)) :
    (cs.mergeSort before).Pairwise Precedes := by
  -- A stable sort is a sort of the numbered list, where the numbers decide between equals.
  let numbered := cs.zipIdx.mergeSort (List.zipIdxLE before)
  have ordered : numbered.Pairwise fun a b => List.zipIdxLE before a b = true :=
    List.pairwise_mergeSort (List.zipIdxLE_trans before_trans) (List.zipIdxLE_total before_total) _
  have distinct : (numbered.map (·.2)).Nodup := by
    have same : (numbered.map (·.2)).Perm (cs.zipIdx.map (·.2)) := (List.mergeSort_perm _ _).map _
    rw [same.nodup_iff, List.zipIdx_map_snd]
    exact List.nodup_range'
  have place (c : Candidate) (i : Nat) (mem : (c, i) ∈ numbered) : cs[i]? = some c := by
    rwa [List.mem_mergeSort, List.mk_mem_zipIdx_iff_getElem?] at mem
  have sorted : numbered.map (·.1) = cs.mergeSort before := List.mergeSort_zipIdx
  rw [← sorted, List.pairwise_map]
  refine (ordered.and (List.pairwise_map.mp distinct)).imp_of_mem ?_
  rintro ⟨a, i⟩ ⟨b, j⟩ first second ⟨le, ne⟩
  unfold List.zipIdxLE at le
  split at le
  · rename_i fits
    refine precedes_of_before fits fun back => ?_
    have lower : i ≤ j := by simpa [back] using le
    obtain ⟨hi, rfl⟩ := List.getElem?_eq_some_iff.mp (place a i first)
    obtain ⟨hj, rfl⟩ := List.getElem?_eq_some_iff.mp (place b j second)
    exact List.pairwise_iff_getElem.mp registered i j hi hj (Nat.lt_of_le_of_ne lower ne)
  · contradiction

end Candidate

namespace Registry
variable {r : Registry} {w : World} {h : Heap} {q : Request} {cs taken : List Candidate}

theorem participants_sublist {required : Hint} {entries : List (Candidate × Hint)}
    (listed : r.participants w h required entries = .ok taken) :
    taken.Sublist (entries.map (·.1)) := by
  induction entries generalizing taken with
  | nil =>
    cases listed
    exact .slnil
  | cons entry entries ih =>
    obtain ⟨takesPart, _, listed⟩ := Outcome.bind_eq_ok.mp listed
    split at listed
    · obtain ⟨rest, later, listed⟩ := Outcome.bind_eq_ok.mp listed
      cases Outcome.pure_eq_ok.mp listed
      exact (ih later).cons_cons _
    · exact (ih listed).cons _

namespace Recorded
variable {title : String} {start finish : Store} {history : List Registered}
  (recorded : Recorded title start finish history r)
include recorded

theorem indexes_eq_range : (candidates history).map (·.index) = List.range history.length := by
  rw [← recorded.indexes, candidates, List.map_map]
  rfl

theorem pairwise_index : (candidates history).Pairwise (·.index < ·.index) := by
  rw [← List.pairwise_map (R := (· < ·)), recorded.indexes_eq_range]
  exact List.pairwise_lt_range

theorem eq_of_index_eq {a b : Candidate} (first : a ∈ candidates history)
    (second : b ∈ candidates history) (same : a.index = b.index) : a = b := by
  have distinct : ((candidates history).map (·.index)).Nodup := by
    rw [recorded.indexes_eq_range]
    exact List.nodup_range
  exact List.inj_on_of_nodup_map distinct first second same

theorem sublist_of_sorted {sorted : List Candidate} (ordered : sorted.Pairwise (·.index ≤ ·.index))
    (registered : sorted.Subperm (candidates history)) : sorted.Sublist (candidates history) := by
  obtain ⟨listed, perm, inOrder⟩ := registered
  have same : sorted = listed := by
    have increasing := (recorded.pairwise_index.sublist inOrder).imp Nat.le_of_lt
    refine List.Perm.eq_of_pairwise ?_ ordered increasing perm.symm
    intro a b first second le ge
    have first := inOrder.subset (perm.mem_iff.mpr first)
    exact recorded.eq_of_index_eq first (inOrder.subset second) (Nat.le_antisymm le ge)
  rw [same]
  exact inOrder

/-- Eligible candidates are registered ones, in the order of registration, and meant for injection.
-/
theorem eligible_sublist {required : Hint} (lookup : r.eligible w h required = .ok cs) :
    cs.Sublist (candidates history) ∧ ∀ c ∈ cs, c.injectable := by
  obtain ⟨others, listed, lookup⟩ := Outcome.bind_eq_ok.mp lookup
  cases Outcome.pure_eq_ok.mp lookup
  let inPlace := fun a b : Candidate => decide (a.index ≤ b.index)
  let named := r.entries.filter fun c => c.injectable && w.assignable c.declaredType required.raw
  have fromNamed : named.Sublist ((candidates history).filter (!·.resolvable)) := by
    rw [← recorded.entries]
    exact List.filter_sublist
  have fromOthers : others.Sublist ((candidates history).filter (·.resolvable)) := by
    rw [← recorded.resolvable]
    exact participants_sublist listed
  have kinds : ((candidates history).filter (!·.resolvable) ++
      (candidates history).filter (·.resolvable)).Perm (candidates history) := by
    have perm := List.filter_append_perm (fun c : Candidate => !c.resolvable) (candidates history)
    simpa only [Bool.not_not] using perm
  have sorted : ((named ++ others).mergeSort inPlace).Pairwise (·.index ≤ ·.index) := by
    have trans (a b c : Candidate) : inPlace a b → inPlace b c → inPlace a c := by
      simp only [inPlace, decide_eq_true_eq]
      omega
    have total (a b : Candidate) : inPlace a b || inPlace b a := by
      simp only [inPlace, Bool.or_eq_true, decide_eq_true_eq]
      omega
    exact (List.pairwise_mergeSort trans total _).imp of_decide_eq_true
  have all := ((List.mergeSort_perm (named ++ others) inPlace).subperm).trans
    ((fromNamed.append fromOthers).subperm.trans kinds.subperm)
  refine ⟨recorded.sublist_of_sorted sorted all, fun c mem => ?_⟩
  rcases List.mem_append.mp (List.mem_mergeSort.mp mem) with mem | mem
  · have meant := (List.mem_filter.mp mem).2
    exact (Bool.and_eq_true_iff.mp meant).1
  · obtain ⟨listed, forType⟩ := List.mem_filter.mp (fromOthers.subset mem)
    obtain ⟨e, registered, rfl⟩ := List.mem_map.mp listed
    exact (recorded.forType e registered forType).2

end Recorded

end Registry

namespace Request
variable {q : Request} {s : Settings} {cs : List Candidate}

theorem multiple_of_empty (none : cs = []) :
    q.multiple s cs = if q.required then .failure (.notFound q) else .empty := by
  rw [none]
  rfl

theorem multiple_of_ne (some : cs ≠ []) (registered : cs.Pairwise (·.index < ·.index)) :
    ∃ found, q.multiple s cs = .values found ∧ found.Perm cs ∧ found.Nodup ∧
      (s.orderByPriority → found.Pairwise Candidate.Precedes) ∧
      (¬ s.orderByPriority → found = cs) := by
  have distinct : cs.Nodup := registered.imp fun lt same => by
    rw [same] at lt
    exact Nat.lt_irrefl _ lt
  refine ⟨if s.orderByPriority then cs.mergeSort Candidate.before else cs, ?_, ?_⟩
  · rw [multiple, if_neg]
    simpa using some
  · split
    · rename_i sorting
      have perm := List.mergeSort_perm cs Candidate.before
      exact ⟨perm, perm.nodup_iff.mpr distinct,
        fun _ => Candidate.precedes_mergeSort registered, fun off => absurd sorting off⟩
    · rename_i off
      exact ⟨.refl _, distinct, fun sorting => absurd sorting off, fun _ => rfl⟩

end Request

namespace Run

/-- What a collection request resolves to in every registry that operations lead to. -/
theorem resolve_collection {title : String} {operations : List (String × Operation)}
    {history : List Registered} {st now : Store} {q : Request} {cs : List Candidate}
    (empty : st.registry title = {})
    (ran : Operation.runAll title operations st = (history, now))
    (lookup : (now.registry title).eligible now.world now.heap q.type = .ok cs)
    (multiple : q.cardinality.isMultiple) :
    ((∃ answer, now.resolve title q = .ok answer) ↔ q.Answerable now.world cs) ∧
    ∀ answer, now.resolve title q = .ok answer →
      (q.best now.world cs).Sublist (candidates history) ∧
      (candidates history).Pairwise (·.index < ·.index) ∧
      (q.best now.world cs = [] →
        answer = if q.required then .failure (.notFound q) else .empty) ∧
      (q.best now.world cs ≠ [] → ∃ found, answer = .values found ∧
        found.Perm (q.best now.world cs) ∧ found.Nodup ∧
        (now.settings.orderByPriority → found.Pairwise Candidate.Precedes) ∧
        (¬ now.settings.orderByPriority → found = q.best now.world cs)) ∧
      ∀ c ∈ answer.found, c.injectable := by
  have recorded := (evolves_runAll ran).recorded empty
  obtain ⟨inOrder, meant⟩ := recorded.eligible_sublist lookup
  have best := q.best_sublist now.world cs
  have registered := recorded.pairwise_index.sublist (best.trans inOrder)
  have answers (answer : Resolution) : now.resolve title q = .ok answer ↔
      q.Answerable now.world cs ∧ q.multiple now.settings (q.best now.world cs) = answer := by
    rw [Store.resolve, Registry.resolve_eq_ok lookup, Request.answer, if_pos multiple]
  constructor
  · simp only [answers, exists_and_left, exists_eq', and_true]
  · intro answer resolved
    obtain ⟨-, rfl⟩ := (answers answer).mp resolved
    refine ⟨best.trans inOrder, recorded.pairwise_index, Request.multiple_of_empty,
      fun some => Request.multiple_of_ne some registered, ?_⟩
    intro c mem
    exact meant c (best.subset (Registry.mem_of_mem_multiple mem))

end Run

/-! Feeds of items. A feed of optional items can be declared for something that no item can be, and
comparing it with a feed of numbers is refused. -/
namespace Feeds
open Run

def item : Hint := .var 1 "T" none

def feedOf (h : Hint) : Hint := .alias .typing (.declared 0) [h]

def feed : ClassInfo where
  name := "Feed"
  qualifiedName := "Feed"
  bases := [.builtin .generic]
  writtenBases := some [.alias .typing (.builtin .generic) [item]]
  parameters := [item]
  linearization := [.declared 0, .builtin .generic, .builtin .object]

def optionalFeed : ClassInfo where
  name := "OptionalFeed"
  qualifiedName := "OptionalFeed"
  bases := [.declared 0]
  writtenBases := some [feedOf (.union .typing [item, Hint.noneType])]
  parameters := [item]
  linearization := [.declared 1, .declared 0, .builtin .generic, .builtin .object]

def store : Store where
  world := { moduleName := "feeds", classes := [feed, optionalFeed] }

def numbers : Hint := feedOf (.cls (.builtin .int))

def source : Provider := .function { name := "make_feed" }

def entry (name : String) (type : Hint) (priority : Option Int) (index : Nat) : Candidate where
  name := name
  declaredType := type
  priority := priority
  injectable := name != "hidden"
  index := index

def providing (cs : List Candidate) : List (String × Operation) :=
  cs.map fun c => ("main", .registerProvider c.name source {
    declaredType := some c.declaredType, priority := c.priority, injectable := c.injectable })

def history (cs : List Candidate) : List Registered := cs.map (⟨·, .made source⟩)

def after (cs : List Candidate) : Store :=
  { store with registries := [("main", {
      entries := cs, providers := cs.map fun c => (c.name, source) })] }

def request : Request where
  type := numbers
  cardinality := .orderedList

def last : Candidate := entry "last" numbers none 0
def second : Candidate := entry "second" numbers (some 2) 1
def hidden : Candidate := entry "hidden" numbers (some 0) 2
def first : Candidate := entry "first" numbers (some 1) 3

def feeds : List Candidate := [last, second, hidden, first]

theorem feeds_in_order :
    (after feeds).resolve "main" request = .ok (.values [first, second, last]) ∧
      [last, second, first].Sublist feeds ∧ [first, second, last].Pairwise Candidate.Precedes := by
  have ran : Operation.runAll "main" (providing feeds) store = (history feeds, after feeds) := by
    rfl
  have lookup : ((after feeds).registry "main").eligible (after feeds).world (after feeds).heap
      request.type = .ok [last, second, first] := by cbv
  have best : request.best (after feeds).world [last, second, first] = [last, second, first] := by
    cbv
  have resolved : (after feeds).resolve "main" request =
      .ok (.values [first, second, last]) := by cbv
  obtain ⟨inOrder, -, -, found, -⟩ := (resolve_collection rfl ran lookup rfl).2 _ resolved
  rw [best] at inOrder found
  obtain ⟨_, same, -, -, sorted, -⟩ := found (List.cons_ne_nil _ _)
  cases same
  exact ⟨resolved, inOrder, sorted rfl⟩

def bad : Candidate := entry "bad" (.alias .typing (.declared 1) [.cls (.builtin .protocol)]) none 1

theorem feeds_refused : store.registry "main" = {} ∧
    Operation.runAll "main" (providing [last, bad]) store =
      (history [last, bad], after [last, bad]) ∧
    ((after [last, bad]).registry "main").eligible store.world [] numbers = .ok [last, bad] ∧
    request.cardinality.isMultiple ∧ request.fits store.world .strict last ∧
    (after [last, bad]).resolve "main" request = .error (.badType (.badHint .notAType)) := by
  have lookup : ((after [last, bad]).registry "main").eligible store.world [] numbers =
      .ok [last, bad] := by cbv
  have fits : request.fits store.world .strict last := by cbv
  have refused : (after [last, bad]).resolve "main" request =
      .error (.badType (.badHint .notAType)) := by cbv
  exact ⟨rfl, rfl, lookup, rfl, fits, refused⟩

end Feeds
end Wiring
