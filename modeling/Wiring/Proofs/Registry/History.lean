import Wiring.Proofs.Container

/-! The history of a registry: what was registered in it, in order. Between two registrations the
registry only grows. The history says which entries there are, in which places, and whose object is
at hand under a name: named entries and entries for a type share the table of objects, but only
named entries are checked for a name that is taken. -/
namespace Wiring

inductive Source where
  | given (v : Value)
  | made (p : Provider)
deriving Repr

namespace Source

def given? : Source → Option Value
  | given v => some v
  | made _ => none

def put (name : String) (r : Registry) : Source → Registry
  | given v => r.keep name v
  | made p => r.provide name p

end Source

structure Registered where
  candidate : Candidate
  source : Source
deriving Repr

def candidates (history : List Registered) : List Candidate := history.map (·.candidate)

def lastGiven (history : List Registered) (name : String) : Option Value :=
  history.reverse.findSome? fun e => if e.candidate.name = name then e.source.given? else none

theorem lastGiven_append (history more : List Registered) (name : String) :
    lastGiven (history ++ more) name = (lastGiven more name).or (lastGiven history name) := by
  simp only [lastGiven, List.reverse_append, List.findSome?_append]

theorem lastGiven_concat (history : List Registered) (e : Registered) (name : String) :
    lastGiven (history ++ [e]) name =
      if e.candidate.name = name then e.source.given?.or (lastGiven history name)
      else lastGiven history name := by
  rw [lastGiven_append]
  split
  · rename_i same
    simp only [lastGiven, List.reverse_singleton, List.findSome?_singleton, if_pos same]
  · rename_i other
    simp only [lastGiven, List.reverse_singleton, List.findSome?_singleton, if_neg other,
      Option.none_or]

theorem lastGiven_isSome {history : List Registered} {e : Registered} {v : Value}
    (mem : e ∈ history) (given : e.source = .given v) :
    (lastGiven history e.candidate.name).isSome := by
  rw [lastGiven, List.findSome?_isSome_iff]
  exact ⟨e, List.mem_reverse.mpr mem, by simp [given, Source.given?]⟩

theorem mem_of_lastGiven {history : List Registered} {name : String} {v : Value}
    (last : lastGiven history name = some v) :
    ∃ e ∈ history, e.candidate.name = name ∧ e.source = .given v := by
  obtain ⟨e, mem, found⟩ := List.exists_of_findSome?_eq_some last
  split at found
  · rename_i same
    refine ⟨e, List.mem_reverse.mp mem, same, ?_⟩
    cases source : e.source with
    | given x => rw [source] at found; exact congrArg Source.given (Option.some.inj found)
    | made p => rw [source] at found; cases found
  · cases found

namespace Registry
variable {title : String} {start first last finish : Store} {r : Registry}

def typeCandidate (r : Registry) (type : String) (cls : ClassRef) : Candidate :=
  { name := type ++ "@resolvable", declaredType := .cls cls, index := r.nextIndex
    resolvable := true }

/-- From a registry, registering what is listed can lead to another. -/
inductive Evolves (title : String) (first last : Store) (r : Registry) :
    List Registered → Registry → Prop
  | refl : Evolves title first last r [] r
  | grows {history : List Registered} {mid after : Registry} :
    Evolves title first last r history mid → mid.Grows title first last after →
      Evolves title first last r history after
  | named {history : List Registered} {mid after : Registry} {name : String} {type : Hint}
      {o : Registration} {c : Candidate} (source : Source) :
    Evolves title first last r history mid → mid.add name type o = .ok (c, after) →
      Evolves title first last r (history ++ [⟨c, source⟩]) (source.put name after)
  | forType {history : List Registered} {mid : Registry} (name : String) (type : Hint)
      (cls : ClassRef) (v : Value) :
    Evolves title first last r history mid →
      Evolves title first last r (history ++ [⟨mid.typeCandidate name cls, .given v⟩])
        (mid.addResolvable name type cls v)

theorem Evolves.widen {history : List Registered} {after : Registry}
    (evolves : r.Evolves title first last history after) (begins : start.Precedes first)
    (ends : last.Precedes finish) : r.Evolves title start finish history after := by
  induction evolves with
  | refl => exact .refl
  | grows _ grown ih => exact ih.grows (grown.widen begins ends)
  | named source _ added ih => exact ih.named source added
  | forType name type cls v _ ih => exact ih.forType name type cls v

theorem Evolves.trans {history more : List Registered} {mid after : Registry}
    (begun : r.Evolves title first last history mid)
    (ended : mid.Evolves title first last more after) :
    r.Evolves title first last (history ++ more) after := by
  induction ended with
  | refl =>
    rw [List.append_nil]
    exact begun
  | grows _ grown ih => exact ih.grows grown
  | named source _ added ih =>
    rw [← List.append_assoc]
    exact ih.named source added
  | forType name type cls v _ ih =>
    rw [← List.append_assoc]
    exact ih.forType name type cls v

theorem add_eq_ok {name : String} {type : Hint} {o : Registration} {c : Candidate}
    {after : Registry} (added : r.add name type o = .ok (c, after)) :
    c.name = name ∧ c.injectable = o.injectable ∧ c.index = r.nextIndex ∧ c.resolvable = false ∧
      (∀ e ∈ r.entries, e.name ≠ name) ∧ after = { r with entries := r.entries ++ [c] } := by
  unfold add at added
  split at added
  · cases added
  · rename_i free
    cases added
    refine ⟨rfl, rfl, rfl, rfl, ?_, rfl⟩
    intro e mem same
    exact free (List.find?_isSome.mpr ⟨e, mem, by simp [same]⟩)

/-- What the history of a registry that was empty at first says about it. -/
structure Recorded (title : String) (first last : Store) (history : List Registered)
    (r : Registry) : Prop where
  entries : r.entries = (candidates history).filter (!·.resolvable)
  resolvable : r.resolvable.map (·.1) = (candidates history).filter (·.resolvable)
  indexes : history.map (·.candidate.index) = List.range history.length
  namesDistinct : r.names.Nodup
  forType : ∀ e ∈ history, e.candidate.resolvable → (∃ v, e.source = .given v) ∧
    e.candidate.injectable
  given : ∀ name v, lastGiven history name = some v → r.instances.lookup name = some v
  built : ∀ name v, lastGiven history name = none → r.instances.lookup name = some v →
    ∃ p, r.providers.lookup name = some p ∧ Run.Makes first last title name p v
  providers : ∀ name p, r.providers.lookup name = some p ↔
    ∃ e ∈ history, e.candidate.name = name ∧ e.source = .made p

namespace Recorded

theorem empty : Recorded title first last [] {} where
  entries := rfl
  resolvable := rfl
  indexes := rfl
  namesDistinct := .nil
  forType := by simp
  given := by simp [lastGiven]
  built := by simp
  providers := by simp

variable {history : List Registered} (recorded : Recorded title first last history r)
include recorded

theorem nextIndex : r.nextIndex = history.length := by
  have split := List.length_eq_length_filter_add (l := candidates history) (·.resolvable)
  have kinds : r.resolvable.length = (r.resolvable.map (·.1)).length := by simp
  rw [Registry.nextIndex, kinds, recorded.entries, recorded.resolvable]
  simp [candidates] at split ⊢
  omega

theorem name_taken {name : String} {p : Provider} (provider : r.providers.lookup name = some p) :
    ∃ e ∈ r.entries, e.name = name := by
  obtain ⟨e, mem, same, made⟩ := (recorded.providers name p).mp provider
  refine ⟨e.candidate, ?_, same⟩
  rw [recorded.entries, List.mem_filter]
  refine ⟨List.mem_map_of_mem mem, ?_⟩
  by_contra forType
  obtain ⟨⟨v, given⟩, -⟩ := recorded.forType e mem (by simpa using forType)
  rw [made] at given
  cases given

theorem unprovided {name : String} (free : ∀ e ∈ r.entries, e.name ≠ name) :
    r.providers.lookup name = none := by
  by_contra taken
  obtain ⟨p, provider⟩ := Option.ne_none_iff_exists'.mp taken
  obtain ⟨e, mem, same⟩ := recorded.name_taken provider
  exact free e mem same

theorem grows {after : Registry} (grown : r.Grows title first last after) :
    Recorded title first last history after where
  entries := by rw [grown.entries, recorded.entries]
  resolvable := by rw [grown.resolvable, recorded.resolvable]
  indexes := recorded.indexes
  namesDistinct := by
    rw [Registry.names, grown.entries]
    exact recorded.namesDistinct
  forType := recorded.forType
  given name v last := grown.kept name v (recorded.given name v last)
  built name v none held := by
    rw [grown.providers]
    rcases grown.built name v held with earlier | made
    · exact recorded.built name v none earlier
    · exact made
  providers name p := by rw [grown.providers, recorded.providers]

theorem indexes_concat {e : Registered}
    (next : e.candidate.index = r.nextIndex) :
    (history ++ [e]).map (·.candidate.index) = List.range (history ++ [e]).length := by
  rw [recorded.nextIndex] at next
  simp [recorded.indexes, next, List.range_succ]

theorem given_concat {after : Registry} {c : Candidate}
    {v : Value} (put : after.instances = r.instances.set c.name v) (name : String) (x : Value)
    (last : lastGiven (history ++ [⟨c, .given v⟩]) name = some x) :
    after.instances.lookup name = some x := by
  rw [lastGiven_concat] at last
  rw [put]
  split at last
  · rename_i same
    rw [← same, Entries.lookup_set_self]
    simpa [Source.given?] using last
  · rename_i other
    rw [Entries.lookup_set_of_ne (Ne.symm other)]
    exact recorded.given name x last

theorem built_concat {after : Registry} {c : Candidate}
    {v : Value} (put : after.instances = r.instances.set c.name v)
    (same : after.providers = r.providers) (name : String) (x : Value)
    (none : lastGiven (history ++ [⟨c, .given v⟩]) name = none)
    (held : after.instances.lookup name = some x) :
    ∃ p, after.providers.lookup name = some p ∧ Run.Makes first last title name p x := by
  rw [lastGiven_concat] at none
  split at none
  · simp [Source.given?] at none
  · rename_i other
    rw [put, Entries.lookup_set_of_ne (Ne.symm other)] at held
    rw [same]
    exact recorded.built name x none held

theorem providers_concat (c : Candidate) (v : Value) (name : String) (p : Provider) :
    r.providers.lookup name = some p ↔
      ∃ e ∈ history ++ [⟨c, .given v⟩], e.candidate.name = name ∧ e.source = .made p := by
  simp [recorded.providers, List.mem_append, or_and_right, exists_or]

theorem named {name : String} {type : Hint} {o : Registration} {c : Candidate} {after : Registry}
    (added : r.add name type o = .ok (c, after)) (source : Source) :
    Recorded title first last (history ++ [⟨c, source⟩]) (source.put name after) := by
  obtain ⟨named, -, next, isNamed, free, rfl⟩ := add_eq_ok added
  subst named
  have entries : r.entries ++ [c] =
      (candidates (history ++ [⟨c, source⟩])).filter (!·.resolvable) := by
    simp [candidates, recorded.entries, isNamed]
  have resolvable : r.resolvable.map (·.1) =
      (candidates (history ++ [⟨c, source⟩])).filter (·.resolvable) := by
    simp [candidates, recorded.resolvable, isNamed]
  have namesDistinct : ((r.entries ++ [c]).map (·.name)).Nodup := by
    rw [List.map_append, List.nodup_append]
    refine ⟨recorded.namesDistinct, List.nodup_singleton _, ?_⟩
    intro name mem other listed
    obtain ⟨e, entry, rfl⟩ := List.mem_map.mp mem
    rw [List.mem_singleton.mp listed]
    exact free e entry
  have forType : ∀ e ∈ history ++ [⟨c, source⟩], e.candidate.resolvable →
      (∃ v, e.source = .given v) ∧ e.candidate.injectable := by
    intro e mem isForType
    rcases List.mem_append.mp mem with earlier | new
    · exact recorded.forType e earlier isForType
    · rw [List.mem_singleton.mp new, isNamed] at isForType
      cases isForType
  cases source with
  | given v =>
    exact {
      entries, resolvable, namesDistinct, forType
      indexes := recorded.indexes_concat next
      given := recorded.given_concat rfl
      built := recorded.built_concat rfl rfl
      providers := recorded.providers_concat c v }
  | made p =>
    have unprovided := recorded.unprovided free
    have unchanged (name : String) :
        lastGiven (history ++ [⟨c, .made p⟩]) name = lastGiven history name := by
      rw [lastGiven_concat]
      simp [Source.given?]
    refine {
      entries, resolvable, namesDistinct, forType
      indexes := recorded.indexes_concat next
      given := fun name v last => recorded.given name v (unchanged name ▸ last)
      built := ?_
      providers := ?_ }
    · intro name v none held
      obtain ⟨q, provider, makes⟩ := recorded.built name v (unchanged name ▸ none) held
      have other : name ≠ c.name := by
        rintro rfl
        rw [unprovided] at provider
        cases provider
      refine ⟨q, ?_, makes⟩
      rw [← provider]
      exact Entries.lookup_set_of_ne other _ _
    · intro name q
      by_cases same : name = c.name
      · subst same
        have alone : ¬ ∃ e ∈ history, e.candidate.name = c.name ∧ e.source = .made q := by
          rw [← recorded.providers, unprovided]
          simp
        simp only [Source.put, Registry.provide, Entries.lookup_set_self]
        simp only [List.mem_append, or_and_right, exists_or, alone, false_or, List.mem_singleton,
          exists_eq_left, true_and, Source.made.injEq, Option.some.injEq]
      · simp only [Source.put, Registry.provide, Entries.lookup_set_of_ne same]
        simp [recorded.providers, or_and_right, exists_or, Ne.symm same]

theorem addResolvable (name : String) (type : Hint)
    (cls : ClassRef) (v : Value) :
    Recorded title first last (history ++ [⟨r.typeCandidate name cls, .given v⟩])
      (r.addResolvable name type cls v) where
  entries := by simp [Registry.addResolvable, Registry.keep, recorded.entries, typeCandidate,
    candidates]
  resolvable := by
    simp [Registry.addResolvable, Registry.keep, recorded.resolvable, typeCandidate,
      candidates]
  indexes := recorded.indexes_concat rfl
  namesDistinct := recorded.namesDistinct
  forType e mem isForType := by
    rcases List.mem_append.mp mem with earlier | new
    · exact recorded.forType e earlier isForType
    · rw [List.mem_singleton.mp new]
      exact ⟨⟨v, rfl⟩, rfl⟩
  given := recorded.given_concat rfl
  built := recorded.built_concat rfl rfl
  providers := recorded.providers_concat _ v

end Recorded

theorem Evolves.recorded {history : List Registered} {after : Registry}
    (evolves : Evolves title first last {} history after) :
    Recorded title first last history after := by
  induction evolves with
  | refl => exact .empty
  | grows _ grown ih => exact ih.grows grown
  | named source _ added ih => exact ih.named added source
  | forType name type cls v _ ih => exact ih.addResolvable name type cls v

/-- An object stays at hand until another is given under its name, and then that one is. -/
theorem Evolves.at_hand {history : List Registered} {after : Registry} {name : String} {v : Value}
    (evolves : r.Evolves title first last history after)
    (held : r.instances.lookup name = some v) :
    after.instances.lookup name = some ((lastGiven history name).getD v) := by
  induction evolves with
  | refl => exact held
  | grows _ grown ih => exact grown.kept name _ ih
  | @named history _ _ _ _ _ c source _ added ih =>
    obtain ⟨rfl, -, -, -, -, rfl⟩ := add_eq_ok added
    rw [lastGiven_concat]
    cases source with
    | given x =>
      split
      · rename_i same
        rw [← same]
        exact Entries.lookup_set_self _ _ _
      · rename_i other
        exact (Entries.lookup_set_of_ne (Ne.symm other) _ _).trans ih
    | made p => simpa [Source.given?, Source.put, Registry.provide] using ih
  | forType title type cls x _ ih =>
    rw [lastGiven_concat]
    split
    · rename_i same
      rw [← same]
      exact Entries.lookup_set_self _ _ _
    · rename_i other
      exact (Entries.lookup_set_of_ne (Ne.symm other) _ _).trans ih

theorem Evolves.keeps {history : List Registered} {after : Registry} {name : String} {v : Value}
    (evolves : r.Evolves title first last history after)
    (held : r.instances.lookup name = some v) (none : lastGiven history name = none) :
    after.instances.lookup name = some v := by
  simpa [none] using evolves.at_hand held

end Registry

/-- From a store, registering what is listed in the registry of the title can lead to another. -/
structure Store.Evolves (title : String) (st : Store) (history : List Registered) (after : Store) :
    Prop where
  precedes : st.Precedes after
  registry : (st.registry title).Evolves title st after history (after.registry title)

namespace Store.Evolves
variable {title : String} {st mid after : Store} {history more : List Registered}

theorem refl (st : Store) : st.Evolves title [] st := ⟨.refl st, .refl⟩

theorem of_grows (grows : st.Grows after) : st.Evolves title [] after :=
  ⟨grows.precedes, Registry.Evolves.refl.grows (grows.registry title)⟩

theorem trans (begun : st.Evolves title history mid) (ended : mid.Evolves title more after) :
    st.Evolves title (history ++ more) after where
  precedes := begun.precedes.trans ended.precedes
  registry := (begun.registry.widen (.refl st) ended.precedes).trans
    (ended.registry.widen begun.precedes (.refl after))

theorem grows (evolves : st.Evolves title history mid) (grown : mid.Grows after) :
    st.Evolves title history after := by
  simpa using evolves.trans (.of_grows grown)

theorem recorded (evolves : st.Evolves title history after) (empty : st.registry title = {}) :
    Registry.Recorded title st after history (after.registry title) := by
  have begun := evolves.registry
  rw [empty] at begun
  exact begun.recorded

end Store.Evolves
end Wiring
