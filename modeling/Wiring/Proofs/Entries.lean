import Mathlib.Data.List.Induction
import Mathlib.Data.List.Nodup
import Wiring.Entries

/-! Entries whose names are distinct. A name then stands for one value, and setting values, one or
many, keeps the names distinct. A list of pairs becomes such entries: each name stands where it comes
first. Setting the same values once more changes nothing. -/
namespace Wiring.Entries

variable {α : Type}

@[simp] theorem names_append (es rest : Entries α) : (es ++ rest).names = es.names ++ rest.names :=
  List.map_append

theorem mem_names {es : Entries α} {name : String} :
    name ∈ es.names ↔ (es.lookup name).isSome := by
  rw [List.lookup_isSome_iff, names, List.mem_map]
  refine exists_congr fun entry => and_congr_right fun _ => ?_
  rw [beq_iff_eq, eq_comm]

theorem mem_of_lookup {es : Entries α} {name : String} {a : α}
    (found : es.lookup name = some a) : (name, a) ∈ es := by
  obtain ⟨before, after, parts, _⟩ := List.lookup_eq_some_iff.mp found
  rw [parts]
  simp

theorem lookup_iff_mem {es : Entries α} (distinct : es.names.Nodup) {name : String} {a : α} :
    es.lookup name = some a ↔ (name, a) ∈ es := by
  constructor
  · exact mem_of_lookup
  · intro mem
    obtain ⟨before, after, rfl⟩ := List.append_of_mem mem
    rw [List.lookup_eq_some_iff]
    refine ⟨before, after, rfl, ?_⟩
    intro entry earlier
    simp only [names, List.map_append, List.map_cons] at distinct
    have apart := (List.nodup_append.mp distinct).2.2
    simpa using (apart _ (List.mem_map_of_mem earlier) name List.mem_cons_self).symm

theorem filter_name {es : Entries α} (distinct : es.names.Nodup) {name : String} {a : α}
    (found : es.lookup name = some a) : es.filter (·.1 == name) = [(name, a)] := by
  induction es with
  | nil => contradiction
  | cons e es ih =>
    obtain ⟨first, b⟩ := e
    obtain ⟨new, distinct⟩ := List.nodup_cons.mp distinct
    by_cases same : first = name
    · subst same
      have none : es.filter (·.1 == first) = [] := by
        rw [List.filter_eq_nil_iff]
        intro e mem again
        exact new (List.mem_map.mpr ⟨e, mem, beq_iff_eq.mp again⟩)
      rw [List.lookup_cons, beq_self_eq_true] at found
      cases found
      simp [none]
    · have other : (name == first) = false := by simpa using Ne.symm same
      rw [List.lookup_cons, other] at found
      simpa [same] using ih distinct found

theorem nodup_set {es : Entries α} (distinct : es.names.Nodup) (name : String) (a : α) :
    (set es name a).names.Nodup := by
  rw [names_set]
  split
  · exact distinct
  · rename_i new
    rw [List.nodup_append]
    refine ⟨distinct, List.nodup_singleton name, ?_⟩
    rintro n mem m listed rfl
    rw [List.mem_singleton.mp listed] at mem
    exact new mem

theorem nodup_foldl_set {β : Type} (name : β → String) (value : β → α) (bs : List β)
    {es : Entries α} (distinct : es.names.Nodup) :
    (bs.foldl (fun es b => set es (name b) (value b)) es).names.Nodup := by
  induction bs generalizing es with
  | nil => exact distinct
  | cons b bs ih => exact ih (nodup_set distinct (name b) (value b))

theorem nodup_ofList (pairs : List (String × α)) : (ofList pairs).names.Nodup :=
  nodup_foldl_set (Prod.fst : String × α → String) Prod.snd pairs (show (names []).Nodup from .nil)

theorem set_of_notMem {es : Entries α} {name : String} (new : name ∉ es.names) (a : α) :
    set es name a = es ++ [(name, a)] := by
  induction es with
  | nil => rfl
  | cons e es ih =>
    obtain ⟨other, later⟩ := not_or.mp (mt List.mem_cons.mpr new)
    rw [set, if_neg (Ne.symm other), ih later, List.cons_append]

theorem ofList_concat (pairs : List (String × α)) (name : String) (a : α) :
    ofList (pairs ++ [(name, a)]) = set (ofList pairs) name a := by
  simp [ofList, List.foldl_append]

theorem names_ofList (pairs : List (String × α)) :
    (ofList pairs).names = (pairs.map (·.1)).eraseDups := by
  induction pairs using List.reverseRecOn with
  | nil => rfl
  | append_singleton pairs last ih =>
    obtain ⟨name, a⟩ := last
    rw [ofList_concat, names_set, ih, List.map_append, List.eraseDups_append]
    by_cases known : name ∈ pairs.map (·.1) <;> simp [List.removeAll, known, List.eraseDups_cons]

theorem ofList_eq_self {pairs : List (String × α)} (distinct : (pairs.map (·.1)).Nodup) :
    ofList pairs = pairs := by
  induction pairs using List.reverseRecOn with
  | nil => rfl
  | append_singleton pairs last ih =>
    obtain ⟨name, a⟩ := last
    rw [List.map_append, List.nodup_append] at distinct
    have new : name ∉ names pairs := fun mem => distinct.2.2 name mem name (by simp) rfl
    rw [ofList_concat, ih distinct.1, set_of_notMem new]

theorem lookup_ofList {pairs : List (String × α)} {f : String → Option α}
    (given : ∀ name a, (name, a) ∈ pairs → f name = some a) {name : String} {a : α}
    (mem : (name, a) ∈ pairs) : (ofList pairs).lookup name = some a := by
  induction pairs using List.reverseRecOn with
  | nil => contradiction
  | append_singleton pairs last ih =>
    obtain ⟨other, b⟩ := last
    rw [ofList_concat]
    by_cases same : name = other
    · subst same
      rw [lookup_set_self, ← given name a mem, given name b (by simp)]
    · rw [lookup_set_of_ne same]
      refine ih (fun n x earlier => given n x (List.mem_append_left _ earlier)) ?_
      rcases List.mem_append.mp mem with earlier | now
      · exact earlier
      · cases List.mem_singleton.mp now
        exact absurd rfl same

theorem set_eq_self {es : Entries α} {name : String} {a : α} (held : es.lookup name = some a) :
    set es name a = es := by
  induction es with
  | nil => contradiction
  | cons e es ih =>
    obtain ⟨n, b⟩ := e
    by_cases same : n = name
    · subst same
      rw [List.lookup_cons, beq_self_eq_true] at held
      cases held
      simp [set]
    · have other : (name == n) = false := by simpa using Ne.symm same
      rw [List.lookup_cons, other] at held
      rw [set, if_neg same, ih held]

def setAll (es values : Entries α) : Entries α := values.foldl (fun es e => set es e.1 e.2) es

@[simp] theorem setAll_nil (es : Entries α) : setAll es [] = es := rfl

@[simp] theorem setAll_cons (es values : Entries α) (e : String × α) :
    setAll es (e :: values) = setAll (set es e.1 e.2) values := rfl

theorem lookup_setAll {values : Entries α} (distinct : values.names.Nodup) (es : Entries α)
    (name : String) :
    (setAll es values).lookup name = (values.lookup name).or (es.lookup name) := by
  induction values generalizing es with
  | nil => rfl
  | cons e values ih =>
    obtain ⟨first, a⟩ := e
    obtain ⟨new, distinct⟩ := List.nodup_cons.mp distinct
    rw [setAll_cons, ih distinct]
    by_cases same : name = first
    · subst same
      have none : values.lookup name = none := by
        by_contra found
        exact new (mem_names.mpr (Option.isSome_iff_ne_none.mpr found))
      simp [none]
    · have other : (name == first) = false := by simpa using same
      rw [lookup_set_of_ne same, List.lookup_cons, other]

theorem setAll_eq_self {es values : Entries α} (held : ∀ e ∈ values, es.lookup e.1 = some e.2) :
    setAll es values = es := by
  induction values with
  | nil => rfl
  | cons e values ih =>
    obtain ⟨first, later⟩ := List.forall_mem_cons.mp held
    rw [setAll_cons, set_eq_self first, ih later]

theorem setAll_setAll {values : Entries α} (distinct : values.names.Nodup) (es : Entries α) :
    setAll (setAll es values) values = setAll es values := by
  apply setAll_eq_self
  intro e mem
  rw [lookup_setAll distinct, (lookup_iff_mem distinct).mpr mem, Option.some_or]

theorem nodup_append_of_lookup {es rest : Entries α} (distinct : es.names.Nodup)
    (others : rest.names.Nodup) (new : ∀ name ∈ rest.names, es.lookup name = none) :
    (es ++ rest).names.Nodup := by
  rw [names_append, List.nodup_append]
  refine ⟨distinct, others, ?_⟩
  rintro n mem m listed rfl
  rw [mem_names, new n listed] at mem
  contradiction

end Wiring.Entries
