/-! Values under names, in order of first appearance. Setting a name again keeps its place. -/
namespace Wiring

abbrev Entries (α : Type) := List (String × α)

namespace Entries

variable {α : Type}

def names (es : Entries α) : List String := es.map (·.1)

def set : Entries α → String → α → Entries α
  | [], name, a => [(name, a)]
  | (n, b) :: rest, name, a => if n = name then (name, a) :: rest else (n, b) :: set rest name a

def erase (es : Entries α) (name : String) : Entries α := es.filter (·.1 != name)

def ofList (pairs : List (String × α)) : Entries α :=
  pairs.foldl (fun es (name, a) => set es name a) []

@[simp] theorem lookup_set_self (es : Entries α) (name : String) (a : α) :
    (set es name a).lookup name = some a := by
  induction es with
  | nil => simp [set]
  | cons e es ih =>
    obtain ⟨n, b⟩ := e
    by_cases h : n = name
    · simp [set, h]
    · have : (name == n) = false := by simp [Ne.symm h]
      simp [set, h, List.lookup_cons, this, ih]

theorem lookup_set_of_ne {name other : String} (h : other ≠ name) (es : Entries α) (a : α) :
    (set es name a).lookup other = es.lookup other := by
  have differs : (other == name) = false := by simp [h]
  induction es with
  | nil => simp [set, List.lookup_cons, differs]
  | cons e es ih =>
    obtain ⟨n, b⟩ := e
    by_cases hn : n = name
    · subst hn
      simp [set, List.lookup_cons, differs]
    · simp [set, hn, List.lookup_cons, ih]

/-- Setting a name keeps the order of the others; a new name comes last. -/
theorem names_set (es : Entries α) (name : String) (a : α) :
    (set es name a).names = if name ∈ es.names then es.names else es.names ++ [name] := by
  induction es with
  | nil => simp [set, names]
  | cons e es ih =>
    obtain ⟨n, b⟩ := e
    by_cases h : n = name
    · simp [set, names, h]
    · simp only [names] at ih
      by_cases later : name ∈ es.map (·.1)
      · simp [set, names, h, ih, later]
      · simp [set, names, h, Ne.symm h, ih, later]

section
variable {κ : Type} [BEq κ] [LawfulBEq κ]

theorem lookup_filter_self (key : κ) (es : List (κ × α)) :
    (es.filter (·.1 != key)).lookup key = none := by
  rw [List.lookup_eq_none_iff]
  intro entry kept
  have other := (List.mem_filter.mp kept).2
  rw [bne_comm] at other
  simpa using other

theorem lookup_filter_of_ne {key other : κ} (ne : other ≠ key) (es : List (κ × α)) :
    (es.filter (·.1 != key)).lookup other = es.lookup other := by
  induction es with
  | nil => rfl
  | cons e es ih =>
    rw [List.filter_cons]
    split
    · rw [List.lookup_cons, List.lookup_cons, ih]
    · rename_i same
      have here : e.1 = key := by simpa using same
      have differs : (other == e.1) = false := by
        rw [here, beq_eq_false_iff_ne]
        exact ne
      rw [ih, List.lookup_cons, differs]

end

theorem lookup_erase_self (es : Entries α) (name : String) :
    (erase es name).lookup name = none := lookup_filter_self name es

theorem lookup_erase_of_ne {name other : String} (h : other ≠ name) (es : Entries α) :
    (erase es name).lookup other = es.lookup other := lookup_filter_of_ne h es

end Entries
end Wiring
