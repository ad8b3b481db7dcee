import Mathlib.Data.List.Forall2
import Mathlib.Data.List.Infix
import Wiring.Call.Arguments
import Wiring.Class.Declaration
import Wiring.Proofs.Entries
import Wiring.Proofs.Outcome

/-! Calls that are put together from requests. If the requests ask for some of the parameters of a
function, and the others can be left out, the call binds: every requested parameter receives its own
argument, every other one stays empty or keeps its default. What is passed by position must not be
preceded by anything left out. -/
namespace Wiring

def ParameterKind.place : ParameterKind → Nat
  | positionalOnly => 0
  | ordinary => 1
  | variadic => 2
  | keywordOnly => 3
  | variadicNamed => 4

structure Signature (ps : List Parameter) : Prop where
  names : (ps.map (·.name)).Nodup
  inOrder : ps.Pairwise fun a b => a.kind.place ≤ b.kind.place
  defaults : ps.Pairwise fun a b => b.isPositional → a.default.isSome → b.default.isSome

namespace Parameter

def isPositionalOnly (p : Parameter) : Bool := p.kind = .positionalOnly

/-- What a parameter receives where arguments are given under the names of parameters. -/
def received (given : Entries Value) (p : Parameter) : Value :=
  match given.lookup p.name, p.kind with
  | some v, _ => v
  | none, .variadic => .tuple []
  | none, .variadicNamed => .dict []
  | none, _ => .data (p.default.getD .null)

structure Asks (p : Parameter) (q : Request) : Prop where
  name : q.name = some p.name
  positionalOnly : q.positionalOnly = p.isPositionalOnly

end Parameter

def givenTo (values : List (Request × Value)) : Entries Value :=
  values.map fun (q, v) => (q.parameterName, v)

/-- Whatever the arguments for the requests are, the call binds to the parameters. -/
structure Binds (requests : List Request) (ps : List Parameter) : Prop where
  own : ∀ q ∈ requests, ∃ p ∈ ps, ¬ p.isVariadic ∧ q.name = some p.name
  apart : (requests.map (·.parameterName)).Nodup
  left : ∀ p ∈ ps, p.name ∉ requests.map (·.parameterName) → p.isVariadic ∨ p.default.isSome
  bound : ∀ title (values : List (Request × Value)), values.map (·.1) = requests →
    (Arguments.ofRequests values).bind title ps =
      .ok (ps.map fun p => (p.name, p.received (givenTo values)))

namespace Signature
variable {ps : List Parameter}

theorem eq_of_name (signature : Signature ps) {p p' : Parameter} (first : p ∈ ps)
    (second : p' ∈ ps) (same : p.name = p'.name) : p = p' :=
  List.inj_on_of_nodup_map signature.names first second same

theorem positional_eq (signature : Signature ps) : ps.filter (·.isPositional) =
    ps.filter (·.isPositionalOnly) ++ ps.filter (·.kind = .ordinary) := by
  have inOrder := signature.inOrder
  clear signature
  induction ps with
  | nil => rfl
  | cons p ps ih =>
    obtain ⟨before, inOrder⟩ := List.pairwise_cons.mp inOrder
    have ih := ih inOrder
    cases kind : p.kind with
    | positionalOnly =>
      simpa [List.filter_cons, Parameter.isPositional, Parameter.isPositionalOnly, kind] using ih
    | ordinary =>
      have none : ps.filter (·.kind = .positionalOnly) = [] := by
        rw [List.filter_eq_nil_iff]
        intro other mem positionalOnly
        have place := before other mem
        simp only [decide_eq_true_eq] at positionalOnly
        simp [kind, positionalOnly, ParameterKind.place] at place
      simpa [List.filter_cons, Parameter.isPositional, Parameter.isPositionalOnly, kind, none]
        using ih
    | variadic =>
      simpa [List.filter_cons, Parameter.isPositional, Parameter.isPositionalOnly, kind] using ih
    | keywordOnly =>
      simpa [List.filter_cons, Parameter.isPositional, Parameter.isPositionalOnly, kind] using ih
    | variadicNamed =>
      simpa [List.filter_cons, Parameter.isPositional, Parameter.isPositionalOnly, kind] using ih

end Signature

namespace Arguments
variable {ps taken : List Parameter} {values : List (Request × Value)} {title : String}

theorem named_ofRequests : (ofRequests values).named =
    givenTo (values.filter (!·.1.positionalOnly)) := rfl

theorem names_givenTo (asks : List.Forall₂ (fun p entry => p.Asks entry.1) taken values) :
    (givenTo values).names = taken.map (·.name) := by
  induction asks with
  | nil => rfl
  | @cons p entry taken values ask _ ih =>
    simp only [givenTo, Entries.names, List.map_cons] at ih ⊢
    rw [ih, Request.parameterName, ask.name]
    rfl

theorem filter_asks (asks : List.Forall₂ (fun p entry => p.Asks entry.1) taken values) :
    List.Forall₂ (fun p entry => p.Asks entry.1) (taken.filter (·.isPositionalOnly))
      (values.filter (·.1.positionalOnly)) := by
  induction asks with
  | nil => exact .nil
  | @cons p entry taken values ask _ ih =>
    rw [List.filter_cons, List.filter_cons, ask.positionalOnly]
    split
    · exact .cons ask ih
    · exact ih

theorem zip_asks (asks : List.Forall₂ (fun p entry => p.Asks entry.1) taken values) :
    (taken.zip (values.map (·.2))).map (fun (p, v) => (p.name, v)) = givenTo values := by
  induction asks with
  | nil => rfl
  | @cons p entry taken values ask _ ih =>
    simp only [List.map_cons, List.zip_cons_cons, givenTo] at ih ⊢
    rw [ih, Request.parameterName, ask.name]
    rfl

/-- By position, each parameter that is asked for receives its own argument, because those left out
come later. -/
theorem filled_ofRequests (signature : Signature ps)
    (front : taken.filter (·.isPositionalOnly) <+: ps.filter (·.isPositionalOnly))
    (asks : List.Forall₂ (fun p entry => p.Asks entry.1) taken values) :
    (ofRequests values).filled ps = givenTo (values.filter (·.1.positionalOnly)) ∧
      (ofRequests values).surplus ps = [] := by
  obtain ⟨rest, parts⟩ := front
  have asks := filter_asks asks
  have count : (taken.filter (·.isPositionalOnly)).length =
      ((values.filter (·.1.positionalOnly)).map (·.2)).length := by
    rw [List.length_map]
    exact asks.length_eq
  unfold filled surplus
  rw [signature.positional_eq, ← parts, List.append_assoc]
  constructor
  · have cut (more : List Parameter) : (taken.filter (·.isPositionalOnly) ++ more).zip
        (ofRequests values).positional = (taken.filter (·.isPositionalOnly)).zip
          ((values.filter (·.1.positionalOnly)).map (·.2)) := by
      have whole := @List.zip_append _ _ _ more _ [] count
      simpa [ofRequests] using whole
    rw [cut]
    exact zip_asks asks
  · rw [List.drop_eq_nil_iff, List.length_append, count]
    exact Nat.le_add_right _ _

theorem asked (asks : List.Forall₂ (fun p entry => p.Asks entry.1) taken values)
    {entry : Request × Value} (listed : entry ∈ values) : ∃ p ∈ taken, p.Asks entry.1 := by
  induction asks with
  | nil => contradiction
  | @cons p first taken values ask _ ih =>
    rcases List.mem_cons.mp listed with rfl | listed
    · exact ⟨p, List.mem_cons_self, ask⟩
    · obtain ⟨own, passed, ask⟩ := ih listed
      exact ⟨own, List.mem_cons_of_mem _ passed, ask⟩

section
variable (signature : Signature ps) (sublist : taken.Sublist (ps.filter (!·.isVariadic)))
  (asks : List.Forall₂ (fun p entry => p.Asks entry.1) taken values)
include signature sublist asks

theorem distinct_givenTo : (givenTo values).names.Nodup := by
  rw [names_givenTo asks]
  exact signature.names.sublist ((sublist.trans List.filter_sublist).map _)

theorem asks_of_name {p : Parameter} (mem : p ∈ ps) {entry : Request × Value}
    (listed : entry ∈ values) (same : entry.1.parameterName = p.name) :
    p ∈ taken ∧ p.Asks entry.1 := by
  obtain ⟨own, passed, ask⟩ := asked asks listed
  rw [Request.parameterName, ask.name] at same
  have declared := List.mem_of_mem_filter (sublist.subset passed)
  rw [← signature.eq_of_name declared mem same]
  exact ⟨passed, ask⟩

theorem taken_of_lookup {p : Parameter} (mem : p ∈ ps) {v : Value}
    (found : (givenTo values).lookup p.name = some v) : p ∈ taken := by
  obtain ⟨entry, listed, same⟩ := List.mem_map.mp (Entries.mem_of_lookup found)
  exact (asks_of_name signature sublist asks mem listed (congrArg Prod.fst same)).1

theorem lookup_part (P : Bool → Bool) {p : Parameter} (mem : p ∈ ps) :
    (givenTo (values.filter fun entry => P entry.1.positionalOnly)).lookup p.name =
      if P p.isPositionalOnly then (givenTo values).lookup p.name else none := by
  have distinct := distinct_givenTo signature sublist asks
  have part : (givenTo (values.filter fun entry => P entry.1.positionalOnly)).names.Nodup :=
    distinct.sublist ((List.filter_sublist.map _).map _)
  have way {entry : Request × Value} (listed : entry ∈ values)
      (same : entry.1.parameterName = p.name) : entry.1.positionalOnly = p.isPositionalOnly :=
    (asks_of_name signature sublist asks mem listed same).2.positionalOnly
  refine Option.ext fun v => ?_
  rw [Entries.lookup_iff_mem part, Option.ite_none_right_eq_some, Entries.lookup_iff_mem distinct]
  constructor
  · intro found
    obtain ⟨entry, chosen, same⟩ := List.mem_map.mp found
    obtain ⟨listed, passed⟩ := List.mem_filter.mp chosen
    rw [way listed (congrArg Prod.fst same)] at passed
    exact ⟨passed, List.mem_map.mpr ⟨entry, listed, same⟩⟩
  · rintro ⟨passed, found⟩
    obtain ⟨entry, listed, same⟩ := List.mem_map.mp found
    rw [← way listed (congrArg Prod.fst same)] at passed
    exact List.mem_map.mpr ⟨entry, List.mem_filter.mpr ⟨listed, passed⟩, same⟩

omit signature in
theorem unclaimed_ofRequests : (ofRequests values).unclaimed ps = [] := by
  unfold unclaimed
  rw [List.filter_eq_nil_iff]
  intro named listed
  obtain ⟨entry, chosen, rfl⟩ := List.mem_map.mp listed
  obtain ⟨listed, byName⟩ := List.mem_filter.mp chosen
  obtain ⟨p, passed, ask⟩ := asked asks listed
  obtain ⟨mem, plain⟩ := List.mem_filter.mp (sublist.subset passed)
  have nameable : p.isNameable := by
    rw [ask.positionalOnly] at byName
    cases kind : p.kind <;>
      simp_all [Parameter.isNameable, Parameter.isVariadic, Parameter.isPositionalOnly]
  have name : p.name = entry.1.parameterName := by rw [Request.parameterName, ask.name]; rfl
  simp only [Bool.not_eq_true, Bool.not_eq_false', List.any_eq_true]
  exact ⟨p, mem, by simp [nameable, name]⟩

theorem valueOf_ofRequests
    (front : taken.filter (·.isPositionalOnly) <+: ps.filter (·.isPositionalOnly))
    (left : ∀ p ∈ ps, p ∉ taken → p.isVariadic ∨ p.default.isSome) {p : Parameter} (mem : p ∈ ps) :
    (ofRequests values).valueOf title ps p = .ok (p.received (givenTo values)) := by
  obtain ⟨filled, surplus⟩ := filled_ofRequests signature front asks
  have byPosition := lookup_part signature sublist asks id mem
  have byName := lookup_part signature sublist asks not mem
  simp only [id] at byPosition
  unfold valueOf Parameter.received
  rw [filled, named_ofRequests, surplus, unclaimed_ofRequests sublist asks, byPosition, byName]
  cases found : (givenTo values).lookup p.name with
  | some v =>
    have plain := (List.mem_filter.mp
      (sublist.subset (taken_of_lookup signature sublist asks mem found))).2
    cases kind : p.kind <;>
      simp_all [Parameter.isNameable, Parameter.isVariadic, Parameter.isPositionalOnly]
  | none =>
    have skipped : p ∉ taken := by
      intro passed
      have named : p.name ∈ (givenTo values).names := by
        rw [names_givenTo asks]
        exact List.mem_map_of_mem passed
      rw [Entries.mem_names, found] at named
      contradiction
    have default := left p mem skipped
    cases kind : p.kind <;> cases value : p.default <;> simp_all [Parameter.isVariadic]

end

end Arguments

/-- The call binds if it asks for some of the parameters, for the first of the positional-only ones,
and leaves out what is variadic or has a default. -/
theorem binds_of_asks {ps taken : List Parameter} {requests : List Request}
    (signature : Signature ps) (sublist : taken.Sublist (ps.filter (!·.isVariadic)))
    (front : taken.filter (·.isPositionalOnly) <+: ps.filter (·.isPositionalOnly))
    (left : ∀ p ∈ ps, p ∉ taken → p.isVariadic ∨ p.default.isSome)
    (asks : List.Forall₂ Parameter.Asks taken requests) : Binds requests ps := by
  have names : requests.map (·.parameterName) = taken.map (·.name) := by
    clear sublist front left
    induction asks with
    | nil => rfl
    | cons ask _ ih => rw [List.map_cons, List.map_cons, ih, Request.parameterName, ask.name]; rfl
  constructor
  · intro q mem
    clear left front names
    induction asks with
    | nil => contradiction
    | @cons p first taken requests ask _ ih =>
      rcases List.mem_cons.mp mem with rfl | mem
      · obtain ⟨declared, plain⟩ := List.mem_filter.mp (sublist.subset List.mem_cons_self)
        exact ⟨p, declared, by simpa using plain, ask.name⟩
      · exact ih (List.sublist_of_cons_sublist sublist) mem
  · rw [names]
    exact signature.names.sublist ((sublist.trans List.filter_sublist).map _)
  · intro p mem unasked
    refine left p mem fun passed => unasked ?_
    rw [names]
    exact List.mem_map_of_mem passed
  · rintro title values rfl
    rw [List.forall₂_map_right_iff] at asks
    obtain ⟨-, surplus⟩ := Arguments.filled_ofRequests signature front asks
    have unclaimed := Arguments.unclaimed_ofRequests sublist asks
    unfold Arguments.bind
    rw [surplus, unclaimed]
    refine Outcome.mapM_eq_ok.mpr (List.forall₂_map_right_iff.mpr (List.forall₂_same.mpr ?_))
    intro p mem
    rw [Arguments.valueOf_ofRequests signature sublist asks front left mem]
    rfl

end Wiring
