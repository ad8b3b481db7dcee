import Mathlib
import Wiring.Proofs.Class.Chains
import Wiring.Proofs.Class.Parameters
import Wiring.Proofs.Hint.Filling

/-! Lines of classes with one base each. What a class supplies to an ancestor is what any class
between the two supplies, with the parameters of that class replaced by what is supplied to them. -/
namespace Wiring
open Hint (IsType Formed Occurs put replaced)

namespace Bindings
variable {w : World} {σ : Bindings} {params args : List Hint}

theorem exists_get_ofParameters (vars : ∀ p ∈ params, p.isVar)
    (count : args.length = params.length) {p : Hint} (mem : p ∈ params) :
    ∃ q a, (q, a) ∈ params.zip args ∧ q.same p ∧
      ∀ f : Hint → Hint, (ofParameters params (args.map f)).get p = f a := by
  induction params generalizing args with
  | nil => contradiction
  | cons q params ih =>
    match args, count with
    | a :: args, count =>
      obtain ⟨id, name, bound, rfl⟩ := Hint.exists_of_isVar (vars q List.mem_cons_self)
      obtain ⟨id', name', bound', rfl⟩ := Hint.exists_of_isVar (vars p mem)
      by_cases own : id' = id
      · subst own
        refine ⟨_, a, List.mem_cons_self, Hint.same_var.mpr ⟨_, _, rfl⟩, fun f => ?_⟩
        simp [ofParameters, get]
      · have later : Hint.var id' name' bound' ∈ params :=
          (List.mem_cons.mp mem).resolve_left (by rintro ⟨⟩; exact own rfl)
        obtain ⟨q, b, listed, equal, found⟩ :=
          ih (fun p mem => vars p (List.mem_cons_of_mem _ mem)) (by simpa using count) later
        refine ⟨q, b, List.mem_cons_of_mem _ listed, equal, fun f => ?_⟩
        rw [← found f]
        simp [ofParameters, get, List.lookup, beq_false_of_ne own]

theorem isType_var (id : Nat) (name : String) (bound : Option Hint) :
    IsType w (.var id name bound) :=
  ⟨.leaf rfl rfl (Hint.same_var.mpr ⟨_, _, rfl⟩), rfl, by rintro ⟨⟩⟩

theorem typed_ofParameters (types : ∀ a ∈ args, IsType w a) :
    (ofParameters params args).Typed w := by
  intro id name bound
  rw [get]
  cases found : (ofParameters params args).lookup id with
  | none => exact isType_var id name bound
  | some t =>
    obtain ⟨_, _, split, -⟩ := List.lookup_eq_some_iff.mp found
    have mem : (id, t) ∈ ofParameters params args := by simp [split]
    rw [World.ofParameters_eq] at mem
    obtain ⟨⟨p, a⟩, place, binding⟩ := List.mem_filterMap.mp mem
    have type := types a (List.of_mem_zip place).2
    cases p <;> cases binding
    exact type

theorem substitute_ofParameters (typed : σ.Typed w) (types : ∀ a ∈ args, IsType w a) :
    σ.substitute (ofParameters params args) =
      .ok (ofParameters params (args.map (replaced σ))) := by
  induction params generalizing args with
  | nil => rfl
  | cons p params ih =>
    cases args with
    | nil => cases p <;> rfl
    | cons a args =>
      obtain ⟨here, rest⟩ := List.forall_mem_cons.mp types
      cases p with
      | var id name bound =>
        rw [ofParameters, substitute, List.mapM_cons]
        dsimp only
        rw [Hint.substitute_eq typed here]
        change (σ.substitute (ofParameters params args) >>= _) = _
        rw [ih rest]
        rfl
      | _ => exact ih rest

theorem ofParameters_ne_nil (vars : ∀ p ∈ params, p.isVar) (count : args.length = params.length)
    (some : params ≠ []) : ofParameters params args ≠ [] := by
  match params, args, some, count with
  | p :: params, a :: args, _, _ =>
    obtain ⟨id, name, bound, rfl⟩ := Hint.exists_of_isVar (vars p List.mem_cons_self)
    exact List.cons_ne_nil _ _

theorem map_get_ofParameters (vars : ∀ p ∈ params, p.isVar) (distinct : Hint.Distinct params)
    (count : args.length = params.length) : params.map (ofParameters params args).get = args := by
  induction params generalizing args with
  | nil => exact (List.length_eq_zero_iff.mp count).symm
  | cons q params ih =>
    match args, count with
    | a :: args, count =>
      obtain ⟨id, name, bound, rfl⟩ := Hint.exists_of_isVar (vars q List.mem_cons_self)
      have rest : ∀ p ∈ params, p.isVar := fun p mem => vars p (List.mem_cons_of_mem _ mem)
      have later : ∀ p ∈ params, (ofParameters (.var id name bound :: params) (a :: args)).get p =
          (ofParameters params args).get p := by
        intro p mem
        obtain ⟨id', name', bound', rfl⟩ := Hint.exists_of_isVar (rest p mem)
        have other : id' ≠ id := by
          rintro rfl
          exact List.rel_of_pairwise_cons distinct mem (Hint.same_var.mpr ⟨_, _, rfl⟩)
        simp [ofParameters, get, List.lookup, beq_false_of_ne other]
      rw [List.map_cons, List.map_congr_left later,
        ih rest (List.Pairwise.of_cons distinct) (by simpa using count)]
      simp [ofParameters, get]

end Bindings

namespace World
variable {w : World} {B C G T c k : ClassRef} {σ τ ρ : Bindings} {args : List Hint} {base : Hint}

def given (w : World) (c : ClassRef) (args : List Hint) : Bindings :=
  .ofParameters (w.info c).parameters args

theorem typed_given (types : ∀ a ∈ args, IsType w a) : (w.given c args).Typed w :=
  Bindings.typed_ofParameters types

theorem given_of_nil (none : (w.info c).parameters = []) (args : List Hint) :
    w.given c args = [] := by
  rw [given, none]
  rfl

theorem given_ne_nil (vars : w.Parameterized) (count : args.length = (w.info c).parameters.length)
    (some : (w.info c).parameters ≠ []) : w.given c args ≠ [] :=
  Bindings.ofParameters_ne_nil (vars c).1 count some

theorem isType_ownArguments (vars : w.Parameterized) (typed : σ.Typed w) :
    ∀ a ∈ w.ownArguments c σ, IsType w a := by
  intro a mem
  obtain ⟨p, listed, rfl⟩ := List.mem_map.mp mem
  obtain ⟨id, name, bound, rfl⟩ := Hint.exists_of_isVar ((vars c).1 p listed)
  exact typed id name bound

/-- `base` stands for `k` and is the only base of `c` besides the forms that generic classes are
declared with. It has an argument for each parameter of `k`, and these use the parameters of `c`. -/
structure OnlyBase (w : World) (c k : ClassRef) (base : Hint) : Prop where
  behind : base.baseClass? = some k
  single : ∀ other ∈ (w.info c).baseHints, ∀ k', other.baseClass? = some k' → k'.Proper →
    other = base
  complete : base.arguments.length = (w.info k).parameters.length
  types : ∀ a ∈ base.arguments, IsType w a
  bound : ∀ a ∈ base.arguments, ∀ v, Occurs v a → ∃ p ∈ (w.info c).parameters, p.same v

/-- A line of classes with one base each, up to `G`. -/
inductive Lineage (w : World) (G : ClassRef) : ClassRef → Prop
  | here : Lineage w G G
  | under {c k : ClassRef} {base : Hint} (other : c ≠ G) (derives : w.derives c G)
      (only : w.OnlyBase c k base) (above : Lineage w G k) : Lineage w G c

theorem proper_of_derives (proper : T.Proper) (derives : w.derives k T) : k.Proper := by
  refine ⟨?_, not_isGenericForm_of_derives proper derives⟩
  rintro rfl
  exact not_proper_of_derives_builtin (.inl rfl) derives proper

theorem eq_or_lower_of_derives (inherits : w.Inherits) (proper : T.Proper)
    (derives : w.derives c T) : c = T ∨ T.rank < c.rank := by
  induction rank : c.rank using Nat.strong_induction_on generalizing c with
  | h n ih =>
    subst rank
    by_cases other : c = T
    · exact .inl other
    · obtain ⟨_, k, -, -, above, lower⟩ := exists_first_base inherits proper other derives
      rcases ih _ lower above rfl with rfl | before
      · exact .inr lower
      · exact .inr (Nat.lt_trans before lower)

theorem OnlyBase.search (only : w.OnlyBase c k base) (inherits : w.Inherits) (proper : T.Proper)
    (other : c ≠ T) (derives : w.derives c T) (typed : σ.Typed w) :
    w.derives k T ∧ w.searchArguments T c σ = w.searchArguments T k
      (w.given k (base.arguments.map (replaced σ))) := by
  obtain ⟨base', k', first, behind, above, lower⟩ :=
    exists_first_base inherits proper other derives
  have same := only.single base' (List.mem_of_find?_eq_some first) k' behind
    (proper_of_derives proper above)
  subst same
  cases behind.symm.trans only.behind
  refine ⟨above, ?_⟩
  rw [searchArguments_first other proper first behind above lower
      fun τ => searchArguments_ne_none inherits proper above,
    Bindings.substitute_ofParameters typed only.types]
  rfl

/-- What a class on a line is reached with: arguments for its parameters, from which the search goes
on to the end of the line. -/
theorem Lineage.reaches (line : w.Lineage G C) (inherits : w.Inherits) (proper : B.Proper)
    (proper' : G.Proper) (upper : w.derives C B) (lower : w.derives B G)
    (count : args.length = (w.info C).parameters.length) (types : ∀ a ∈ args, IsType w a) :
    ∃ reached : List Hint, reached.length = (w.info B).parameters.length ∧
      (∀ a ∈ reached, IsType w a) ∧ w.Lineage G B ∧
      w.searchArguments B C (w.given C args) =
        .ok (some (w.ownArguments B (w.given B reached))) ∧
      w.searchArguments G C (w.given C args) =
        w.searchArguments G B (w.given B reached) := by
  -- Up the line both searches take the same step, until the one for `B` is at its end.
  induction line generalizing args with
  | here =>
    have same : G = B := by
      rcases eq_or_lower_of_derives inherits proper upper with same | before
      · exact same
      rcases eq_or_lower_of_derives inherits proper' lower with same | after
      · exact same.symm
      · omega
    subst same
    exact ⟨args, count, types, .here, by rw [searchArguments, if_pos rfl], rfl⟩
  | @under c k base other derives only above ih =>
    by_cases own : c = B
    · subst own
      exact ⟨args, count, types, .under other derives only above,
        by rw [searchArguments, if_pos rfl], rfl⟩
    have typed : (w.given c args).Typed w := typed_given types
    obtain ⟨upper, toB⟩ := only.search inherits proper own upper typed
    obtain ⟨-, toG⟩ := only.search inherits proper' other derives typed
    rw [toB, toG]
    refine ih upper (by rw [List.length_map, only.complete]) fun a mem => ?_
    obtain ⟨a, listed, rfl⟩ := List.mem_map.mp mem
    exact Hint.isType_replaced typed (only.types a listed)

/-- What `σ` binds the parameters of a class to is what `τ` binds them to, with variables replaced
by `ρ`. -/
structure Composed (w : World) (ρ : Bindings) (c : ClassRef) (σ τ : Bindings) : Prop where
  typed : σ.Typed w
  typed' : τ.Typed w
  each : ∀ p ∈ (w.info c).parameters, (σ.get p).same (put ρ (τ.get p))
  full : σ = [] → (w.info c).parameters = []

/-- Bound by `σ`, the parameters of a class are themselves with what `σ` binds them to put in. -/
theorem Composed.start (typed : σ.Typed w) (vars : w.Parameterized)
    (full : σ = [] → (w.info c).parameters = []) :
    w.Composed (w.given c (w.ownArguments c σ)) c σ [] where
  typed := typed
  typed' := Bindings.isType_var
  full := full
  each p mem := by
    obtain ⟨q, a, place, equal, found⟩ := Bindings.exists_get_ofParameters (vars c).1 rfl mem
    obtain ⟨rfl, -⟩ := Hint.eq_of_mem_zip_self place
    have found := found σ.get
    obtain ⟨id, name, bound, rfl⟩ := Hint.exists_of_isVar ((vars c).1 p mem)
    have listed := (List.of_mem_zip place).1
    obtain ⟨id', name', bound', rfl⟩ := Hint.exists_of_isVar ((vars c).1 q listed)
    obtain ⟨_, _, same⟩ := Hint.same_var.mp equal
    cases same
    change (σ.get _).same ((w.given c (w.ownArguments c σ)).get _)
    rw [given, ownArguments, found]
    exact Hint.get_same typed

theorem Composed.replaced {b : Hint} (composed : w.Composed ρ c σ τ) (typed : ρ.Typed w)
    (vars : w.Parameterized) (type : IsType w b)
    (bound : ∀ v, Occurs v b → ∃ p ∈ (w.info c).parameters, p.same v) :
    (b.replaced σ).same (put ρ (b.replaced τ)) := by
  have formed := type.formed
  by_cases isOpen : b.isOpen
  · -- A variable of `b` is a parameter up to its name, by which bindings are not looked up.
    have agree : ∀ v, Occurs v b → (σ.get v).same (put ρ (τ.get v)) := by
      intro v occurs
      obtain ⟨p, mem, equal⟩ := bound v occurs
      have each := composed.each p mem
      obtain ⟨id, name, top, rfl⟩ := Hint.exists_of_isVar ((vars c).1 p mem)
      obtain ⟨name', top', rfl⟩ := Hint.same_var.mp equal
      have own := (composed.typed id name' top').formed
      have inner := (composed.typed' id name top).formed
      have inner' := (composed.typed' id name' top').formed
      have there := Hint.same_put_same typed inner inner' (Hint.get_same composed.typed')
      exact own.trans (own.trans (Hint.get_same composed.typed) each) there
    have full : σ ≠ [] := by
      obtain ⟨v, occurs⟩ := Hint.exists_occurs isOpen
      obtain ⟨p, mem, -⟩ := bound v occurs
      intro none
      rw [composed.full none] at mem
      contradiction
    rw [Hint.replaced_of_ne_nil full]
    by_cases once : τ = []
    · -- Then `τ` leaves `b` as it is written, and only `ρ` replaces anything.
      subst once
      refine Hint.same_put composed.typed typed formed formed (fun v occurs => ?_) formed.same_self
      have agree := agree v occurs
      obtain ⟨id, name, top, rfl⟩ := Hint.exists_of_isVar occurs.isVar
      exact agree
    · rw [Hint.replaced_of_ne_nil once]
      exact Hint.same_put_put typed composed.typed' composed.typed formed agree
  · rw [Hint.replaced_of_not_isOpen formed isOpen, Hint.replaced_of_not_isOpen formed isOpen,
      Hint.put_of_not_isOpen formed isOpen]
    exact formed.same_self

theorem Composed.step (composed : w.Composed ρ c σ τ) (typed : ρ.Typed w) (vars : w.Parameterized)
    (only : w.OnlyBase c k base) :
    w.Composed ρ k (w.given k (base.arguments.map (Hint.replaced σ)))
      (w.given k (base.arguments.map (Hint.replaced τ))) where
  typed := typed_given (List.forall_mem_map.mpr fun b listed =>
    Hint.isType_replaced composed.typed (only.types b listed))
  typed' := typed_given (List.forall_mem_map.mpr fun b listed =>
    Hint.isType_replaced composed.typed' (only.types b listed))
  each p mem := by
    obtain ⟨_, b, place, -, found⟩ :=
      Bindings.exists_get_ofParameters (vars k).1 only.complete mem
    have listed := (List.of_mem_zip place).2
    rw [given, given, found, found]
    exact composed.replaced typed vars (only.types b listed) (only.bound b listed)
  full none := by
    by_contra some
    exact given_ne_nil vars (by rw [List.length_map, only.complete]) some none

theorem Lineage.composes (line : w.Lineage G c) (inherits : w.Inherits) (vars : w.Parameterized)
    (proper : G.Proper) (typed : ρ.Typed w) (composed : w.Composed ρ c σ τ) :
    ∃ xs ys, w.searchArguments G c σ = .ok (some xs) ∧ w.searchArguments G c τ = .ok (some ys) ∧
      (∀ y ∈ ys, IsType w y) ∧ Hint.sameAll xs (ys.map (put ρ)) := by
  induction line generalizing σ τ with
  | here =>
    refine ⟨w.ownArguments G σ, w.ownArguments G τ, by rw [searchArguments, if_pos rfl],
      by rw [searchArguments, if_pos rfl], isType_ownArguments vars composed.typed', ?_⟩
    rw [Hint.sameAll_iff, ownArguments, ownArguments, List.map_map, List.forall₂_map_left_iff,
      List.forall₂_map_right_iff, List.forall₂_same]
    exact composed.each
  | under other derives only _ ih =>
    obtain ⟨-, left⟩ := only.search inherits proper other derives composed.typed
    obtain ⟨-, right⟩ := only.search inherits proper other derives composed.typed'
    rw [left, right]
    exact ih (composed.step typed vars only)

inductive Applied (w : World) (c : ClassRef) : Hint → List Hint → Prop
  | bare (none : (w.info c).parameters = []) : Applied w c (.cls c) []
  | arguments {spelling : Spelling} {args : List Hint} (some : args ≠ [])
      (count : args.length = (w.info c).parameters.length) :
      Applied w c (.alias spelling c args) args

theorem Applied.length {h : Hint} (applied : w.Applied c h args) :
    args.length = (w.info c).parameters.length := by
  cases applied with
  | bare none => rw [none]
  | arguments _ count => exact count

theorem Applied.genericArguments {h : Hint} (applied : w.Applied c h args) (vars : w.Parameterized)
    (proper : T.Proper) (derives : w.derives c T) : w.genericArguments T h =
      w.searchArguments T c (w.given c args) := by
  cases applied with
  | bare none =>
    rw [given_of_nil none]
    exact genericArguments_cls proper derives
  | @arguments spelling _ some count =>
    have whole : (Hint.alias spelling c args).arguments = args := by
      refine Hint.arguments_alias ?_
      rintro rfl
      exact some (List.length_eq_zero_iff.mp count)
    unfold World.genericArguments
    by_cases own : c = T
    · subst own
      rw [searchArguments, if_pos rfl, ownArguments, given,
        Bindings.map_get_ofParameters (vars c).1 (vars c).2 count]
      simp [Hint.origin?, whole]
    · simp [Hint.origin?, whole, own, derives, given]

theorem Lineage.derives (line : w.Lineage G C) (inherits : w.Inherits) (proper : B.Proper)
    (upper : w.derives C B) : w.derives C G := by
  cases line with
  | here => exact List.contains_iff_mem.mpr (inherits _ (knows_of_derives upper proper)).own
  | under _ derives _ _ => exact derives

/-- On a line of classes with one base each, from `C` over `B` to `G`: what `C` supplies to `G` with
arguments of its own is what `B` supplies to `G`, with the parameters of `B` replaced by what `C`
supplies to them. -/
theorem genericArguments_compose {h : Hint} (inherits : w.Inherits) (vars : w.Parameterized)
    (line : w.Lineage G C) (proper : B.Proper) (proper' : G.Proper) (upper : w.derives C B)
    (lower : w.derives B G) (applied : w.Applied C h args) (types : ∀ a ∈ args, IsType w a) :
    ∃ bs ys xs, w.genericArguments B h = .ok (some bs) ∧
      w.genericArguments G (.cls B) = .ok (some ys) ∧ w.genericArguments G h = .ok (some xs) ∧
      Hint.substituteAll (w.given B bs) ys = .ok (ys.map (replaced (w.given B bs))) ∧
      Hint.sameAll xs (ys.map (replaced (w.given B bs))) := by
  obtain ⟨reached, count, types', upwards, toB, toG⟩ :=
    line.reaches inherits proper proper' upper lower applied.length types
  have typed : (w.given B reached).Typed w := typed_given types'
  have full : w.given B reached = [] → (w.info B).parameters = [] := fun none => by
    by_contra some
    exact given_ne_nil vars count some none
  have supplied := isType_ownArguments (c := B) vars typed
  obtain ⟨xs, ys, left, right, typesY, equal⟩ :=
    upwards.composes inherits vars proper' (typed_given supplied) (Composed.start typed vars full)
  refine ⟨_, ys, xs, ?_, ?_, ?_, Hint.substituteAll_eq (typed_given supplied) typesY, ?_⟩
  · rw [applied.genericArguments vars proper upper, toB]
  · rw [genericArguments_cls proper' lower, right]
  · rw [applied.genericArguments vars proper' (line.derives inherits proper upper), toG, left]
  · by_cases none : (w.info B).parameters = []
    · -- Nothing is replaced, and both searches are the same.
      rw [given_of_nil none] at left
      cases left.symm.trans right
      have kept : xs.map (replaced []) = xs := List.map_id xs
      rw [given_of_nil none, kept]
      exact Hint.sameAll_self fun y mem => (typesY y mem).formed.same_self
    · have some : w.given B (w.ownArguments B (w.given B reached)) ≠ [] :=
        given_ne_nil vars (List.length_map _) none
      rw [Hint.replaced_of_ne_nil some]
      exact equal

end World

/-! Tables of keys and values, turned around on the way: the values of the upper table are lists of
the keys of the lower one, and the lowest has optional values for keys. -/
namespace Tables
open Repositories (kind int)

def key : Hint := .var 1 "K" none

def value : Hint := .var 2 "V" none

def optional (h : Hint) : Hint := .union .typing [h, .noneType]

def listOf (h : Hint) : Hint := .alias .plain (.builtin .list) [h]

def generic (args : List Hint) : Hint := .alias .typing (.builtin .generic) args

def table : ClassRef := .declared 0

def turned : ClassRef := .declared 1

def twin : ClassRef := .declared 2

def tables : World where
  moduleName := "tables"
  classes := [
    { kind "Table" [.builtin .generic] [0] with
      writtenBases := some [generic [key, value]]
      parameters := [key, value] },
    { kind "Turned" [table, .builtin .generic] [1, 0] with
      writtenBases := some [.alias .typing table [value, listOf key], generic [key, value]]
      parameters := [key, value] },
    { kind "Twin" [turned] [2, 1, 0] with
      writtenBases := some [.alias .typing turned [optional value, value]]
      parameters := [value] }]

theorem tables_inherits : tables.Inherits := by
  rintro (b | n) known
  · exact b.inherits tables
  · have known : n < 3 := known
    interval_cases n <;> exact ⟨by decide, by decide, by decide⟩

theorem tables_parameterized : tables.Parameterized := by
  refine World.parameterized_of_classes fun info mem => ?_
  simp only [tables, List.mem_cons, List.not_mem_nil, or_false] at mem
  rcases mem with rfl | rfl | rfl <;>
    exact ⟨by decide, by simp [Hint.Distinct, Hint.same, key, value]⟩

theorem isType_cls (k : ClassRef) (proper : ¬ Hint.isGenericForm k) : IsType tables (.cls k) :=
  ⟨.leaf rfl rfl ((Hint.same_atomic rfl).mpr rfl), by simp [Hint.typeArgument, proper],
    by rintro ⟨⟩⟩

theorem isType_listOf {h : Hint} (type : IsType tables h) : IsType tables (listOf h) := by
  have spelled : Hint.Spelled tables (.builtin .list) .plain := .inr (by decide)
  exact ⟨.applied spelled (List.forall_mem_singleton.mpr type.formed), Hint.valid_alias spelled⟩

theorem isType_optional (id : Nat) (name : String) :
    IsType tables (optional (.var id name none)) := by
  have type := Bindings.isType_var (w := tables) id name none
  have empty := isType_cls (.builtin .noneType) (by decide)
  refine ⟨.union Nat.one_lt_two ?_ (fun m mem => ?_) (fun m mem => ?_) (by rintro ⟨⟩), rfl,
    by rintro ⟨⟩⟩
  · simp [Hint.Distinct, Hint.same, Hint.noneType]
  · rcases List.mem_cons.mp mem with rfl | mem
    · exact type.formed
    · cases List.mem_singleton.mp mem
      exact empty.formed
  · rcases List.mem_cons.mp mem with rfl | mem
    · exact ⟨type.valid, by rintro _ _ ⟨⟩⟩
    · cases List.mem_singleton.mp mem
      exact ⟨empty.valid, by rintro _ _ ⟨⟩⟩

theorem turned_base : tables.OnlyBase turned table (.alias .typing table [value, listOf key]) where
  behind := rfl
  single := by
    rintro other mem k behind proper
    rcases List.mem_cons.mp mem with rfl | mem
    · rfl
    · cases List.mem_singleton.mp mem
      cases behind
      exact absurd rfl proper.2
  complete := rfl
  types := List.forall_mem_cons.mpr ⟨Bindings.isType_var _ _ _,
    List.forall_mem_singleton.mpr (isType_listOf (Bindings.isType_var _ _ _))⟩
  bound := by
    rintro a mem v occurs
    rcases List.mem_cons.mp mem with rfl | mem
    · cases occurs
      exact ⟨value, List.mem_cons_of_mem _ List.mem_cons_self, Hint.same_var.mpr ⟨_, _, rfl⟩⟩
    · cases List.mem_singleton.mp mem
      rcases occurs with _ | ⟨inside, occurs⟩
      · contradiction
      cases List.mem_singleton.mp inside
      cases occurs
      exact ⟨key, List.mem_cons_self, Hint.same_var.mpr ⟨_, _, rfl⟩⟩

theorem twin_base :
    tables.OnlyBase twin turned (.alias .typing turned [optional value, value]) where
  behind := rfl
  single := fun other mem _ _ _ => List.mem_singleton.mp mem
  complete := rfl
  types := List.forall_mem_cons.mpr
    ⟨isType_optional _ _, List.forall_mem_singleton.mpr (Bindings.isType_var _ _ _)⟩
  bound := by
    have member : value ∈ (tables.info twin).parameters := List.mem_cons_self
    rintro a mem v occurs
    rcases List.mem_cons.mp mem with rfl | mem
    · rcases occurs with _ | _ | ⟨inside, occurs⟩
      · contradiction
      rcases List.mem_cons.mp inside with rfl | inside
      · cases occurs
        exact ⟨value, member, Hint.same_var.mpr ⟨_, _, rfl⟩⟩
      · cases List.mem_singleton.mp inside
        cases occurs
        contradiction
    · cases List.mem_singleton.mp mem
      cases occurs
      exact ⟨value, member, Hint.same_var.mpr ⟨_, _, rfl⟩⟩

theorem twin_line : tables.Lineage table twin :=
  .under (by decide) (by decide) twin_base (.under (by decide) (by decide) turned_base .here)

theorem twin_composed :
    tables.genericArguments turned (.alias .typing twin [int]) = .ok (some [optional int, int]) ∧
    tables.genericArguments table (.cls turned) = .ok (some [value, listOf key]) ∧
    ∃ xs, tables.genericArguments table (.alias .typing twin [int]) = .ok (some xs) ∧
      Hint.sameAll xs [int, listOf (optional int)] := by
  have applied : tables.Applied twin (.alias .typing twin [int]) [int] :=
    .arguments (List.cons_ne_nil _ _) rfl
  obtain ⟨bs, ys, xs, toTurned, fromTurned, toTable, -, equal⟩ :=
    World.genericArguments_compose tables_inherits tables_parameterized twin_line
      (B := turned) (by decide) (by decide) (by decide) (by decide) applied
      (List.forall_mem_singleton.mpr (isType_cls _ (by decide)))
  have supplied : tables.genericArguments turned (.alias .typing twin [int]) =
      .ok (some [optional int, int]) := by cbv
  have own : tables.genericArguments table (.cls turned) = .ok (some [value, listOf key]) := by cbv
  cases supplied.symm.trans toTurned
  cases own.symm.trans fromTurned
  exact ⟨supplied, own, xs, toTable, equal⟩

end Tables

/-! Stations relay feeds of numbers, whatever they are given, but a relay has a place for types
only. The shelves have feeds of lists, and a variable in a list is nobody's parameter. -/
namespace Stations
open Repositories (kind item int)

def generic : Hint := .alias .typing (.builtin .generic) [item]

def feed : ClassRef := .declared 0

def numberFeed : ClassRef := .declared 1

def relay : ClassRef := .declared 2

def station : ClassRef := .declared 3

def listing : ClassRef := .declared 4

def index : ClassRef := .declared 5

def shelf : ClassRef := .declared 6

def live (h : Hint) : Hint := .annotated h [.text "live"]

def stations : World where
  moduleName := "stations"
  classes := [
    { kind "Feed" [.builtin .generic] [0] with
      writtenBases := some [generic]
      parameters := [item] },
    { kind "NumberFeed" [feed, .builtin .generic] [1, 0] with
      writtenBases := some [.alias .typing feed [int], generic]
      parameters := [item] },
    { kind "Relay" [numberFeed] [2, 1, 0] with
      writtenBases := some [.alias .typing numberFeed [.union .typing [live item, .noneType]]]
      parameters := [item] },
    { kind "Station" [relay] [3, 2, 1, 0] with
      writtenBases := some [.alias .typing relay [item]]
      parameters := [item] },
    { kind "Listing" [feed] [4, 0] with
      writtenBases := some [.alias .typing feed [.list [item]]] },
    { kind "Index" [listing, .builtin .generic] [5, 4, 0] with
      writtenBases := some [.cls listing, generic]
      parameters := [item] },
    { kind "Shelf" [index] [6, 5, 4, 0] with
      writtenBases := some [.alias .typing index [item]]
      parameters := [item] }]

/-- Arguments that are not types everywhere: a form, a list, an ellipsis, and data that cannot be
hashed. -/
def oddities : List Hint :=
  [.cls (.builtin .protocol), .list [int], .ellipsis, .annotated int [.literal (.list [])]]

theorem stations_apart :
    (∀ a ∈ oddities,
      stations.genericArguments relay (.alias .typing station [a]) = .ok (some [a]) ∧
      stations.genericArguments feed (.cls relay) = .ok (some [int]) ∧
      Hint.substituteAll (stations.given relay [a]) [int] = .ok [int] ∧
      ∀ xs, stations.genericArguments feed (.alias .typing station [a]) ≠ .ok xs) ∧
    stations.genericArguments index (.alias .typing shelf [int]) = .ok (some [int]) ∧
    stations.genericArguments feed (.cls index) = .ok (some [.list [item]]) ∧
    Hint.substituteAll (stations.given index [int]) [.list [item]] = .ok [.list [int]] ∧
    stations.genericArguments feed (.alias .typing shelf [int]) = .ok (some [.list [item]]) ∧
    ¬ Hint.sameAll [.list [item]] [.list [int]] := by
  refine ⟨?_, by cbv, by cbv, by cbv, by cbv, by simp [Hint.sameAll, Hint.same, item, int]⟩
  have numbers : stations.genericArguments feed (.cls relay) = .ok (some [int]) := by cbv
  have kept (a : Hint) : Hint.substituteAll (stations.given relay [a]) [int] = .ok [int] := rfl
  have supplied (a : Hint) : stations.genericArguments relay (.alias .typing station [a]) =
      .ok (some [a]) := by cbv
  have failure (a : Hint) (mem : a ∈ oddities) : ∃ fault,
      stations.genericArguments feed (.alias .typing station [a]) = .error fault := by
    simp only [oddities, List.mem_cons, List.not_mem_nil, or_false] at mem
    rcases mem with rfl | rfl | rfl | rfl
    · exact ⟨.notAType, by cbv⟩
    · exact ⟨.noModule "list", by cbv⟩
    · exact ⟨.noModule "ellipsis", by cbv⟩
    · exact ⟨.unhashable, by cbv⟩
  intro a mem
  obtain ⟨fault, failed⟩ := failure a mem
  refine ⟨supplied a, numbers, kept a, fun xs found => ?_⟩
  cases failed.symm.trans found

end Stations
end Wiring
