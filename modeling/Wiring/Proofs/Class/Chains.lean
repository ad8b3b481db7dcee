import Mathlib
import Wiring.Proofs.Class.Ancestry
import Wiring.Proofs.Hint.Reflexivity
import Wiring.Proofs.Registry.Separation

/-! Which chain of bases supplies the arguments of a generic ancestor. A chain goes from a class
through written bases to the ancestor and puts the arguments on the way into each other. Of several
chains it is always the leading one that counts, which takes the first base that leads to the
ancestor wherever there are more, whether or not it says anything about arguments. -/
namespace Wiring

namespace Outcome
variable {ε α β : Type}

theorem findSomeM?_append_cons {f : α → Except ε (Option β)} {before after : List α} {a : α}
    (nothing : ∀ b ∈ before, f b = .ok none) :
    (before ++ a :: after).findSomeM? f = (do
      match ← f a with
      | some b => return some b
      | none => after.findSomeM? f) := by
  induction before with
  | nil => rfl
  | cons first before ih =>
    rw [List.cons_append, List.findSomeM?_cons, nothing first List.mem_cons_self]
    exact ih fun b mem => nothing b (List.mem_cons_of_mem _ mem)

end Outcome

namespace World
variable {w : World} {G c k : ClassRef} {σ τ : Bindings} {arguments : List Hint}

/-- A chain of written bases from a class, whose parameters are bound by `σ`, to `G`, and the
arguments it supplies. At each class it goes on with a base picked among those of the class. -/
inductive ChainBy (w : World) (G : ClassRef) (picks : List Hint → Hint → Prop) :
    ClassRef → Bindings → List Hint → Prop
  | here (σ : Bindings) : ChainBy w G picks G σ (w.ownArguments G σ)
  | through {c k : ClassRef} {σ τ : Bindings} {base : Hint} {arguments : List Hint} (other : c ≠ G)
      (picked : picks (w.info c).baseHints base) (behind : base.baseClass? = some k)
      (bound : σ.substitute (.ofParameters (w.info k).parameters base.arguments) = .ok τ)
      (rest : ChainBy w G picks k τ arguments) : ChainBy w G picks c σ arguments

/-- A chain through any bases. -/
abbrev Chain (w : World) (G : ClassRef) : ClassRef → Bindings → List Hint → Prop :=
  w.ChainBy G fun bases base => base ∈ bases

/-- The chain that goes on with the first base that leads to `G`. -/
abbrev LeadingChain (w : World) (G : ClassRef) : ClassRef → Bindings → List Hint → Prop :=
  w.ChainBy G fun bases base => bases.find? (w.leads G) = some base

theorem LeadingChain.chain (leading : w.LeadingChain G c σ arguments) :
    w.Chain G c σ arguments := by
  induction leading with
  | here σ => exact .here σ
  | through other picked behind bound _ chain =>
    exact .through other (List.mem_of_find?_eq_some picked) behind bound chain

theorem ChainBy.length {picks : List Hint → Hint → Prop}
    (chain : w.ChainBy G picks c σ arguments) :
    arguments.length = (w.info G).parameters.length := by
  induction chain with
  | here σ => exact List.length_map _
  | through _ _ _ _ _ ih => exact ih

def searchThrough (w : World) (G c : ClassRef) (σ : Bindings) (base : Hint) :
    Except FormationFault (Option (List Hint)) :=
  match base.origin?.getD base with
  | .cls k =>
    if Hint.isGenericForm k || !w.derives k G then .ok none
    else if k.rank < c.rank then do
      let own := Bindings.ofParameters (w.info k).parameters base.arguments
      w.searchArguments G k (← σ.substitute own)
    else .ok none
  | _ => .ok none

theorem searchArguments_eq (other : c ≠ G) : w.searchArguments G c σ =
    (w.info c).baseHints.findSomeM? (w.searchThrough G c σ) := by
  rw [searchArguments, if_neg other]
  rfl

theorem searchThrough_apart {base : Hint} (apart : ¬ w.leads G base) :
    w.searchThrough G c σ base = .ok none := by
  unfold searchThrough
  split
  · rename_i k found
    have behind : base.baseClass? = some k := by
      rw [Hint.baseClass?, found]
      rfl
    have apart : ¬ w.derives k G := fun derives => apart (leads_eq_true.mpr ⟨k, behind, derives⟩)
    simp [apart]
  · rfl

theorem not_isGenericForm_of_derives (proper : G.Proper) (derives : w.derives k G) :
    ¬ Hint.isGenericForm k := by
  intro form
  unfold Hint.isGenericForm at form
  split at form
  · exact not_proper_of_derives_builtin (.inr (.inl rfl)) derives proper
  · exact not_proper_of_derives_builtin (.inr (.inr rfl)) derives proper
  · contradiction

theorem searchThrough_leads {base : Hint} (proper : G.Proper) (behind : base.baseClass? = some k)
    (derives : w.derives k G) (lower : k.rank < c.rank) :
    w.searchThrough G c σ base = (do
      let τ ← σ.substitute (.ofParameters (w.info k).parameters base.arguments)
      w.searchArguments G k τ) := by
  unfold searchThrough
  rw [Hint.origin_of_baseClass? behind]
  simp [not_isGenericForm_of_derives proper derives, derives, lower]

/-- The first base that leads to `G` decides, if the search through it does not come back with
nothing. -/
theorem searchArguments_first {base : Hint} (other : c ≠ G) (proper : G.Proper)
    (first : (w.info c).baseHints.find? (w.leads G) = some base)
    (behind : base.baseClass? = some k) (derives : w.derives k G) (lower : k.rank < c.rank)
    (answers : ∀ τ, w.searchArguments G k τ ≠ .ok none) :
    w.searchArguments G c σ = (do
      let τ ← σ.substitute (.ofParameters (w.info k).parameters base.arguments)
      w.searchArguments G k τ) := by
  obtain ⟨-, before, after, split, apart⟩ := List.find?_eq_some_iff_append.mp first
  have passes : ∀ base' ∈ before, w.searchThrough G c σ base' = .ok none :=
    fun base' mem => searchThrough_apart (by simpa using apart base' mem)
  rw [searchArguments_eq other, split, Outcome.findSomeM?_append_cons passes,
    searchThrough_leads proper behind derives lower]
  cases σ.substitute (.ofParameters (w.info k).parameters base.arguments) with
  | error fault => rfl
  | ok τ =>
    change (w.searchArguments G k τ >>= _) = w.searchArguments G k τ
    rcases found : w.searchArguments G k τ with fault | _ | arguments
    · rfl
    · exact absurd found (answers τ)
    · rfl

theorem exists_first_base (inherits : w.Inherits) (proper : G.Proper) (other : c ≠ G)
    (derives : w.derives c G) : ∃ base k, (w.info c).baseHints.find? (w.leads G) = some base ∧
      base.baseClass? = some k ∧ w.derives k G ∧ k.rank < c.rank := by
  have order := inherits c (knows_of_derives derives proper)
  obtain ⟨base, listed, leads⟩ :=
    order.covered G (List.contains_iff_mem.mp derives) other.symm proper
  obtain ⟨first, found⟩ := Option.isSome_iff_exists.mp
    (List.find?_isSome.mpr ⟨base, listed, leads⟩)
  obtain ⟨k, behind, above⟩ := leads_eq_true.mp (List.find?_some found)
  exact ⟨first, k, found, behind, above,
    order.lower first (List.mem_of_find?_eq_some found) k behind⟩

theorem searchArguments_ne_none (inherits : w.Inherits) (proper : G.Proper)
    (derives : w.derives c G) : w.searchArguments G c σ ≠ .ok none := by
  induction rank : c.rank using Nat.strong_induction_on generalizing c σ with
  | h n ih =>
    subst rank
    by_cases other : c = G
    · rw [searchArguments, if_pos other]
      simp
    · obtain ⟨base, k, first, behind, above, lower⟩ :=
        exists_first_base inherits proper other derives
      rw [searchArguments_first other proper first behind above lower fun τ => ih _ lower above rfl]
      intro none
      obtain ⟨τ, -, none⟩ := Outcome.bind_eq_ok.mp none
      exact ih _ lower above rfl none

theorem searchArguments_eq_some (inherits : w.Inherits) (proper : G.Proper)
    (derives : w.derives c G) :
    w.searchArguments G c σ = .ok (some arguments) ↔ w.LeadingChain G c σ arguments := by
  induction rank : c.rank using Nat.strong_induction_on generalizing c σ with
  | h n ih =>
    subst rank
    by_cases other : c = G
    · subst other
      rw [searchArguments, if_pos rfl]
      constructor
      · intro own
        cases own
        exact .here σ
      · rintro (_ | ⟨other, -, -, -, -⟩)
        · rfl
        · exact absurd rfl other
    obtain ⟨base, k, first, behind, above, lower⟩ := exists_first_base inherits proper other derives
    rw [searchArguments_first other proper first behind above lower
      fun τ => searchArguments_ne_none inherits proper above, Outcome.bind_eq_ok]
    constructor
    · rintro ⟨τ, bound, rest⟩
      exact .through other first behind bound ((ih _ lower above rfl).mp rest)
    · rintro (_ | ⟨_, picked, behind', bound, rest⟩)
      · exact absurd rfl other
      · cases first.symm.trans picked
        cases behind.symm.trans behind'
        exact ⟨_, bound, (ih _ lower above rfl).mpr rest⟩

theorem genericArguments_cls (proper : G.Proper) (derives : w.derives c G) :
    w.genericArguments G (.cls c) = w.searchArguments G c [] := by
  have noOrigin : (Hint.cls c).origin? = none := by
    cases c with
    | declared n => rfl
    | builtin b =>
      cases b
      case generic =>
        exact absurd proper (not_proper_of_derives_builtin (.inr (.inl rfl)) derives)
      all_goals rfl
  unfold genericArguments
  simp [noOrigin, derives]

/-- A class matches a hint for a generic ancestor with just the arguments it supplies. -/
theorem matchesHint_supplied (derives : w.derives c G)
    (supplied : w.genericArguments G (.cls c) = .ok (some arguments))
    (count : arguments.length = (w.info G).parameters.length)
    (closed : ∀ a ∈ arguments, a.Closed) (regular : ∀ a ∈ arguments, a.Regular) :
    w.matchesHint .strict (.cls c) (.alias .typing G arguments) = .ok true := by
  have assignable : w.assignable (.cls c) (.alias .typing G arguments) := by
    simp [assignable, Hint.raw, isSubclass_of_derives derives]
  have agree : Hint.agreesAll .strict arguments arguments := by
    rw [Hint.agreesAll_eq_true]
    intro a b place
    obtain ⟨rfl, mem⟩ := Hint.eq_of_mem_zip_self place
    exact Hint.agrees_self (closed a mem) (regular a mem)
  have whole : (Hint.alias .typing G arguments).arguments = arguments := by
    by_cases callable : G = .builtin .callable
    · have none : arguments = [] := by
        rw [callable] at count
        exact List.length_eq_zero_iff.mp count
      rw [callable, none]
      rfl
    · exact Hint.arguments_alias callable
  rw [matchesHint_eq rfl supplied (by simp [Hint.isVar]) assignable, whole]
  simp [agree]

theorem ownArguments_nil : w.ownArguments c [] = (w.info c).parameters := by
  unfold ownArguments
  rw [List.map_congr_left (g := id) ?_, List.map_id]
  intro h _
  unfold Bindings.get
  split <;> rfl

theorem ofParameters_eq (parameters arguments : List Hint) :
    Bindings.ofParameters parameters arguments =
      (parameters.zip arguments).filterMap fun
        | (.var id _ _, argument) => some (id, argument)
        | _ => none := by
  induction parameters generalizing arguments with
  | nil => rfl
  | cons p parameters ih =>
    cases arguments with
    | nil => cases p <;> rfl
    | cons a arguments => cases p <;> simp [Bindings.ofParameters, ih]

theorem bindingsFor_supplied (proper : G.Proper) (derives : w.derives c G)
    (supplied : w.genericArguments G (.cls c) = .ok (some arguments))
    (closed : ∀ a ∈ arguments, a.Closed) :
    w.bindingsFor (.cls c) G = .ok (.ofParameters (w.info G).parameters arguments) := by
  have bound (pair : Hint × Hint) (mem : pair ∈ (w.info G).parameters.zip arguments) :
      ¬ pair.2.isVar := closed pair.2 (List.of_mem_zip mem).2 pair.2 .self
  rw [ofParameters_eq, bindingsFor, typeVariables]
  by_cases none : (w.info G).parameters.isEmpty || (Hint.cls c).class? = some G
  · rw [if_pos none]
    -- Then there is no variable to bind: `G` has none, or they would be the arguments themselves.
    have unbound (pair : Hint × Hint) (mem : pair ∈ (w.info G).parameters.zip arguments) :
        pair.1 = pair.2 := by
      rcases Bool.or_eq_true_iff.mp none with empty | own
      · rw [List.isEmpty_iff.mp empty] at mem
        contradiction
      · cases of_decide_eq_true own
        rw [genericArguments_cls proper derives, searchArguments, if_pos rfl, ownArguments_nil]
          at supplied
        cases supplied
        exact (Hint.eq_of_mem_zip_self mem).1
    refine congrArg Except.ok (Eq.symm (List.filterMap_eq_nil_iff.mpr ?_))
    rintro ⟨parameter, argument⟩ mem
    cases unbound _ mem
    have bound := bound _ mem
    split
    · rename_i same
      cases same
      exact absurd rfl bound
    · rfl
  · rw [if_neg none, supplied]
    refine congrArg (fun pairs => Except.ok (List.filterMap _ pairs)) (List.filter_eq_self.mpr ?_)
    intro pair mem
    simpa using bound pair mem

/-- What a class supplies to a generic ancestor, where a chain of bases fixes all its arguments and
all chains that do so agree: the arguments on the leading chain, whatever they are. They are the
fixed ones exactly if the leading chain is one of those that fix all, and only then does the class
match the ancestor with these arguments, and the variables of the ancestor stand for them. -/
theorem genericArguments_chain (inherits : w.Inherits) (proper : G.Proper)
    (derives : w.derives c G) (chain : w.Chain G c [] arguments)
    (closed : ∀ a ∈ arguments, a.Closed)
    (unique : ∀ others, w.Chain G c [] others → (∀ a ∈ others, a.Closed) → others = arguments) :
    (∀ found, w.genericArguments G (.cls c) = .ok (some found) ↔ w.LeadingChain G c [] found) ∧
    w.genericArguments G (.cls c) ≠ .ok none ∧
    (w.genericArguments G (.cls c) = .ok (some arguments) ↔
      ∃ found, w.LeadingChain G c [] found ∧ ∀ a ∈ found, a.Closed) ∧
    (w.genericArguments G (.cls c) = .ok (some arguments) →
      ((∀ a ∈ arguments, a.Regular) →
        w.matchesHint .strict (.cls c) (.alias .typing G arguments) = .ok true) ∧
      w.bindingsFor (.cls c) G = .ok (.ofParameters (w.info G).parameters arguments)) := by
  have follows (found : List Hint) : w.genericArguments G (.cls c) = .ok (some found) ↔
      w.LeadingChain G c [] found := by
    rw [genericArguments_cls proper derives, searchArguments_eq_some inherits proper derives]
  refine ⟨follows, ?_, ?_, fun supplied => ⟨fun regular => ?_, ?_⟩⟩
  · rw [genericArguments_cls proper derives]
    exact searchArguments_ne_none inherits proper derives
  · rw [follows]
    constructor
    · exact fun leading => ⟨arguments, leading, closed⟩
    · rintro ⟨found, leading, fixed⟩
      rw [← unique found leading.chain fixed]
      exact leading
  · exact matchesHint_supplied derives supplied chain.length closed regular
  · exact bindingsFor_supplied proper derives supplied closed

end World

/-! Repositories of items. One kind says nothing about its items, one holds numbers, and two kinds
are both of these. Which of the two is a repository of numbers depends on the order of its bases. -/
namespace Repositories

def item : Hint := .var 1 "T" none

def int : Hint := .cls (.builtin .int)

def repo (args : List Hint) : Hint := .alias .typing (.declared 0) args

def kind (name : String) (bases : List ClassRef) (line : List Nat) : ClassInfo where
  name := name
  qualifiedName := name
  bases := bases
  linearization := line.map .declared ++ [.builtin .generic, .builtin .object]

def stock : World where
  moduleName := "stock"
  classes := [
    { kind "Repo" [.builtin .generic] [0] with
      writtenBases := some [.alias .typing (.builtin .generic) [item]]
      parameters := [item] },
    kind "RawRepo" [.declared 0] [1, 0],
    { kind "IntRepo" [.declared 0] [2, 0] with writtenBases := some [repo [int]] },
    kind "Both" [.declared 1, .declared 2] [3, 1, 2, 0],
    kind "Turned" [.declared 2, .declared 1] [4, 2, 1, 0]]

theorem stock_inherits : stock.Inherits := by
  rintro (b | n) known
  · exact b.inherits stock
  · have known : n < 5 := known
    interval_cases n <;> exact ⟨by decide, by decide, by decide⟩

theorem raw_chains {arguments : List Hint}
    (chain : stock.Chain (.declared 0) (.declared 1) [] arguments) : arguments = [item] := by
  rcases chain with _ | ⟨-, picked, behind, bound, rest⟩
  cases List.mem_singleton.mp picked
  cases behind
  cases bound
  rcases rest with _ | ⟨other, -, -, -, -⟩
  · rfl
  · exact absurd rfl other

theorem int_chains {arguments : List Hint}
    (chain : stock.Chain (.declared 0) (.declared 2) [] arguments) : arguments = [int] := by
  rcases chain with _ | ⟨-, picked, behind, bound, rest⟩
  cases List.mem_singleton.mp picked
  cases behind
  cases bound
  rcases rest with _ | ⟨other, -, -, -, -⟩
  · rfl
  · exact absurd rfl other

theorem closed_int : ∀ a ∈ [int], a.Closed := by
  intro a mem
  cases List.mem_singleton.mp mem
  exact Hint.closed_cls _

theorem not_closed_item : ¬ ∀ a ∈ [item], a.Closed :=
  fun closed => closed item List.mem_cons_self item .self rfl

/-- A class with both kinds as bases: of the chains that fix the items all fix them to numbers. -/
theorem mixed_chains {c : ClassRef} (other : c ≠ .declared 0)
    (picks : ∀ base, base ∈ (stock.info c).baseHints ↔
      base = .cls (.declared 1) ∨ base = .cls (.declared 2)) :
    stock.Chain (.declared 0) c [] [int] ∧
      ∀ others, stock.Chain (.declared 0) c [] others → (∀ a ∈ others, a.Closed) →
        others = [int] := by
  constructor
  · have numbers : stock.Chain (.declared 0) (.declared 2) [] [int] :=
      .through (by decide) (List.mem_singleton_self (repo [int])) rfl rfl (.here _)
    exact .through other ((picks _).mpr (.inr rfl)) rfl rfl numbers
  · rintro others (_ | ⟨-, picked, behind, bound, rest⟩) closed
    · exact absurd rfl other
    · rcases (picks _).mp picked with rfl | rfl
      · cases behind
        cases bound
        rw [raw_chains rest] at closed
        exact absurd closed not_closed_item
      · cases behind
        cases bound
        exact int_chains rest

def turned : ClassRef := .declared 4

theorem turned_numbers : stock.genericArguments (.declared 0) (.cls turned) = .ok (some [int]) ∧
    stock.matchesHint .strict (.cls turned) (repo [int]) = .ok true ∧
    stock.bindingsFor (.cls turned) (.declared 0) = .ok [(1, int)] := by
  obtain ⟨chain, unique⟩ : stock.Chain (.declared 0) turned [] [int] ∧
      ∀ others, stock.Chain (.declared 0) turned [] others → (∀ a ∈ others, a.Closed) →
        others = [int] := by
    refine mixed_chains (by decide) fun base => ?_
    change base ∈ [Hint.cls (.declared 2), .cls (.declared 1)] ↔ _
    simp [or_comm]
  obtain ⟨follows, -, -, fixed⟩ := World.genericArguments_chain stock_inherits (by decide)
    (by decide) chain closed_int unique
  have numbers : stock.LeadingChain (.declared 0) (.declared 2) [] [int] :=
    .through (by decide) rfl rfl rfl (.here _)
  have leading : stock.LeadingChain (.declared 0) turned [] [int] :=
    .through (by decide) rfl rfl rfl numbers
  have supplied := (follows [int]).mpr leading
  obtain ⟨matched, bound⟩ := fixed supplied
  refine ⟨supplied, matched fun a mem v part => ?_, bound⟩
  cases List.mem_singleton.mp mem
  cases part
  contradiction

def both : ClassRef := .declared 3

theorem both_open : stock.Inherits ∧ stock.derives both (.declared 0) ∧
    stock.Chain (.declared 0) both [] [int] ∧ (∀ a ∈ [int], a.Closed) ∧
    (∀ others, stock.Chain (.declared 0) both [] others → (∀ a ∈ others, a.Closed) →
      others = [int]) ∧
    stock.genericArguments (.declared 0) (.cls both) = .ok (some [item]) ∧
    stock.matchesHint .strict (.cls both) (repo [int]) = .ok false ∧
    stock.bindingsFor (.cls both) (.declared 0) = .ok [] := by
  obtain ⟨chain, unique⟩ : stock.Chain (.declared 0) both [] [int] ∧
      ∀ others, stock.Chain (.declared 0) both [] others → (∀ a ∈ others, a.Closed) →
        others = [int] := by
    refine mixed_chains (by decide) fun base => ?_
    change base ∈ [Hint.cls (.declared 1), .cls (.declared 2)] ↔ _
    simp
  have supplied : stock.genericArguments (.declared 0) (.cls both) = .ok (some [item]) := by cbv
  have apart : stock.matchesHint .strict (.cls both) (repo [int]) = .ok false := by cbv
  have unbound : stock.bindingsFor (.cls both) (.declared 0) = .ok [] := by cbv
  exact ⟨stock_inherits, by decide, chain, closed_int, unique, supplied, apart, unbound⟩

end Repositories
end Wiring
