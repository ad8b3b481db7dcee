import Wiring.Literal
import Wiring.Builtin.Basic

/-! Type hints: what a component declares to be and what an injection point asks for.

A hint keeps the spelling it was written with, because a spelling can decide whether two hints are
equal and always decides how a hint is printed. `raw` is the class behind a hint, `origin?` and
`arguments` take a parameterized hint apart. -/
namespace Wiring

/-- A class: one that always exists, or the `n`-th declared one. -/
inductive ClassRef where
  | builtin (b : Builtin)
  | declared (n : Nat)
deriving DecidableEq, Repr, Inhabited

namespace ClassRef

/-- Grows from base to subclass, since a class is declared after its bases. -/
def rank : ClassRef → Nat
  | .builtin b => b.rank
  | .declared n => Builtin.ranks + n

end ClassRef

instance : Coe Builtin ClassRef := ⟨.builtin⟩

inductive Spelling where
  /-- Brackets on the class itself; arguments are kept as written. -/
  | plain
  /-- Brackets on the callable container, whose parameters are listed apart from the result. -/
  | callable
  /-- Brackets on a generic class, or on the second spelling of a container class; an empty
  argument stands for its class and a bare name for a forward reference. -/
  | typing
deriving DecidableEq, Repr, Inhabited

inductive UnionSpelling where
  | typing
  | bar
deriving DecidableEq, Repr, Inhabited

inductive Hint where
  | cls (ref : ClassRef)
  /-- A type variable. Two variables are the same if their numbers are. -/
  | var (id : Nat) (name : String) (bound : Option Hint)
  | none
  | ellipsis
  /-- A bare name, not yet looked up. -/
  | text (name : String)
  /-- A name that stands for a class declared elsewhere. -/
  | forward (name : String)
  /-- The second spelling of a container class, without arguments. -/
  | bare (origin : Builtin)
  /-- The union constructor without members. -/
  | unionForm
  /-- A number among the metadata of an annotated hint. -/
  | literal (value : Literal)
  /-- A qualifier among the metadata. Two qualifiers are the same if their numbers are. -/
  | qualifier (id : Nat) (name : Literal)
  | list (items : List Hint)
  | alias (spelling : Spelling) (origin : ClassRef) (args : List Hint)
  | union (spelling : UnionSpelling) (members : List Hint)
  | annotated (inner : Hint) (metadata : List Hint)
  /-- A value that is no type at all, found under a name: a member of a class, or something known
  everywhere. It may have that name for its own. -/
  | value (owner : Nat) (name written : String) (named : Bool)
deriving Repr, Inhabited

namespace Hint

instance : Coe ClassRef Hint := ⟨.cls⟩

def object : Hint := .cls (.builtin .object)
def any : Hint := .cls (.builtin .any)
def noneType : Hint := .cls (.builtin .noneType)

def isVar : Hint → Bool
  | .var .. => true
  | _ => false

def isAny : Hint → Bool
  | .cls (.builtin .any) => true
  | _ => false

def isNone : Hint → Bool
  | .none => true
  | _ => false

def isNoneType : Hint → Bool
  | .cls (.builtin .noneType) => true
  | _ => false

def class? : Hint → Option ClassRef
  | .cls c => some c
  | _ => .none

def unannotated : Hint → Hint
  | .annotated inner _ => inner.unannotated
  | h => h

mutual

def size : Hint → Nat
  | .list items => 1 + sizeAll items
  | .alias _ _ args => 3 + sizeAll args
  | .union _ members => 3 + sizeAll members
  | .annotated inner metadata => 3 + inner.size + sizeAll metadata
  | _ => 0

def sizeAll : List Hint → Nat
  | [] => 0
  | h :: hs => 1 + h.size + sizeAll hs

end

theorem sizeAll_append (xs ys : List Hint) : sizeAll (xs ++ ys) = sizeAll xs + sizeAll ys := by
  induction xs with
  | nil => simp [sizeAll]
  | cons x xs ih => simp [sizeAll, ih]; omega

def origin? : Hint → Option Hint
  | .alias _ origin _ => some (.cls origin)
  | .bare origin => some (.cls (.builtin origin))
  | .union .typing _ => some .unionForm
  | .union .bar _ => some (.cls (.builtin .unionType))
  | .annotated .. => some (.cls (.builtin .annotated))
  | .cls (.builtin .generic) => some (.cls (.builtin .generic))
  | _ => .none

def callableArguments : List Hint → List Hint
  | [.ellipsis, result] => [.ellipsis, result]
  | [.list params, result] => [.list params, result]
  | args =>
    match args.getLast? with
    | some result => [.list args.dropLast, result]
    | .none => []

/-- The arguments of a parameterized hint; the metadata of an annotated hint follow what it
annotates. -/
def arguments : Hint → List Hint
  | .alias _ (.builtin .callable) args => callableArguments args
  | .alias _ _ args => args
  | .union _ members => members
  | .annotated inner metadata => inner :: metadata
  | _ => []

theorem sizeAll_callableArguments (args : List Hint) :
    sizeAll (callableArguments args) < 3 + sizeAll args := by
  unfold callableArguments
  split
  · omega
  · omega
  · split
    · next result last =>
      obtain ⟨params, rfl⟩ := List.getLast?_eq_some_iff.mp last
      have := sizeAll_append params [result]
      simp [sizeAll, size] at this ⊢
      omega
    · simp only [sizeAll]; omega

theorem sizeAll_arguments_le (h : Hint) : sizeAll h.arguments ≤ h.size := by
  unfold arguments
  split
  · next args =>
    have := sizeAll_callableArguments args
    simp only [size]
    omega
  · simp [size]
  · simp [size]
  · simp only [size, sizeAll]; omega
  · simp [sizeAll]

/-- The class behind a hint, or the hint itself. A type variable stands for its bound, or for
`object` when it has none. -/
def raw : Hint → Hint
  | .var _ _ bound => bound.getD object
  | .annotated inner _ => inner.raw
  | .alias _ origin _ => .cls origin
  | .bare origin => .cls (.builtin origin)
  | .union .typing _ => .unionForm
  | .union .bar _ => .cls (.builtin .unionType)
  | h => h

end Hint
end Wiring
