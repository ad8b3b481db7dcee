import Wiring.Class.Subclass
import Wiring.Generic

/-! Whether a declared type satisfies a required one.

Assignability looks at the classes only. Matching also compares type arguments, which must agree
exactly, at every depth. A candidate that leaves arguments open matches in fallback mode only. The
arguments of a candidate may turn out to be impossible, and then matching it is an error. -/
namespace Wiring

/-- Whether arguments left open count as agreeing. -/
inductive Mode where
  | strict
  | fallback
deriving DecidableEq, Repr

namespace Mode

def accepts : Mode → Bool
  | strict => false
  | fallback => true

end Mode

namespace Hint

def isWildcard (h : Hint) : Bool := h.isAny || h.isVar

mutual

def agrees (mode : Mode) (c r : Hint) : Bool :=
  if r.isWildcard then true
  else if c.isVar then mode.accepts
  else
    match r with
    | .list rs =>
      match c with
      | .list cs => cs.length == rs.length && agreesAll mode cs rs
      | _ => false
    | r =>
      if r.arguments.isEmpty then c.same r || c.raw.same r
      else if !c.raw.same r.raw then false
      else if c.arguments.length != r.arguments.length then mode.accepts
      else agreesAll mode c.arguments r.arguments
termination_by 2 * r.size + 1
decreasing_by
  · simp only [size]; omega
  · have := sizeAll_arguments_le r; omega

/-- Position by position, as far as both lists reach. -/
def agreesAll (mode : Mode) : List Hint → List Hint → Bool
  | c :: cs, r :: rs => agrees mode c r && agreesAll mode cs rs
  | _, _ => true
termination_by _ rs => 2 * sizeAll rs
decreasing_by all_goals simp only [sizeAll]; omega

end

end Hint

namespace World

/-- The candidate's class is the required class or a subclass; an open candidate fits anywhere. -/
def assignable (w : World) (candidate required : Hint) : Bool :=
  candidate.isVar || w.isSubclass candidate.raw required.raw

def matchesHint (w : World) (mode : Mode) (candidate required : Hint) :
    Except FormationFault Bool := do
  if candidate.isVar then return mode.accepts
  if !w.assignable candidate required then return false
  if required.arguments.all Hint.isWildcard then return true
  match ← w.argumentsFor required.raw candidate with
  | none => return mode.accepts
  | some arguments =>
    if arguments.length != required.arguments.length then return mode.accepts
    return Hint.agreesAll mode arguments required.arguments

end World
end Wiring
