import Wiring.Request

/-! Candidates for injection and the outcome of looking for them. -/
namespace Wiring

structure Candidate where
  /-- Unique among the named entries of a registry. -/
  name : String
  declaredType : Hint
  /-- Tags that a qualifier can ask for. -/
  qualifiers : List String := []
  /-- Smaller priorities come first. -/
  priority : Option Int := none
  /-- Wins ties between candidates for a single value. -/
  primary : Bool := false
  /-- Takes part in injection by type. -/
  injectable : Bool := true
  index : Nat := 0
  /-- Registered for a type only, not under a name. -/
  resolvable : Bool := false
deriving Repr, Inhabited

namespace Candidate

def rawType (c : Candidate) : Hint := c.declaredType.origin?.getD c.declaredType

/-- A qualifier asks for a tag or for the name; one that is no text asks for nothing there is. -/
def satisfies (c : Candidate) : Literal → Bool
  | .text q => c.qualifiers.contains q || q == c.name
  | _ => false

end Candidate

inductive Failure where
  | notFound (request : Request)
  | ambiguous (request : Request) (candidates : List Candidate)
deriving Repr, Inhabited

namespace Failure

def request : Failure → Request
  | notFound r => r
  | ambiguous r _ => r

def candidates : Failure → List Candidate
  | notFound _ => []
  | ambiguous _ cs => cs

def reason : Failure → String
  | notFound _ => "not-found"
  | ambiguous .. => "ambiguous"

end Failure

inductive Resolution where
  | value (c : Candidate)
  | values (cs : List Candidate)
  /-- Nothing was found, and nothing had to be. -/
  | empty
  | failure (f : Failure)
deriving Repr, Inhabited

namespace Resolution

def failure? : Resolution → Option Failure
  | failure f => some f
  | _ => none

def found : Resolution → List Candidate
  | value c => [c]
  | values cs => cs
  | empty | failure _ => []

end Resolution
end Wiring
