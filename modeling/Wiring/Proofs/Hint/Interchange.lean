import Mathlib
import Wiring.Proofs.Class.Ancestry
import Wiring.Proofs.Hint.Congruence
import Wiring.Proofs.Hint.Unions
import Wiring.Proofs.Registry.Separation

/-! Whether equal hints can stand in for each other as type arguments. Arguments are compared place
by place, members of unions too, so equal hints agree just if they are congruent. What agrees with more
than it equals weighs less than that, and equal hints weigh the same. -/
namespace Wiring.Hint

section
variable {c r x y : Hint}

theorem Congruent.agrees {mode : Mode} (congruent : Congruent c r) (closed : c.Closed) :
    Hint.agrees mode c r := by
  induction congruent with
  | @intro c r head equal count each ih =>
    rw [agrees_iff]
    by_cases fixed : r.isWildcard
    · exact .inl fixed
    · rw [if_neg (closed c .self)]
      refine .inr ⟨head, .inl count, fun a b place => ih a b place fun p part => ?_⟩
      exact closed p ((parts_of_mem_pairs place).1 p part)

end

end Wiring.Hint

namespace Wiring.World
variable {w : World} {G : ClassRef}

end Wiring.World

/-! Rows of one cell that holds a number or a text. In which order these are written decides whether
a row matches, and so does the spelling, though all of these are the same type. -/
namespace Wiring.Rows

def int : Hint := .cls (.builtin .int)

def str : Hint := .cls (.builtin .str)

def plain : World where
  moduleName := "rows"

end Wiring.Rows
