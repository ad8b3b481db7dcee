import Wiring.Class.Basic

/-! How objects are laid out. Each class adds to the layout of one of its bases, the main one; two
classes have the same layout if they add the same to the same base. -/
namespace Wiring.World

def mainLine (w : World) (c : ClassRef) : List ClassRef :=
  let base := (w.info c).mainBase
  if base.rank < c.rank then c :: w.mainLine base else [c]
termination_by c.rank

/-- The class adds data or places, which other bases cannot make up for. -/
def isSolid (w : World) : ClassRef → Bool
  | .builtin b => b.holdsData
  | c => !(w.info c).layout.places.isEmpty

def solidBase (w : World) (c : ClassRef) : ClassRef :=
  ((w.mainLine c).find? w.isSolid).getD (.builtin .object)

/-- Of several bases the main one: the first whose data and places contain those of the others. -/
def mainBaseOf (w : World) : List ClassRef → ClassRef
  | [] => .builtin .object
  | base :: others => others.foldl (fun main other =>
      let own := w.solidBase main
      let candidate := w.solidBase other
      if candidate != own && (w.mainLine candidate).contains own then other else main) base

def givesWeakReference (w : World) (c : ClassRef) : Bool :=
  (w.mainLine c).any fun k => (w.info k).layout.weakReference

def hasItems (w : World) (c : ClassRef) : Bool :=
  (w.linearization c).any fun
    | .builtin b => b.hasItems
    | _ => false

def isMutable : ClassRef → Bool
  | .builtin b => b.isMutable
  | .declared _ => true

/-- The class without those at the front of its line of main bases that add nothing. -/
def layoutClass (w : World) (c : ClassRef) : ClassRef :=
  ((w.mainLine c).find? fun k => !isMutable k || (w.info k).layout != {}).getD c

def sameLayout (w : World) (a b : ClassRef) : Bool :=
  if isMutable a && isMutable b then
    let a := w.layoutClass a
    let b := w.layoutClass b
    let first := w.info a
    let second := w.info b
    a == b || (isMutable a && isMutable b && first.mainBase == second.mainBase &&
      first.layout == second.layout && !(first.layout.attributes && w.hasItems first.mainBase))
  else false

end Wiring.World
