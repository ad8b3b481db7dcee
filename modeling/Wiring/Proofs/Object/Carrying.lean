import Wiring.Proofs.Object.Access

/-! Objects that carry attributes of their own. Where the class leaves it to the system how they are
read and set, reading what an object carries changes nothing, and setting an attribute that no
member of the class manages adds it to what the object carries, without a change to anything
else. -/
namespace Wiring

/-- The class has no methods of its own for reading and setting attributes, and its objects carry
attributes that can be read all together. -/
structure World.Carries (w : World) (c : ClassRef) : Prop where
  read : Run.hook? w c readMethod = none
  assign : Run.hook? w c assignMethod = none
  gives : w.givesAttributes c
  dict : (w.member? c "__dict__").map (·.2) = some (.native .computed)

def Object.fill (o : Object) (values : Entries Value) : Object :=
  { o with attributes := o.attributes.setAll values }

def Store.filled (st : Store) (id : Nat) (values : Entries Value) : Store :=
  { st with heap := st.heap.modify id (·.fill values) }

theorem Store.filled_nil (st : Store) (n : Nat) : st.filled n [] = st := by
  have same : (fun o : Object => o.fill []) = id := rfl
  simp [Store.filled, same]

/-- In the store, the number stands for this object, whose class leaves its attributes to the
system. -/
structure Store.Carrying (st : Store) (id : Nat) (o : Object) : Prop where
  object : st.heap[id]? = some o
  carries : st.world.Carries o.cls

namespace Store
variable {st : Store} {id : Nat} {o : Object}

theorem Carrying.classOf (carrying : st.Carrying id o) : st.classOf (.object id) = o.cls := by
  simp [Store.classOf, World.classOf, carrying.object]

theorem Carrying.filled (carrying : st.Carrying id o) (values : Entries Value) :
    (st.filled id values).Carrying id (o.fill values) where
  object := by simp [Store.filled, carrying.object]
  carries := carrying.carries

theorem filled_cons (st : Store) (id : Nat) (e : String × Value) (values : Entries Value) :
    st.filled id (e :: values) = (st.filled id [e]).filled id values := by
  simp [filled, Object.fill, List.modify_modify_eq, Function.comp_def]

theorem filled_filled {values : Entries Value} (distinct : values.names.Nodup) (st : Store)
    (id : Nat) : (st.filled id values).filled id values = st.filled id values := by
  simp [filled, Object.fill, List.modify_modify_eq, Function.comp_def,
    Entries.setAll_setAll distinct]

end Store

namespace Run
variable {perform : Perform} {st : Store} {id : Nat} {o : Object} {name : String}

theorem exec_readAttribute_carried (carrying : st.Carrying id o) :
    exec (readAttribute perform (.object id) "__dict__") st = (.ok (.dict o.attributes), st) := by
  have cls : st.world.classOf st.heap (.object id) = o.cls := carrying.classOf
  obtain ⟨⟨owner, m⟩, member, computed⟩ := Option.map_eq_some_iff.mp carrying.carries.dict
  cases computed
  have found : st.world.find st.heap (.object id) "__dict__" = .value (.dict o.attributes) := by
    change st.world.findOnObject st.heap (.object id) "__dict__" = _
    unfold World.findOnObject
    rw [cls, member]
    simp [World.workedOnObject, cls, carrying.carries.gives, World.ownAttributes, carrying.object]
  have direct : exec (readFound perform (.object id) "__dict__") st =
      (.ok (.dict o.attributes), st) := by
    rw [readFound, exec_bind, exec_get]
    simp only [found, exec_pure]
  rw [readAttribute, exec_bind, exec_get]
  simp only [carrying.classOf, carrying.carries.read]
  split
  · contradiction
  · exact exec_tryCatch_of_ok direct _
  · exact direct

theorem exec_setAttribute_carried (carrying : st.Carrying id o)
    (plain : st.world.Plain o.cls name) (x : Value) :
    exec (setAttribute perform (.object id) name x) st =
      (.ok (), st.filled id [(name, x)]) := by
  rw [setAttribute, exec_bind, exec_get]
  simp only [carrying.classOf, carrying.carries.assign]
  exact exec_setFound_own carrying.classOf plain carrying.carries.gives x

end Run
end Wiring
