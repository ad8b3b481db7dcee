import Wiring.Object.Access
import Wiring.Proofs.Entries

/-! Where objects keep the values of their attributes: among the attributes they carry, or in the
place that a class has for one. A property leads on to the attribute that keeps its value. -/
namespace Wiring

inductive Seat where
  | own (name : String)
  | place (owner : ClassRef) (name : String)
deriving DecidableEq, Repr

namespace Object

def content (o : Object) : Seat → Option Value
  | .own name => o.attributes.lookup name
  | .place owner name => o.places.lookup (owner, name)

def put (o : Object) (x : Value) : Seat → Object
  | .own name => { o with attributes := o.attributes.set name x }
  | .place owner name =>
    { o with places := ((owner, name), x) :: o.places.filter (·.1 != (owner, name)) }

def clear (o : Object) : Seat → Object
  | .own name => { o with attributes := o.attributes.erase name }
  | .place owner name => { o with places := o.places.filter (·.1 != (owner, name)) }

variable (o : Object) (x : Value)

@[simp] theorem cls_put (seat : Seat) : (o.put x seat).cls = o.cls := by cases seat <;> rfl

@[simp] theorem cls_clear (seat : Seat) : (o.clear seat).cls = o.cls := by cases seat <;> rfl

@[simp] theorem content_put_self (seat : Seat) : (o.put x seat).content seat = some x := by
  cases seat with
  | own name => exact Entries.lookup_set_self o.attributes name x
  | place owner name => simp [put, content]

theorem content_put_of_ne {seat other : Seat} (ne : other ≠ seat) :
    (o.put x seat).content other = o.content other := by
  cases seat with
  | own name =>
    cases other with
    | own name' => exact Entries.lookup_set_of_ne (fun same => ne (by rw [same])) o.attributes x
    | place owner name' => rfl
  | place owner name =>
    cases other with
    | own name' => rfl
    | place owner' name' =>
      have apart : (owner', name') ≠ (owner, name) := by
        rintro ⟨rfl, rfl⟩
        exact ne rfl
      have differs : ((owner', name') == (owner, name)) = false := by
        rw [beq_eq_false_iff_ne]
        exact apart
      simp only [put, content, List.lookup_cons, differs]
      exact Entries.lookup_filter_of_ne apart o.places

@[simp] theorem content_clear_self (seat : Seat) : (o.clear seat).content seat = none := by
  cases seat with
  | own name => exact Entries.lookup_erase_self o.attributes name
  | place owner name => exact Entries.lookup_filter_self (owner, name) o.places

theorem content_clear_of_ne {seat other : Seat} (ne : other ≠ seat) :
    (o.clear seat).content other = o.content other := by
  cases seat with
  | own name =>
    cases other with
    | own name' => exact Entries.lookup_erase_of_ne (fun same => ne (by rw [same])) o.attributes
    | place owner name' => rfl
  | place owner name =>
    cases other with
    | own name' => rfl
    | place owner' name' =>
      refine Entries.lookup_filter_of_ne ?_ o.places
      rintro ⟨rfl, rfl⟩
      exact ne rfl

end Object

/-- How an attribute is reached: through properties, at last in a seat, or on the class if that is
empty. -/
structure Route where
  properties : List Property := []
  seat : Seat
  shared : Option Member := none

namespace Route

def Settable (r : Route) : Prop := ∀ p ∈ r.properties, p.readOnly = false ∧ p.rejection = none

def Deletable (r : Route) : Prop := ∀ p ∈ r.properties, p.deletable = true

def reading (r : Route) (o : Object) : Option Value :=
  o.content r.seat <|> r.shared.map Member.onObject

def behind (p : Property) (r : Route) : Route := { r with properties := p :: r.properties }

end Route

namespace World

def directRoute? (w : World) (c : ClassRef) (name : String) : Option Route :=
  match w.member? c name with
  | some (owner, .slot) => some { seat := .place owner name }
  | found =>
    if (found.all fun entry => !entry.2.isManaged) && w.givesAttributes c then
      some { seat := .own name, shared := found.map (·.2) }
    else none

/-- The route to an attribute, through at most as many properties as the limit says. -/
def routeWithin? (w : World) (c : ClassRef) : Nat → String → Option Route
  | 0, name => w.directRoute? c name
  | limit + 1, name =>
    match w.member? c name with
    | some (_, .property p) => (w.routeWithin? c limit p.store).map (Route.behind p)
    | _ => w.directRoute? c name

def route? (w : World) (c : ClassRef) (name : String) : Option Route :=
  w.routeWithin? c w.propertyCount name

def Plain (w : World) (c : ClassRef) (name : String) : Prop :=
  ∀ entry, w.member? c name = some entry → entry.2.isManaged = false

inductive Leads (w : World) (c : ClassRef) : Nat → String → Route → Prop
  | place {limit : Nat} {name : String} {owner : ClassRef}
      (slot : w.member? c name = some (owner, .slot)) :
      Leads w c limit name { seat := .place owner name }
  | own {limit : Nat} {name : String} (plain : w.Plain c name)
      (gives : w.givesAttributes c = true) :
      Leads w c limit name { seat := .own name, shared := (w.member? c name).map (·.2) }
  | property {limit : Nat} {name : String} {owner : ClassRef} {p : Property} {r : Route}
      (member : w.member? c name = some (owner, .property p)) (leads : Leads w c limit p.store r) :
      Leads w c (limit + 1) name (r.behind p)

variable {w : World} {c : ClassRef} {limit : Nat} {name : String} {r : Route}

theorem leads_of_directRoute? (direct : w.directRoute? c name = some r) :
    w.Leads c limit name r := by
  unfold directRoute? at direct
  split at direct
  · rename_i owner slot
    cases direct
    exact .place slot
  · split at direct
    · rename_i plain
      cases direct
      obtain ⟨free, gives⟩ := Bool.and_eq_true_iff.mp plain
      refine .own (fun entry held => ?_) gives
      rw [held] at free
      simpa using free
    · cases direct

theorem leads_of_routeWithin? (route : w.routeWithin? c limit name = some r) :
    w.Leads c limit name r := by
  induction limit generalizing name r with
  | zero => exact leads_of_directRoute? route
  | succ limit ih =>
    unfold routeWithin? at route
    split at route
    · rename_i owner p member
      obtain ⟨rest, further, rfl⟩ := Option.map_eq_some_iff.mp route
      exact .property member (ih further)
    · exact leads_of_directRoute? route

theorem Leads.length_le (leads : w.Leads c limit name r) : r.properties.length ≤ limit := by
  induction leads with
  | place slot => exact Nat.zero_le _
  | own plain gives => exact Nat.zero_le _
  | property member leads ih => exact Nat.succ_le_succ ih

theorem Leads.plain_of_own {kept : String} (leads : w.Leads c limit name r)
    (own : r.seat = .own kept) : w.Plain c kept ∧ w.givesAttributes c = true := by
  induction leads with
  | place slot => cases own
  | own plain gives =>
    cases own
    exact ⟨plain, gives⟩
  | property member leads ih => exact ih own

theorem Leads.seat_of_plain (leads : w.Leads c limit name r) (plain : w.Plain c name) :
    r.seat = .own name := by
  cases leads with
  | place slot => cases plain _ slot
  | own => rfl
  | property member leads => cases plain _ member

end World
end Wiring
