import Wiring.Proofs.Class.Bodies
import Wiring.Proofs.Class.Points

/-! What a marked member has to do with a scan in which a more derived class hides it. All bodies are
read before anything is left out, so a class cannot be scanned unless the declarations of hidden
members can be read. Where one can, the scan is that of a world in which the member is not marked. -/
namespace Wiring

namespace Member

def marked (s : Settings) : Member → Bool
  | .marker m => s.recognises m
  | .method f | .classMethod f | .staticMethod f => (s.find? f.markers).isSome
  | _ => false

def field? (s : Settings) : String × Member → Option (String × Marker)
  | (name, .marker m) => if s.recognises m then some (name, m) else none
  | _ => none

theorem filter_field? (s : Settings) (name : String) (entry : String × Member) :
    (field? s entry).filter (·.1 != name) = if entry.1 != name then field? s entry else none := by
  obtain ⟨label, m⟩ := entry
  cases m with
  | marker m => by_cases known : s.recognises m <;> simp [field?, known, Option.filter]
  | _ => simp [field?]

end Member

namespace FieldDeclaration

def ofMarker (title : String) (annotations : List (String × Hint)) :
    String × Marker → Except Error FieldDeclaration
  | (name, marker) => match annotations.lookup name with
    | some type => .ok { name, type, marker }
    | none => .error (.unsupportedShape (.fieldNotAnnotated title name))

end FieldDeclaration

namespace Declarations

def without (name : String) (own : Declarations) : Declarations :=
  { own with
    fields := own.fields.filter (·.name != name)
    methods := own.methods.filter (·.name != name)
    members := own.members.filter (· != name) }

def trim (k : ClassRef) (name : String) (own : Declarations) : Declarations :=
  if own.owner = k then own.without name else own

end Declarations

namespace World

/-- The declaration of a member can be read. For a field, the names in all annotations of the body
must be known, and the field must have one. For a method, the names in its own annotations must be
known. A static method has no declaration. -/
def Legible (w : World) (k : ClassRef) (name : String) : Member → Prop
  | .marker _ => ∃ annotations type, w.annotationsOf k = .ok annotations ∧
    annotations.lookup name = some type
  | .method f => name ≠ Constructor.initializer → ∃ ps, w.parametersOf k f = .ok ps
  | .staticMethod _ => False
  | _ => True

variable {w : World} {s : Settings} {c j k : ClassRef} {name : String} {m : Member}
  {body : Namespace}

theorem markedFields_eq (w : World) (s : Settings) (k : ClassRef) :
    w.markedFields s k = (w.info k).members.filterMap (Member.field? s) := by
  unfold markedFields
  congr 1

theorem mem_markedFields {marker : Marker} : (name, marker) ∈ w.markedFields s k ↔
    (name, .marker marker) ∈ (w.info k).members ∧ s.recognises marker := by
  rw [markedFields_eq, List.mem_filterMap]
  constructor
  · rintro ⟨⟨label, m⟩, mem, found⟩
    cases m with
    | marker m =>
      simp only [Member.field?, Option.ite_none_right_eq_some, Option.some.injEq] at found
      obtain ⟨known, same⟩ := found
      cases same
      exact ⟨mem, known⟩
    | _ => cases found
  · rintro ⟨mem, known⟩
    exact ⟨_, mem, if_pos known⟩

theorem filter_markedFields (name : String) : (w.markedFields s k).filter (·.1 != name) =
    ((w.info k).members.erase name).filterMap (Member.field? s) := by
  rw [markedFields_eq, List.filter_filterMap, Entries.erase, List.filterMap_filter]
  congr 1
  funext entry
  exact Member.filter_field? s name entry

theorem declaredFields_eq {annotations : List (String × Hint)}
    (read : w.annotationsOf k = .ok annotations) : w.declaredFields s k =
      (w.markedFields s k).mapM
        (FieldDeclaration.ofMarker (w.info k).qualifiedName annotations) := by
  unfold declaredFields
  dsimp only
  split
  · rename_i empty
    rw [List.isEmpty_iff.mp empty]
    rfl
  · rw [read]
    rfl

theorem without_declarations (w : World) (s : Settings) (k : ClassRef) (name : String) :
    Declarations.without name <$> w.declarations s k = (do
      let fields ← List.filter (·.name != name) <$> w.declaredFields s k
      let methods ← List.filter (·.name != name) <$> w.declaredMethods s k
      return { owner := k, fields, methods
               members := (w.info k).members.names.filter (· != name) }) := by
  unfold declarations
  cases w.declaredFields s k with
  | error e => rfl
  | ok fields => cases w.declaredMethods s k <;> rfl

theorem trim_declarations (w : World) (s : Settings) (k : ClassRef) (name : String) :
    Declarations.trim k name <$> w.declarations s k =
      Declarations.without name <$> w.declarations s k := by
  cases read : w.declarations s k with
  | error e => rfl
  | ok own => exact congrArg Except.ok (if_pos (declarations_names read).1)

theorem declaredMethod_of_not_marked (plain : ¬ m.marked s) :
    w.declaredMethod s k (name, m) = .ok none := by
  cases m with
  | staticMethod f =>
    simp only [Member.marked] at plain
    simp only [declaredMethod, if_neg plain]
  | method f =>
    simp only [Member.marked, Option.isSome_iff_ne_none, not_not] at plain
    simp [declaredMethod, plain]
  | _ => rfl

theorem declaredMethod_of_legible (legible : w.Legible k name m) : ∃ found,
    w.declaredMethod s k (name, m) = .ok found ∧ found.filter (·.name != name) = none := by
  cases m with
  | staticMethod f => exact legible.elim
  | method f =>
    unfold declaredMethod
    dsimp only
    split
    · exact ⟨none, rfl, rfl⟩
    · rename_i later
      obtain ⟨ps, read⟩ := legible later
      split
      · exact ⟨none, rfl, rfl⟩
      · rw [read]
        exact ⟨_, rfl, by simp⟩
  | _ => exact ⟨none, rfl, rfl⟩

theorem legible_of_declarations (held : w.ownMember? k name = some m) (marked : m.marked s)
    {own : Declarations} (declared : w.declarations s k = .ok own) : w.Legible k name m := by
  obtain ⟨fields, declaredFields, declared⟩ := Outcome.bind_eq_ok.mp declared
  obtain ⟨methods, declaredMethods, -⟩ := Outcome.bind_eq_ok.mp declared
  have mem := Entries.mem_of_lookup held
  cases m with
  | marker marker =>
    have listed := mem_markedFields.mpr ⟨mem, marked⟩
    unfold World.declaredFields at declaredFields
    dsimp only at declaredFields
    split at declaredFields
    · rename_i empty
      rw [List.isEmpty_iff.mp empty] at listed
      contradiction
    · obtain ⟨annotations, read, walked⟩ := Outcome.bind_eq_ok.mp declaredFields
      obtain ⟨_, -, made⟩ := Outcome.exists_mem_of_mapM walked listed
      dsimp only at made
      split at made
      · rename_i type own
        exact ⟨annotations, type, read, own⟩
      · cases made
  | method f =>
    intro later
    obtain ⟨_, walked, -⟩ := Outcome.map_eq_ok.mp declaredMethods
    obtain ⟨found, -, made⟩ := Outcome.exists_mem_of_mapM walked mem
    obtain ⟨first, counts⟩ := Option.isSome_iff_exists.mp marked
    simp only [declaredMethod, if_neg later, counts] at made
    obtain ⟨ps, read, -⟩ := Outcome.bind_eq_ok.mp made
    exact ⟨ps, read⟩
  | staticMethod f =>
    obtain ⟨_, walked, -⟩ := Outcome.map_eq_ok.mp declaredMethods
    obtain ⟨found, -, made⟩ := Outcome.exists_mem_of_mapM walked mem
    have counts : (s.find? f.markers).isSome := marked
    rw [declaredMethod, if_pos counts] at made
    cases made
  | _ => trivial

/-! The body of one class is replaced by one that holds the same members, but for those of one name;
none that it holds under this name is marked. -/
section
variable (others : body.erase name = (w.info k).members.erase name)
include others

theorem declarations_withBody_of_ne (other : j ≠ k) :
    (w.withBody k body).declarations s j = w.declarations s j := by
  have members : ((w.withBody k body).info j).members = (w.info j).members :=
    members_withBody_of_ne other
  have read := annotationsOf_withBody others (.inl other)
  have fields : (w.withBody k body).declaredFields s j = w.declaredFields s j := by
    unfold declaredFields
    rw [markedFields_eq, members, ← markedFields_eq, read, qualifiedName_withBody]
  have methods : (w.withBody k body).declaredMethods s j = w.declaredMethods s j := by
    unfold declaredMethods
    rw [members, declaredMethod_withBody]
  unfold declarations
  rw [fields, methods, members]

theorem definingClass?_withBody (held : w.ownMember? k name = some m)
    (hidden : w.definingClass? c name ≠ some k) (text : String) :
    (w.withBody k body).definingClass? c text = w.definingClass? c text := by
  unfold definingClass? at hidden ⊢
  rw [hierarchy_withBody]
  by_cases same : text = name
  · subst same
    refine find?_eq_find? (fun j ne => ?_) (by rw [held]; rfl) hidden
    rw [ownMember?_withBody others (.inl ne)]
  · congr 1
    funext j
    rw [ownMember?_withBody others (.inr same)]

variable (plain : ∀ other, (name, other) ∈ body → ¬ other.marked s)
  (changed : ((w.withBody k body).info k).members = body)
include plain changed

theorem markedFields_withBody :
    (w.withBody k body).markedFields s k = (w.markedFields s k).filter (·.1 != name) := by
  rw [filter_markedFields, ← others, markedFields_eq, changed, Entries.erase,
    List.filterMap_filter]
  refine List.filterMap_congr fun (label, m) mem => ?_
  split
  · rfl
  · rename_i same
    obtain rfl : label = name := by simpa using same
    have free := plain m mem
    cases m with
    | marker m => simpa [Member.field?, Member.marked] using free
    | _ => rfl

variable (order : w.WellFormed) (held : w.ownMember? k name = some m)
  (legible : w.Legible k name m)
include order held legible

theorem declaredFields_withBody
    (read : (w.withBody k body).annotationsOf k = w.annotationsOf k) :
    List.filter (·.name != name) <$> (w.withBody k body).declaredFields s k =
      List.filter (·.name != name) <$> w.declaredFields s k := by
  have fewer := markedFields_withBody others plain changed
  by_cases field : ∃ marker, (name, marker) ∈ w.markedFields s k
  · obtain ⟨marker, field⟩ := field
    have here := (Entries.lookup_iff_mem (order.names_nodup k)).mpr (mem_markedFields.mp field).1
    cases held.symm.trans here
    obtain ⟨annotations, type, known, own⟩ := legible
    have dropping : List.filter (fun d : FieldDeclaration => d.name != name) =
        List.filterMap (Option.guard fun d => d.name != name) := List.filterMap_eq_filter.symm
    rw [declaredFields_eq known, declaredFields_eq (read.trans known), fewer,
      qualifiedName_withBody, dropping]
    refine (Outcome.filterMap_mapM fun (label, other) mem same => ?_).symm
    obtain rfl : label = name := by simpa using same
    refine ⟨{ name := label, type, marker := other }, ?_, by simp [Option.guard]⟩
    rw [FieldDeclaration.ofMarker, own]
  · have none : (w.markedFields s k).filter (·.1 != name) = w.markedFields s k := by
      refine List.filter_eq_self.mpr fun (label, other) mem => bne_iff_ne.mpr ?_
      rintro rfl
      exact field ⟨other, mem⟩
    unfold declaredFields
    rw [fewer, none, read, qualifiedName_withBody]

theorem declaredMethods_withBody :
    List.filter (·.name != name) <$> (w.withBody k body).declaredMethods s k =
      List.filter (·.name != name) <$> w.declaredMethods s k := by
  -- In either body, reading what the name holds gives nothing, or something of the name.
  have walk (ns : Namespace) (passes : ∀ other, (name, other) ∈ ns → ∃ found,
      w.declaredMethod s k (name, other) = .ok found ∧ found.filter (·.name != name) = none) :
      List.filter (·.name != name) <$> (List.filterMap id <$> ns.mapM (w.declaredMethod s k)) =
        List.filterMap (Option.filter (·.name != name)) <$>
          (ns.erase name).mapM (w.declaredMethod s k) := by
    have together : List.filter (fun d : MethodDeclaration => d.name != name) ∘ List.filterMap id =
        List.filterMap (Option.filter (·.name != name)) :=
      funext fun found => List.filter_filterMap
    rw [← comp_map, together]
    refine Outcome.filterMap_mapM fun (label, other) mem same => ?_
    obtain rfl : label = name := by simpa using same
    exact passes other mem
  unfold declaredMethods
  rw [changed, declaredMethod_withBody, walk body, walk (w.info k).members, others]
  · intro other mem
    cases held.symm.trans ((Entries.lookup_iff_mem (order.names_nodup k)).mpr mem)
    exact declaredMethod_of_legible legible
  · intro other mem
    exact ⟨none, declaredMethod_of_not_marked (plain other mem), rfl⟩

/-- But for what the class declares under the name, every class declares the same. -/
theorem declarations_withBody
    (read : (w.withBody k body).annotationsOf k = w.annotationsOf k) (j : ClassRef) :
    Declarations.trim k name <$> (w.withBody k body).declarations s j =
      Declarations.trim k name <$> w.declarations s j := by
  by_cases same : j = k
  · subst same
    have names : body.names.filter (· != name) = (w.info j).members.names.filter (· != name) := by
      simp only [Entries.names, List.filter_map]
      exact congrArg (List.map (·.1)) others
    rw [trim_declarations, trim_declarations, without_declarations, without_declarations,
      declaredFields_withBody others plain changed order held legible read,
      declaredMethods_withBody others plain changed order held legible, changed, names]
  · rw [declarations_withBody_of_ne others same]

end

theorem pointsOf_withBody
    (definers : ∀ text, (w.withBody k body).definingClass? c text = w.definingClass? c text)
    (own : Declarations) : (w.withBody k body).pointsOf s c own = w.pointsOf s c own := by
  have methods (σ : Bindings) : InjectionPoint.ofMethod (w.withBody k body) s σ own.owner =
      InjectionPoint.ofMethod w s σ own.owner := by
    funext d
    unfold InjectionPoint.ofMethod
    rw [qualifiedName_withBody]
  unfold pointsOf
  simp only [bindingsFor_withBody, definers, methods]

/-- A name that another class is the first to hold gives no points. -/
theorem pointsOf_trim (hidden : w.definingClass? c name ≠ some k) (own : Declarations) :
    w.pointsOf s c (own.trim k name) = w.pointsOf s c own := by
  unfold Declarations.trim
  split
  case isFalse => rfl
  rename_i owner
  have dropped {α : Type} (label : α → String) (ds : List α) :
      (ds.filter (label · != name)).filter (fun d => w.definingClass? c (label d) == some k) =
        ds.filter fun d => w.definingClass? c (label d) == some k := by
    rw [List.filter_filter]
    refine List.filter_congr fun d _ => ?_
    by_cases same : label d = name
    · simp [same, hidden]
    · simp [same]
  unfold pointsOf Declarations.without
  dsimp only
  rw [owner, dropped, dropped]

/-- A marked member that a more derived class hides makes no difference to the scan if its
declaration can be read, whatever it is replaced by that is not marked. If its declaration cannot be
read, the class cannot be scanned. No annotation of the body may be just the name of the member. -/
theorem metadata_hidden (order : w.WellFormed) (line : k ∈ w.hierarchy c)
    (held : w.ownMember? k name = some m) (marked : m.marked s)
    (hidden : w.definingClass? c name ≠ some k)
    (others : body.erase name = (w.info k).members.erase name)
    (plain : ∀ other, (name, other) ∈ body → ¬ other.marked s)
    (apart : ∀ entry ∈ (w.info k).annotations, ∀ text, entry.2 = .text text →
      Text.plainSpelling text ≠ name) :
    (w.Legible k name m → (w.withBody k body).metadata s c = w.metadata s c) ∧
    (¬ w.Legible k name m → ∃ e, w.metadata s c = .error e) := by
  constructor
  · intro legible
    rcases members_withBody_self w k body with changed | kept
    · have read := annotationsOf_withBody (j := k) others (.inr apart)
      have declared := declarations_withBody (s := s) others plain changed order held legible read
      have points : (w.withBody k body).pointsOf s c = w.pointsOf s c :=
        funext (pointsOf_withBody (definingClass?_withBody others held hidden))
      have walks := Outcome.mapM_mapM_congr (fun j (_ : j ∈ w.hierarchy c) => declared j)
        (pointsOf_trim (s := s) hidden)
      unfold metadata
      rw [hierarchy_withBody, points, ← bind_assoc, ← bind_assoc]
      exact congrArg (· >>= _) walks
    · rw [kept]
  · intro illegible
    cases scanned : w.metadata s c with
    | error e => exact ⟨e, rfl⟩
    | ok found =>
      obtain ⟨bodies, declared, -⟩ := Outcome.bind_eq_ok.mp scanned
      obtain ⟨own, -, declared⟩ := Outcome.exists_mem_of_mapM declared line
      exact absurd (legible_of_declarations held marked declared) illegible

end World

/-! Three pairs of classes. The second of each switches off a marked member of the first: a method
that takes nothing, a field without an annotation, and a static method. -/
namespace Cupboard

def marked : Marker := Marker.make .autowired

def setter (owner : String) (subject : Subject) (parameters : List Parameter)
    (markers : List Marker) : Function where
  name := "set_lamp"
  owner := owner
  subject := subject
  parameters := parameters
  markers := markers

def bell : Member := .method {
  name := "set_bell", owner := "Box", markers := [marked]
  parameters := [{ name := "bell", type := some (.cls (.builtin .str)) }] }

def base (name : String) (n : Nat) (members : Namespace) : ClassInfo where
  name := name
  qualifiedName := name
  bases := [.builtin .object]
  linearization := [.declared n, .builtin .object]
  members := members

def heir (name : String) (n above : Nat) (member : String) : ClassInfo where
  name := name
  qualifiedName := name
  bases := [.declared above]
  linearization := [.declared n, .declared above, .builtin .object]
  members := [(member, .value .null)]

def cupboard : World where
  moduleName := "cupboard"
  classes := [
    base "Box" 0 [("set_lamp", .method (setter "Box" .receiver [] [marked])), ("set_bell", bell)],
    heir "Case" 1 0 "set_lamp",
    base "Table" 2 [("lamp", .marker marked)],
    heir "Desk" 3 2 "lamp",
    base "Rack" 4 [("set_lamp", .staticMethod
      (setter "Rack" .nothing [{ name := "lamp", type := some (.cls (.builtin .int)) }] [marked]))],
    heir "Shelf" 5 4 "set_lamp"]

theorem cupboard_wellFormed : cupboard.WellFormed := by
  apply World.wellFormed_of_classes
  intro info mem
  refine ⟨?_, ?_, ?_⟩
  · revert info
    decide
  · revert info
    simp [cupboard, base, heir]
  · revert info
    decide

theorem case_scanned : ∃ found, cupboard.metadata {} (.declared 1) = .ok found ∧
    found.points.map (·.name) = ["set_bell"] ∧
    (cupboard.withBody (.declared 0)
      [("set_lamp", .method (setter "Box" .receiver [] [])), ("set_bell", bell)]).metadata {}
        (.declared 1) = .ok found := by
  have scanned : cupboard.metadata {} (.declared 1) =
      .ok ((cupboard.metadata {} (.declared 1)).toOption.getD default) := by rfl
  have held : cupboard.ownMember? (.declared 0) "set_lamp" =
      some (.method (setter "Box" .receiver [] [marked])) := by rfl
  obtain ⟨alike, -⟩ := World.metadata_hidden (s := {}) (c := .declared 1) cupboard_wellFormed
    (by decide) held rfl (by decide)
    (show Entries.erase [("set_lamp", .method (setter "Box" .receiver [] [])), ("set_bell", bell)]
      "set_lamp" = _ from rfl) (by simp [Member.marked, setter, Settings.find?])
    (fun _ mem => nomatch mem)
  refine ⟨_, scanned, by rfl, ?_⟩
  rw [alike fun _ => ⟨[], rfl⟩]
  exact scanned

theorem desk_not_scanned :
    (cupboard.definingClass? (.declared 3) "lamp" = some (.declared 3) ∧
      cupboard.metadata {} (.declared 3) =
        .error (.unsupportedShape (.fieldNotAnnotated "Table" "lamp")) ∧
      (cupboard.withBody (.declared 2) [("lamp", .value .null)]).metadata {} (.declared 3) =
        .ok { target := .declared 3, points := [] }) ∧
    (cupboard.definingClass? (.declared 5) "set_lamp" = some (.declared 5) ∧
      cupboard.metadata {} (.declared 5) =
        .error (.unsupportedShape (.staticMethod "Rack" "set_lamp")) ∧
      (cupboard.withBody (.declared 4) [("set_lamp", .staticMethod (setter "Rack" .nothing
        [{ name := "lamp", type := some (.cls (.builtin .int)) }] []))]).metadata {}
          (.declared 5) = .ok { target := .declared 5, points := [] }) := by
  exact ⟨⟨rfl, rfl, rfl⟩, rfl, rfl, rfl⟩

end Cupboard
end Wiring
