import Wiring.Injection.Plan

/-! Applying planned steps to an object. If a step fails, the attributes assigned before it are put
back, the last one first. -/
namespace Wiring

/-- An assigned attribute and its value before, if it had one. -/
abbrev Undo := List (String × Option Value)

namespace Run

/-- The value to put back. Of an object that carries attributes of its own only those count. Targets
are objects: the view of its attributes that a class object gives is not modelled as one that can be
asked for a name. -/
def previous (perform : Perform) (target : Value) (name : String) : Run (Option Value) := do
  match ← readOptional perform target "__dict__" with
  | some (.data .null) | none => readOptional perform target name
  | some own =>
    match own.entries? with
    | some es => return es.lookup name
    | none => badAttribute (.missing "object" "get")

def takeStep (perform : Perform) (target : Value) : Step → Run Undo
  | .assign name value => do
    let before ← previous perform target name
    setAttribute perform target name value
    return [(name, before)]
  | .call method arguments => do
    let _ ← callAttribute perform target method arguments
    return []

def restore (perform : Perform) (target : Value) : Undo → Run Unit
  | [] => pure ()
  | (name, some v) :: rest => do
    setAttribute perform target name v
    restore perform target rest
  | (name, none) :: rest => do
    deleteAttribute perform target name
    restore perform target rest

/-- Takes the steps in order; `undo` holds what was assigned so far, the last first. -/
def takeSteps (perform : Perform) (component : String) (target : Value) :
    Undo → List Planned → Run Unit
  | _, [] => pure ()
  | undo, p :: ps => do
    let done ← tryCatch (takeStep perform target p.step) fun e => do
      restore perform target undo
      throw (.injection component p.title e)
    takeSteps perform component target (done ++ undo) ps

/-- Injects a component: everything is resolved, then applied, then recorded. -/
def inject (perform : Perform) (registry component : String) (m : Metadata)
    (explicit : Entries Value) (target : Value) : Run Unit := do
  let planned ← planPoints perform registry component explicit m.points
  takeSteps perform component target [] (planned ++ planExplicit m.points explicit)
  modifyRegistry registry (·.record (planned.flatMap (·.injected)) component)

end Run
end Wiring
