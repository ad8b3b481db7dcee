import Wiring.Class.Basic
import Wiring.Hint.Substitution

/-! Giving type arguments to a class or hint, as brackets do. -/
namespace Wiring.World

inductive Brackets where
  /-- A container: arguments are kept as written. -/
  | plain
  | callable
  /-- A generic class: as many arguments as it has parameters. -/
  | generic
deriving DecidableEq, Repr

def brackets? (w : World) (c : ClassRef) : Option Brackets :=
  if c = .builtin .type then some .plain
  else
    (w.linearization c).findSome? fun
      | .builtin .callable => some .callable
      | .builtin .generic => some .generic
      | .builtin b =>
        if [Builtin.list, .dict, .tuple, .set, .iterable, .container].contains b then some .plain
        else none
      | .declared _ => none

def checkCount (parameters args : List Hint) (h : Hint) : Except FormationFault Hint :=
  if parameters.isEmpty then .error .takesNoArguments
  else if parameters.length == args.length then .ok h
  else .error (.wrongCount args.length parameters.length)

def applyClass (w : World) (c : ClassRef) (args : List Hint) : Except FormationFault Hint :=
  match w.brackets? c with
  | none => .error .takesNoArguments
  | some .plain => .ok (.alias .plain c args)
  | some .callable => Hint.callableOf .callable c args
  | some .generic =>
    let args := args.map Hint.argument
    if Hint.isGenericForm c then
      if !args.isEmpty && args.all Hint.isVar && (Hint.dedup args).length == args.length then
        .ok (.alias .typing c args)
      else .error .notVariables
    else checkCount (w.info c).parameters args (.alias .typing c args)

/-- Gives arguments to the second spelling of a container class. A tuple of any length ends in an
ellipsis. -/
def applyBare (origin : Builtin) (args : List Hint) : Except FormationFault Hint := do
  match origin, args with
  | .callable, [params, result] =>
    let params := match params with
      | .list params => params.map Hint.argument
      | params => [params.argument]
    return .alias .typing origin (params ++ [← result.typeArgument])
  | .callable, _ => throw .noParameterList
  | origin, args =>
    let types ← args.mapM Hint.typeArgument
    match origin.arity? with
    | some n => if n = args.length then return .alias .typing origin types
                else throw (.wrongCount args.length n)
    | none => return .alias .typing origin types

def parameterize (w : World) (h : Hint) (args : List Hint) : Except FormationFault Hint :=
  match h with
  | .cls c => w.applyClass c args
  | .bare origin => applyBare origin args
  | .unionForm => Hint.unionOf args
  | h => do
    let _ ← checkCount h.parameters args h
    h.fill (.ofParameters h.parameters args)

end Wiring.World
