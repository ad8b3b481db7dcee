import Wiring.Candidate
import Wiring.Class.Subclass
import Wiring.Hint.Evaluation

/-! What can go wrong, by cause, and how each cause reads. -/
namespace Wiring

inductive UnsupportedShape where
  | fieldNotAnnotated (owner field : String)
  | staticMethod (owner method : String)
  | noParameters (owner method : String)
  | parameterNotAnnotated (owner method parameter : String)
  | constructorParameterNotAnnotated (owner constructor parameter : String)
deriving DecidableEq, Repr

namespace UnsupportedShape

def message : UnsupportedShape → String
  | fieldNotAnnotated owner field =>
    "Field <" ++ field ++ "> of <" ++ owner ++ "> is marked but not annotated"
  | staticMethod owner method =>
    "Static method <" ++ owner ++ "." ++ method ++ "> cannot be marked for injection"
  | noParameters owner method =>
    "Method <" ++ owner ++ "." ++ method ++ "> is marked for injection but takes no parameters"
  | parameterNotAnnotated owner method parameter =>
    "Parameter <" ++ parameter ++ "> of <" ++ owner ++ "." ++ method ++ "> is not annotated"
  | constructorParameterNotAnnotated owner constructor parameter =>
    "Parameter <" ++ parameter ++ "> of constructor <" ++ owner ++ "." ++ constructor ++
      "> is not annotated"

end UnsupportedShape

inductive Absence where
  | notFound (request : Request)
  | noConstructor (cls : ClassRef)
  | notRegistered (candidate : Candidate)
deriving Repr

namespace Absence

def requiredType : Absence → Hint
  | notFound r => r.type
  | noConstructor c => .cls c
  | notRegistered c => c.declaredType

def message (w : World) : Absence → String
  | notFound r => "No eligible candidate found for " ++ r.describe w
  | noConstructor c =>
    "Class <" ++ (w.info c).qualifiedName ++ "> has no constructor usable for injection"
  | notRegistered c => "No component registered under name <" ++ c.name ++ ">"

end Absence

inductive TypeFault where
  | abstractClass (cls : String) (members : List String)
  | structuralClass
  | noArguments (cls : String)
  | missingArguments (function : String) (parameters : List String)
  | tooManyArguments (function : String) (given : Nat)
  | unexpectedArgument (function argument : String)
  | repeatedArgument (function argument : String)
  | positionalOnly (function : String) (arguments : List String)
  | notCallable (kind : String)
  /-- Objects of the class are not made by calling it. -/
  | notMade (cls : String)
  | resultOfInitializer (cls : String)
  | otherLayout (old new : String)
  | notADictionary
  | immutableClass (cls : String)
  | refused (reason : CheckRefusal)
  | badHint (fault : FormationFault)
  /-- A qualifier that cannot be looked up among tags. -/
  | badQualifier
deriving DecidableEq, Repr

namespace TypeFault

def message : TypeFault → String
  | abstractClass cls members =>
    "Can't instantiate abstract class " ++ cls ++ " with abstract method" ++
      (if members.length == 1 then " " else "s ") ++ ", ".intercalate members
  | structuralClass => "Protocols cannot be instantiated"
  | noArguments cls => cls ++ "() takes no arguments"
  | missingArguments function parameters =>
    function ++ "() missing " ++ toString parameters.length ++ " required argument" ++
      (if parameters.length == 1 then ": " else "s: ") ++
      ", ".intercalate (parameters.map Text.quoted)
  | tooManyArguments function given =>
    function ++ "() takes fewer than " ++ toString given ++ " positional arguments"
  | unexpectedArgument function argument =>
    function ++ "() got an unexpected keyword argument " ++ Text.quoted argument
  | repeatedArgument function argument =>
    function ++ "() got multiple values for argument " ++ Text.quoted argument
  | positionalOnly function arguments =>
    function ++ "() got some positional-only arguments passed as keyword arguments: '" ++
      ", ".intercalate arguments ++ "'"
  | notCallable kind => "'" ++ kind ++ "' object is not callable"
  | notMade cls => cls ++ " cannot be instantiated"
  | resultOfInitializer _ => "__init__() should return None"
  | otherLayout old new =>
    "__class__ assignment: '" ++ new ++ "' object layout differs from '" ++ old ++ "'"
  | notADictionary => "__dict__ must be set to a dictionary"
  | immutableClass cls => "cannot set attributes of immutable type '" ++ cls ++ "'"
  | refused reason => reason.message
  | badHint fault => fault.message
  | badQualifier => "unhashable type"

end TypeFault

inductive AttributeFault where
  | missing (kind name : String)
  | readOnly (kind name : String)
  | noSetter (kind name : String)
  | noDeleter (kind name : String)
deriving DecidableEq, Repr

namespace AttributeFault

def message : AttributeFault → String
  | missing kind name => "'" ++ kind ++ "' object has no attribute '" ++ name ++ "'"
  | readOnly kind name => "'" ++ kind ++ "' object attribute '" ++ name ++ "' is read-only"
  | noSetter kind name => "property '" ++ name ++ "' of '" ++ kind ++ "' object has no setter"
  | noDeleter kind name => "property '" ++ name ++ "' of '" ++ kind ++ "' object has no deleter"

end AttributeFault

inductive ValueFault where
  | malformed (kind : String)
  | tooLarge (kind : String)
deriving DecidableEq, Repr

namespace ValueFault

def message : ValueFault → String
  | malformed kind => "invalid literal for " ++ kind ++ "()"
  | tooLarge kind => "number too large for " ++ kind ++ "()"

end ValueFault

inductive Error where
  | unsupportedShape (shape : UnsupportedShape)
  /-- More than one constructor is marked, and one of them as required. -/
  | multipleRequired (cls : String) (marked : Nat) (required : List String)
  | alreadyRegistered (name : String)
  | noReturnType (provider : String)
  | noCandidate (absence : Absence) (point : Option String)
  | ambiguous (type : Hint) (candidates : List String) (point : Option String)
  /-- Making or injecting a component failed. -/
  | injection (component point : String) (cause : Error)
  | component (message : String)
  | unknownName (name : String)
  | badType (fault : TypeFault)
  | badAttribute (fault : AttributeFault)
  | badValue (fault : ValueFault)
  | circular
deriving Repr

namespace Error

def ofFormation : FormationFault → Error
  | .noModule kind => .badAttribute (.missing kind "__module__")
  | fault => .badType (.badHint fault)

def ofLookup : LookupFault → Error
  | .unknown name => .unknownName name
  | .formation fault => .ofFormation fault

def message (w : World) : Error → String
  | unsupportedShape shape => shape.message
  | multipleRequired cls marked required =>
    "Class <" ++ cls ++ "> marks " ++ toString marked ++ " constructors for injection while " ++
      Text.quotedList required ++ " is required"
  | alreadyRegistered name => "Component <" ++ name ++ "> is already registered"
  | noReturnType provider =>
    "Provider <" ++ provider ++ "> declares no return type; pass declared_type"
  | noCandidate absence _ => absence.message w
  | ambiguous type candidates _ =>
    "Expected a single candidate for type " ++ type.written w ++ " but found " ++
      toString candidates.length ++ ": " ++ Text.quotedList candidates
  | injection name point cause =>
    "Error creating component <" ++ name ++ "> at <" ++ point ++ ">: " ++ cause.message w
  | component text => text
  | unknownName name => "name '" ++ name ++ "' is not defined"
  | badType fault => fault.message
  | badAttribute fault => fault.message
  | badValue fault => fault.message
  | circular => "maximum recursion depth exceeded"

def point? : Error → Option String
  | noCandidate _ point | ambiguous _ _ point => point
  | injection _ point _ => some point
  | _ => none

end Error

namespace Failure

def toError : Failure → Option String → Error
  | notFound r, point => .noCandidate (.notFound r) point
  | ambiguous r cs, point => .ambiguous r.type (cs.map (·.name)) point

end Failure
end Wiring
