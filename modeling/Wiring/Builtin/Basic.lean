/-! The classes that exist before any class is declared: plain data, the abstract containers, the
markers of generic and structural classes, the classes of classes, and the classes of hints that are
no classes themselves. -/
namespace Wiring

inductive Builtin where
  | object | type | noneType | str | int | bool | float | bytes
  | list | dict | tuple | set
  | any | generic | protocol | unionType | annotated
  | iterable | container | sized | reversible | collection
  | sequence | mutableSequence | mapping | mutableMapping | callable
  | abstractMeta | protocolMeta | anyMeta
  | objectFactory | ordered
  | ellipsis | typeVariable | plainAlias | callableAlias | typingAlias | typingCallable
  | typingUnion | annotatedAlias | bareAlias | bareTuple | bareCallable | specialForm
deriving DecidableEq, Repr, Inhabited

namespace Builtin

def bases : Builtin → List Builtin
  | object => []
  | bool => [int]
  | protocol => [generic]
  | reversible => [iterable]
  | collection => [sized, iterable, container]
  | sequence => [reversible, collection]
  | mutableSequence => [sequence]
  | mapping => [collection]
  | mutableMapping => [mapping]
  | abstractMeta => [type]
  | protocolMeta => [abstractMeta]
  | anyMeta => [type]
  | objectFactory => [generic]
  | ordered => [protocol]
  | callableAlias => [plainAlias]
  | _ => [object]

def linearization : Builtin → List Builtin
  | object => [object]
  | bool => [bool, int, object]
  | protocol => [protocol, generic, object]
  | reversible => [reversible, iterable, object]
  | collection => [collection, sized, iterable, container, object]
  | sequence => [sequence, reversible, collection, sized, iterable, container, object]
  | mutableSequence =>
    [mutableSequence, sequence, reversible, collection, sized, iterable, container, object]
  | mapping => [mapping, collection, sized, iterable, container, object]
  | mutableMapping => [mutableMapping, mapping, collection, sized, iterable, container, object]
  | abstractMeta => [abstractMeta, type, object]
  | protocolMeta => [protocolMeta, abstractMeta, type, object]
  | anyMeta => [anyMeta, type, object]
  | objectFactory => [objectFactory, generic, object]
  | ordered => [ordered, protocol, generic, object]
  | callableAlias => [callableAlias, plainAlias, object]
  | b => [b, object]

/-- Every base has a smaller rank than the class it is a base of. -/
def rank : Builtin → Nat
  | object => 0
  | type | noneType | str | int | float | bytes | list | dict | tuple | set | any | generic
  | unionType | annotated | iterable | container | sized | callable | ellipsis | typeVariable
  | plainAlias | typingAlias | typingCallable | typingUnion | annotatedAlias | bareAlias | bareTuple
  | bareCallable | specialForm => 1
  | bool | protocol | reversible | collection | abstractMeta | anyMeta | objectFactory
  | callableAlias => 2
  | sequence | mapping | protocolMeta | ordered => 3
  | mutableSequence | mutableMapping => 4

theorem rank_lt_of_mem_bases {a b : Builtin} (h : a ∈ b.bases) : a.rank < b.rank := by
  cases b <;> simp [bases] at h <;> (try rcases h with rfl | rfl | rfl) <;> simp_all [rank]

def ranks : Nat := 5

theorem rank_lt_ranks (b : Builtin) : b.rank < ranks := by cases b <;> decide

def name : Builtin → String
  | object => "object" | type => "type" | noneType => "NoneType" | str => "str" | int => "int"
  | bool => "bool" | float => "float" | bytes => "bytes" | list => "list" | dict => "dict"
  | tuple => "tuple" | set => "set" | any => "Any" | generic => "Generic"
  | protocol => "Protocol" | unionType => "UnionType" | annotated => "Annotated"
  | iterable => "Iterable" | container => "Container" | sized => "Sized"
  | reversible => "Reversible" | collection => "Collection" | sequence => "Sequence"
  | mutableSequence => "MutableSequence" | mapping => "Mapping"
  | mutableMapping => "MutableMapping" | callable => "Callable" | abstractMeta => "ABCMeta"
  | protocolMeta => "_ProtocolMeta" | anyMeta => "_AnyMeta" | objectFactory => "ObjectFactory"
  | ordered => "Ordered" | ellipsis => "ellipsis" | typeVariable => "TypeVar"
  | plainAlias => "GenericAlias" | typingAlias => "_GenericAlias"
  | callableAlias | typingCallable => "_CallableGenericAlias"
  | typingUnion => "_UnionGenericAlias" | annotatedAlias => "_AnnotatedAlias"
  | bareAlias => "_SpecialGenericAlias" | bareTuple => "_TupleType"
  | bareCallable => "_CallableType" | specialForm => "_SpecialForm"

/-- The module a class is written with; the basic data classes are written without one. -/
def moduleName? : Builtin → Option String
  | any | generic | protocol | annotated | protocolMeta | anyMeta | typeVariable | typingAlias
  | typingCallable | typingUnion | annotatedAlias | bareAlias | bareTuple | bareCallable
  | specialForm => some "typing"
  | unionType | plainAlias => some "types"
  | iterable | container | sized | reversible | collection | sequence | mutableSequence | mapping
  | mutableMapping | callable | callableAlias => some "collections.abc"
  | abstractMeta => some "abc"
  | objectFactory | ordered => some "autowire.markers"
  | _ => none

/-- The name under which a container class has a second spelling. -/
def typingName? : Builtin → Option String
  | list => some "List" | dict => some "Dict" | tuple => some "Tuple" | set => some "Set"
  | b@sequence | b@mutableSequence | b@collection | b@iterable | b@mapping | b@mutableMapping
  | b@callable => some b.name
  | _ => none

def isAbstract : Builtin → Bool
  | iterable | container | sized | reversible | collection | sequence | mutableSequence | mapping
  | mutableMapping | callable => true
  | _ => false

def abstractMembers : Builtin → List String
  | iterable => ["__iter__"]
  | container => ["__contains__"]
  | sized => ["__len__"]
  | reversible => ["__reversed__", "__iter__"]
  | collection => ["__len__", "__iter__", "__contains__"]
  | sequence => ["__getitem__", "__len__"]
  | mutableSequence => ["__getitem__", "__setitem__", "__delitem__", "__len__", "insert"]
  | mapping => ["__getitem__", "__iter__", "__len__"]
  | mutableMapping => ["__getitem__", "__setitem__", "__delitem__", "__iter__", "__len__"]
  | callable => ["__call__"]
  | _ => []

/-- The members whose presence alone makes a class an instance of the abstract container. -/
def structure? : Builtin → Option (List String)
  | b@iterable | b@container | b@sized | b@reversible | b@collection | b@callable =>
    some b.abstractMembers
  | _ => none

def registeredAs? : Builtin → Option Builtin
  | tuple | str | bytes => some sequence
  | list => some mutableSequence
  | dict => some mutableMapping
  | set => some collection
  | _ => none

/-- How many parameters a container class takes; `none` for any number. -/
def arity? : Builtin → Option Nat
  | list | set | sequence | mutableSequence | collection | iterable => some 1
  | dict | mapping | mutableMapping => some 2
  | _ => none

def givesAttributes : Builtin → Bool
  | any | objectFactory | ordered | type | abstractMeta | protocolMeta | anyMeta | typeVariable
  | typingAlias | typingCallable | typingUnion | annotatedAlias | bareAlias | bareTuple
  | bareCallable => true
  | _ => false

def givesWeakReference : Builtin → Bool
  | set | unionType | plainAlias | specialForm => true
  | b => b.givesAttributes

/-- Objects of the class end in data of varying length, which leaves no room for more. -/
def hasItems : Builtin → Bool
  | int | bool | tuple | bytes => true
  | _ => false

def isMutable : Builtin → Bool
  | any | generic | protocol | annotated | objectFactory | ordered => true
  | b => b.isAbstract

def holdsData : Builtin → Bool
  | type | str | int | float | bytes | list | dict | tuple | set => true
  | _ => false

end Builtin
end Wiring
