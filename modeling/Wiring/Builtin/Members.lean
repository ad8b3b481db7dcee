import Wiring.Builtin.Basic
import Wiring.Literal

/-! The members of the built-in classes, by the way they are read. They decide which abstract
containers and structural classes a built-in class satisfies, and they hide members of the same name
that stand later in a lookup. -/
namespace Wiring.Builtin

def operations : Builtin → List String
  | object =>
    ["__repr__", "__hash__", "__str__", "__getattribute__", "__setattr__", "__delattr__",
     "__lt__", "__le__", "__eq__", "__ne__", "__gt__", "__ge__", "__init__"]
  | type =>
    ["__repr__", "__call__", "__getattribute__", "__setattr__", "__delattr__", "__init__",
     "__or__", "__ror__"]
  | noneType =>
    ["__repr__", "__bool__"]
  | str | bytes =>
    ["__repr__", "__hash__", "__str__", "__getattribute__", "__lt__", "__le__", "__eq__",
     "__ne__", "__gt__", "__ge__", "__iter__", "__mod__", "__rmod__", "__len__", "__getitem__",
     "__add__", "__mul__", "__rmul__", "__contains__"]
  | int =>
    ["__repr__", "__hash__", "__getattribute__", "__lt__", "__le__", "__eq__", "__ne__",
     "__gt__", "__ge__", "__add__", "__radd__", "__sub__", "__rsub__", "__mul__", "__rmul__",
     "__mod__", "__rmod__", "__divmod__", "__rdivmod__", "__pow__", "__rpow__", "__neg__",
     "__pos__", "__abs__", "__bool__", "__invert__", "__lshift__", "__rlshift__", "__rshift__",
     "__rrshift__", "__and__", "__rand__", "__xor__", "__rxor__", "__or__", "__ror__", "__int__",
     "__float__", "__floordiv__", "__rfloordiv__", "__truediv__", "__rtruediv__", "__index__"]
  | bool =>
    ["__repr__", "__and__", "__rand__", "__xor__", "__rxor__", "__or__", "__ror__"]
  | float =>
    ["__repr__", "__hash__", "__getattribute__", "__lt__", "__le__", "__eq__", "__ne__",
     "__gt__", "__ge__", "__add__", "__radd__", "__sub__", "__rsub__", "__mul__", "__rmul__",
     "__mod__", "__rmod__", "__divmod__", "__rdivmod__", "__pow__", "__rpow__", "__neg__",
     "__pos__", "__abs__", "__bool__", "__int__", "__float__", "__floordiv__", "__rfloordiv__",
     "__truediv__", "__rtruediv__"]
  | list =>
    ["__repr__", "__getattribute__", "__lt__", "__le__", "__eq__", "__ne__", "__gt__", "__ge__",
     "__iter__", "__init__", "__len__", "__setitem__", "__delitem__", "__add__", "__mul__",
     "__rmul__", "__contains__", "__iadd__", "__imul__"]
  | dict =>
    ["__repr__", "__getattribute__", "__lt__", "__le__", "__eq__", "__ne__", "__gt__", "__ge__",
     "__iter__", "__init__", "__or__", "__ror__", "__ior__", "__len__", "__setitem__",
     "__delitem__"]
  | tuple =>
    ["__repr__", "__hash__", "__getattribute__", "__lt__", "__le__", "__eq__", "__ne__",
     "__gt__", "__ge__", "__iter__", "__len__", "__getitem__", "__add__", "__mul__", "__rmul__",
     "__contains__"]
  | set =>
    ["__repr__", "__getattribute__", "__lt__", "__le__", "__eq__", "__ne__", "__gt__", "__ge__",
     "__iter__", "__init__", "__sub__", "__rsub__", "__and__", "__rand__", "__xor__", "__rxor__",
     "__or__", "__ror__", "__isub__", "__iand__", "__ixor__", "__ior__", "__len__"]
  | unionType =>
    ["__repr__", "__hash__", "__getattribute__", "__lt__", "__le__", "__eq__", "__ne__",
     "__gt__", "__ge__", "__or__", "__ror__", "__getitem__"]
  | ellipsis =>
    ["__repr__", "__getattribute__"]
  | plainAlias =>
    ["__repr__", "__hash__", "__call__", "__getattribute__", "__lt__", "__le__", "__eq__",
     "__ne__", "__gt__", "__ge__", "__iter__", "__or__", "__ror__", "__getitem__"]
  | callableAlias =>
    ["__hash__", "__call__", "__getattribute__", "__lt__", "__le__", "__eq__", "__ne__",
     "__gt__", "__ge__", "__iter__", "__or__", "__ror__"]
  | _ => []

def routines : Builtin → List String
  | object =>
    ["__reduce_ex__", "__reduce__", "__getstate__", "__format__", "__sizeof__", "__dir__"]
  | type =>
    ["mro", "__subclasses__", "__instancecheck__", "__subclasscheck__", "__dir__", "__sizeof__"]
  | str =>
    ["encode", "replace", "split", "rsplit", "join", "capitalize", "casefold", "title", "center",
     "count", "expandtabs", "find", "partition", "index", "ljust", "lower", "lstrip", "rfind",
     "rindex", "rjust", "rstrip", "rpartition", "splitlines", "strip", "swapcase", "translate",
     "upper", "startswith", "endswith", "removeprefix", "removesuffix", "isascii", "islower",
     "isupper", "istitle", "isspace", "isdecimal", "isdigit", "isnumeric", "isalpha", "isalnum",
     "isidentifier", "isprintable", "zfill", "format", "format_map", "__format__", "__sizeof__",
     "__getnewargs__"]
  | int =>
    ["conjugate", "bit_length", "bit_count", "to_bytes", "as_integer_ratio", "__trunc__",
     "__floor__", "__ceil__", "__round__", "__getnewargs__", "__format__", "__sizeof__"]
  | float =>
    ["conjugate", "__trunc__", "__floor__", "__ceil__", "__round__", "as_integer_ratio", "hex",
     "is_integer", "__getnewargs__", "__format__"]
  | bytes =>
    ["__getnewargs__", "__bytes__", "capitalize", "center", "count", "decode", "endswith",
     "expandtabs", "find", "hex", "index", "isalnum", "isalpha", "isascii", "isdigit", "islower",
     "isspace", "istitle", "isupper", "join", "ljust", "lower", "lstrip", "partition", "replace",
     "removeprefix", "removesuffix", "rfind", "rindex", "rjust", "rpartition", "rsplit",
     "rstrip", "split", "splitlines", "startswith", "strip", "swapcase", "title", "translate",
     "upper", "zfill"]
  | list =>
    ["__getitem__", "__reversed__", "__sizeof__", "clear", "copy", "append", "insert", "extend",
     "pop", "remove", "index", "count", "reverse", "sort"]
  | dict =>
    ["__getitem__", "__contains__", "__sizeof__", "get", "setdefault", "pop", "popitem", "keys",
     "items", "values", "update", "clear", "copy", "__reversed__"]
  | tuple =>
    ["__getnewargs__", "index", "count"]
  | set =>
    ["__contains__", "add", "clear", "copy", "discard", "difference", "difference_update",
     "intersection", "intersection_update", "isdisjoint", "issubset", "issuperset", "pop",
     "__reduce__", "remove", "__sizeof__", "symmetric_difference", "symmetric_difference_update",
     "union", "update"]
  | ellipsis =>
    ["__reduce__"]
  | plainAlias =>
    ["__mro_entries__", "__instancecheck__", "__subclasscheck__", "__reduce__", "__dir__"]
  | callableAlias =>
    ["__mro_entries__", "__instancecheck__", "__subclasscheck__", "__dir__"]
  | _ => []

def makers : Builtin → List String
  | object =>
    ["__new__", "__subclasshook__", "__init_subclass__"]
  | type =>
    ["__new__", "__prepare__"]
  | noneType | bool | ellipsis | plainAlias =>
    ["__new__"]
  | str =>
    ["__new__", "maketrans"]
  | int =>
    ["__new__", "from_bytes"]
  | float =>
    ["__new__", "fromhex", "__getformat__"]
  | bytes =>
    ["__new__", "fromhex", "maketrans"]
  | list | tuple | set =>
    ["__new__", "__class_getitem__"]
  | dict =>
    ["__new__", "fromkeys", "__class_getitem__"]
  | _ => []

/-- Members that are called on an object, and on the class are plain functions. -/
def functions : Builtin → List String
  | annotated =>
    ["_class_getitem_inner"]
  | iterable =>
    ["__iter__"]
  | container =>
    ["__contains__"]
  | sized =>
    ["__len__"]
  | reversible =>
    ["__reversed__"]
  | sequence =>
    ["__getitem__", "__iter__", "__contains__", "__reversed__", "index", "count"]
  | mutableSequence =>
    ["__setitem__", "__delitem__", "insert", "append", "clear", "reverse", "extend", "pop",
     "remove", "__iadd__"]
  | mapping =>
    ["__getitem__", "get", "__contains__", "keys", "items", "values", "__eq__"]
  | mutableMapping =>
    ["__setitem__", "__delitem__", "pop", "popitem", "clear", "update", "setdefault"]
  | callable =>
    ["__call__"]
  | abstractMeta =>
    ["register", "__instancecheck__", "__subclasscheck__", "_dump_registry",
     "_abc_registry_clear", "_abc_caches_clear"]
  | protocolMeta =>
    ["__instancecheck__"]
  | anyMeta =>
    ["__instancecheck__", "__repr__"]
  | typeVariable =>
    ["__init__", "__typing_subst__", "__copy__", "__deepcopy__", "__or__", "__ror__", "__repr__",
     "__reduce__"]
  | callableAlias =>
    ["__repr__", "__reduce__", "__getitem__"]
  | typingAlias =>
    ["__init__", "__eq__", "__hash__", "__or__", "__ror__", "__getitem__", "_determine_new_args",
     "_make_substitution", "copy_with", "__repr__", "__reduce__", "__mro_entries__", "__iter__",
     "__call__", "__getattr__", "__setattr__", "__instancecheck__", "__subclasscheck__",
     "__dir__"]
  | typingCallable =>
    ["__repr__", "__reduce__", "__init__", "__eq__", "__hash__", "__or__", "__ror__",
     "__getitem__", "_determine_new_args", "_make_substitution", "copy_with", "__mro_entries__",
     "__call__", "__getattr__", "__setattr__", "__instancecheck__", "__subclasscheck__",
     "__dir__"]
  | typingUnion =>
    ["copy_with", "__eq__", "__hash__", "__repr__", "__instancecheck__", "__subclasscheck__",
     "__reduce__", "__init__", "__or__", "__ror__", "__getitem__", "_determine_new_args",
     "_make_substitution", "__mro_entries__", "__call__", "__getattr__", "__setattr__",
     "__dir__"]
  | annotatedAlias =>
    ["__init__", "copy_with", "__repr__", "__reduce__", "__eq__", "__hash__", "__getattr__",
     "__or__", "__ror__", "__getitem__", "_determine_new_args", "_make_substitution",
     "__mro_entries__", "__call__", "__setattr__", "__instancecheck__", "__subclasscheck__",
     "__dir__"]
  | bareAlias =>
    ["__init__", "__getitem__", "copy_with", "__repr__", "__subclasscheck__", "__reduce__",
     "__or__", "__ror__", "__call__", "__mro_entries__", "__getattr__", "__setattr__",
     "__instancecheck__", "__dir__"]
  | bareTuple =>
    ["__getitem__", "__init__", "copy_with", "__repr__", "__subclasscheck__", "__reduce__",
     "__or__", "__ror__", "__call__", "__mro_entries__", "__getattr__", "__setattr__",
     "__instancecheck__", "__dir__"]
  | bareCallable =>
    ["copy_with", "__getitem__", "__getitem_inner__", "__init__", "__repr__",
     "__subclasscheck__", "__reduce__", "__or__", "__ror__", "__call__", "__mro_entries__",
     "__getattr__", "__setattr__", "__instancecheck__", "__dir__"]
  | specialForm =>
    ["__init__", "__getattr__", "__mro_entries__", "__repr__", "__reduce__", "__call__",
     "__or__", "__ror__", "__instancecheck__", "__subclasscheck__", "__getitem__"]
  | _ => []

def classFunctions : Builtin → List String
  | generic | annotated =>
    ["__class_getitem__", "__init_subclass__"]
  | protocol | typeVariable | typingAlias | typingCallable | typingUnion | annotatedAlias
    | bareAlias | bareTuple | bareCallable | specialForm =>
    ["__init_subclass__"]
  | iterable | container | callable =>
    ["__subclasshook__", "__class_getitem__"]
  | sized | reversible | collection =>
    ["__subclasshook__"]
  | _ => []

def looseFunctions : Builtin → List String
  | any | annotated | abstractMeta | callableAlias =>
    ["__new__"]
  | _ => []

def computed : Builtin → List String
  | object =>
    ["__class__"]
  | type =>
    ["__name__", "__qualname__", "__bases__", "__module__", "__abstractmethods__", "__dict__",
     "__doc__", "__text_signature__", "__annotations__"]
  | int =>
    ["real", "imag", "numerator", "denominator"]
  | float =>
    ["real", "imag"]
  | any | typeVariable | typingAlias | typingCallable | typingUnion | annotatedAlias | bareAlias
    | bareTuple | bareCallable =>
    ["__dict__", "__weakref__"]
  | unionType =>
    ["__parameters__"]
  | plainAlias | callableAlias =>
    ["__parameters__", "__typing_unpacked_tuple_args__"]
  | specialForm =>
    ["__weakref__"]
  | _ => []

def places : Builtin → List String
  | type =>
    ["__basicsize__", "__itemsize__", "__flags__", "__weakrefoffset__", "__base__",
     "__dictoffset__", "__mro__"]
  | unionType =>
    ["__args__"]
  | plainAlias | callableAlias =>
    ["__origin__", "__args__", "__unpacked__"]
  | specialForm =>
    ["_getitem", "_name"]
  | _ => []

def switchedOff : Builtin → List String
  | noneType | iterable | container | sized | reversible | collection | callable | protocolMeta
    | anyMeta | ellipsis | typingAlias =>
    ["__doc__"]
  | list | dict | set =>
    ["__hash__"]
  | mapping =>
    ["__reversed__", "__hash__"]
  | typingCallable | typingUnion | bareAlias | bareTuple | bareCallable =>
    ["__doc__", "__iter__"]
  | annotatedAlias | specialForm =>
    ["__iter__"]
  | _ => []

def emptyLists : Builtin → List String
  | generic | annotated | iterable | container | sized | reversible | collection | sequence
    | mutableSequence | mapping | mutableMapping | callable | callableAlias | typingCallable
    | typingUnion | annotatedAlias | bareAlias | bareTuple | bareCallable =>
    ["__slots__"]
  | protocol =>
    ["__slots__", "__parameters__"]
  | _ => []

def constants : Builtin → List (String × Literal)
  | generic =>
    [("_is_protocol", .bool false)]
  | protocol =>
    [("_is_protocol", .bool true), ("_is_runtime_protocol", .bool false)]
  | _ => []

/-- Members that hold something of which only the kind is known. -/
def kept : Builtin → List (String × String)
  | object | str | int | bool | float | bytes | list | dict | tuple | set | any
    | generic | unionType | annotated | abstractMeta | plainAlias | annotatedAlias =>
    [("__doc__", "str")]
  | protocol | sequence | mutableSequence | mapping =>
    [("__doc__", "str"), ("__abstractmethods__", "frozenset"), ("_abc_impl", "_abc_data")]
  | iterable | container | sized | reversible | collection | callable =>
    [("__abstractmethods__", "frozenset"), ("_abc_impl", "_abc_data")]
  | mutableMapping =>
    [("__doc__", "str"), ("_MutableMapping__marker", "object"),
     ("__abstractmethods__", "frozenset"), ("_abc_impl", "_abc_data")]
  | typeVariable =>
    [("__doc__", "str"), ("__slots__", "tuple")]
  | callableAlias =>
    [("__doc__", "str"), ("__annotations__", "dict")]
  | typingAlias =>
    [("__slots__", "tuple")]
  | specialForm =>
    [("__slots__", "tuple"), ("__doc__", "str")]
  | _ => []


end Wiring.Builtin
