import Wiring.Class.Basic
import Wiring.Class.Linearization

/-! The names that every module knows without declaring them: classes of errors and of further data,
functions and constants. In a new world these classes stand before all others. -/
namespace Wiring

def errorClasses : List (String × List String) :=
  [("object", ["BaseException"]),
   ("BaseException", ["BaseExceptionGroup", "Exception", "GeneratorExit", "KeyboardInterrupt",
     "SystemExit"]),
   ("Exception", ["ArithmeticError", "AssertionError", "AttributeError", "BufferError", "EOFError",
     "ImportError", "LookupError", "MemoryError", "NameError", "OSError", "ReferenceError",
     "RuntimeError", "StopAsyncIteration", "StopIteration", "SyntaxError", "SystemError",
     "TypeError", "ValueError", "Warning"]),
   ("ArithmeticError", ["FloatingPointError", "OverflowError", "ZeroDivisionError"]),
   ("ImportError", ["ModuleNotFoundError"]),
   ("LookupError", ["IndexError", "KeyError"]),
   ("NameError", ["UnboundLocalError"]),
   ("OSError", ["BlockingIOError", "ChildProcessError", "ConnectionError", "FileExistsError",
     "FileNotFoundError", "InterruptedError", "IsADirectoryError", "NotADirectoryError",
     "PermissionError", "ProcessLookupError", "TimeoutError"]),
   ("ConnectionError", ["BrokenPipeError", "ConnectionAbortedError", "ConnectionRefusedError",
     "ConnectionResetError"]),
   ("RuntimeError", ["NotImplementedError", "RecursionError"]),
   ("SyntaxError", ["IndentationError"]),
   ("IndentationError", ["TabError"]),
   ("ValueError", ["UnicodeError"]),
   ("UnicodeError", ["UnicodeDecodeError", "UnicodeEncodeError", "UnicodeTranslateError"]),
   ("Warning", ["BytesWarning", "DeprecationWarning", "EncodingWarning", "FutureWarning",
     "ImportWarning", "PendingDeprecationWarning", "ResourceWarning", "RuntimeWarning",
     "SyntaxWarning", "UnicodeWarning", "UserWarning"])]

def furtherClasses : List (String × List String) :=
  [("bytearray", ["__iter__", "__len__", "__contains__", "__getitem__", "__setitem__",
     "__delitem__"]),
   ("classmethod", []), ("complex", []), ("enumerate", ["__iter__", "__next__"]),
   ("filter", ["__iter__", "__next__"]), ("frozenset", ["__iter__", "__len__", "__contains__"]),
   ("map", ["__iter__", "__next__"]),
   ("memoryview", ["__iter__", "__len__", "__getitem__", "__setitem__", "__delitem__"]),
   ("property", []),
   ("range", ["__iter__", "__len__", "__contains__", "__reversed__", "__getitem__"]),
   ("reversed", ["__iter__", "__next__"]), ("slice", []), ("staticmethod", ["__call__"]),
   ("super", []), ("zip", ["__iter__", "__next__"])]

def secondNames : List (String × String) :=
  [("EnvironmentError", "OSError"), ("IOError", "OSError")]

def everywhereFunctions : List String :=
  ["__build_class__", "__import__", "abs", "aiter", "all", "anext", "any", "ascii", "bin",
   "breakpoint", "callable", "chr", "compile", "delattr", "dir", "divmod", "eval", "exec",
   "format", "getattr", "globals", "hasattr", "hash", "hex", "id", "input", "isinstance",
   "issubclass", "iter", "len", "locals", "max", "min", "next", "oct", "open", "ord", "pow",
   "print", "repr", "round", "setattr", "sorted", "sum", "vars"]

namespace World

def everywhereClass? (w : World) (name : String) : Option ClassRef :=
  match Builtin.everywhere.find? (·.name == name) with
  | some b => some (.builtin b)
  | none =>
    let first := (secondNames.lookup name).getD name
    (w.classes.findIdx? fun info => info.moduleName?.isNone && info.name == first).map .declared

def addEverywhere (w : World) (name : String) (bases : List ClassRef) (members : List String) :
    World :=
  let self := ClassRef.declared w.classes.length
  let line := (Linearization.merge (bases.map w.linearization ++ [bases])).getD []
  let info : ClassInfo := {
    name, qualifiedName := name, bases, mainBase := bases.headD (.builtin .object)
    linearization := self :: line, members := members.map (·, .native .operation) }
  { w with classes := w.classes ++ [info] }

def errorBases (w : World) (base name : String) : List ClassRef :=
  (if name = "ExceptionGroup" then ["BaseExceptionGroup", "Exception"] else [base]).filterMap
    w.everywhereClass?

def start (moduleName : String) : World :=
  let groups := errorClasses ++ [("Exception", ["ExceptionGroup"])]
  let w := groups.foldl (fun w (base, names) =>
    names.foldl (fun w name => w.addEverywhere name (w.errorBases base name) []) w)
    { moduleName }
  furtherClasses.foldl (fun w (name, members) =>
    w.addEverywhere name [.builtin .object] members) w

end World
end Wiring
