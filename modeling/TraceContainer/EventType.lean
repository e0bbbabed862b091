namespace TraceContainer

inductive EventType where
  | functionEnter
  | functionExit
  | memoryAlloc
  | memoryFree
  | syscall
  | exception
  | custom
  deriving DecidableEq

namespace EventType

def all : List EventType :=
  [functionEnter, functionExit, memoryAlloc, memoryFree, syscall, exception, custom]

/-- The code that index records hold. -/
def code : EventType → UInt32
  | functionEnter => 0
  | functionExit => 1
  | memoryAlloc => 2
  | memoryFree => 3
  | syscall => 4
  | exception => 5
  | custom => 6

def ofCode? (code : UInt32) : Option EventType :=
  all.find? fun type => type.code = code

/-- The name that detail payloads hold. -/
def name : EventType → String
  | functionEnter => "function_enter"
  | functionExit => "function_exit"
  | memoryAlloc => "memory_alloc"
  | memoryFree => "memory_free"
  | syscall => "syscall"
  | exception => "exception"
  | custom => "custom"

def ofName? (name : String) : Option EventType :=
  all.find? fun type => type.name = name

theorem ofCode?_code (type : EventType) : ofCode? type.code = some type := by
  cases type <;> rfl

theorem ofName?_name (type : EventType) : ofName? type.name = some type := by
  cases type <;> decide +kernel

theorem code_eq_of_ofCode? {code : UInt32} {type : EventType} (found : ofCode? code = some type) :
    type.code = code := by
  simpa using List.find?_some found

theorem name_eq_of_ofName? {name : String} {type : EventType} (found : ofName? name = some type) :
    type.name = name := by
  simpa using List.find?_some found

end EventType

end TraceContainer
