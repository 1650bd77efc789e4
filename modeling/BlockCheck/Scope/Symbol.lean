import BlockCheck.Scope.Table
import BlockCheck.ValueType

/-!
# Variables and methods

What a name can stand for. A variable's type and finality never change; the only thing that does is that it may become
initialized. A method is the table of its parameters, in the order of the arguments of a call.
-/

namespace BlockCheck

structure Variable where
  type : ValueType
  isFinal : Bool
  isInitialized : Bool
  deriving DecidableEq, Repr

namespace Variable

/-- A variable declared without a value. -/
def uninitialized (type : ValueType) : Variable := ⟨type, false, false⟩

/-- A variable, not final, declared with a value. -/
def initialized (type : ValueType) : Variable := ⟨type, false, true⟩

/-- A parameter always has the value that the call gave it. -/
def parameter (type : ValueType) (isFinal : Bool) : Variable := ⟨type, isFinal, true⟩

def markInitialized (v : Variable) : Variable := { v with isInitialized := true }

@[simp] theorem markInitialized_markInitialized (v : Variable) :
    v.markInitialized.markInitialized = v.markInitialized := rfl

end Variable

structure Method where
  parameters : SymbolTable Variable := {}
  deriving DecidableEq, Repr

namespace Method

def addParameter (m : Method) (name : String) (v : Variable) : Except SymbolFault Method :=
  Method.mk <$> m.parameters.insert name v

def arity (m : Method) : Nat := m.parameters.size

/-- The types of the parameters by position. -/
def parameterTypes (m : Method) : List ValueType := m.parameters.entries.map fun e => e.2.type

end Method

end BlockCheck
