import BlockCheck.Scope.Chain
import BlockCheck.Statement

/-!
# Rules of declaration, type and placement

What a line that fits its statement form may still violate. Each rule is a check that either passes or names the fault
with the token that commits it. The use of a variable as a value is subject to three rules in order: it is declared,
then initialized, then of a type that fits (`ScopeChain.requireUsable`).
-/

namespace BlockCheck

open Text (Span)

inductive RuleFault
  | undeclaredVariable (name : String) (span : Span)
  | undeclaredMethod (name : String) (span : Span)
  | uninitializedVariable (name : String) (span : Span)
  /-- The variable's values do not fit where a value of type `expected` is needed. -/
  | contravariantType (name : String) (found expected : ValueType) (span : Span)
  /-- Tokens of the category are no values of the type. -/
  | invalidAssignmentToken (found : Category) (expected : ValueType) (span : Span)
  | cannotAssignFinal (name : String) (span : Span)
  | variableAlreadyDeclared (name : String) (span : Span)
  | methodAlreadyDeclared (name : String) (span : Span)
  | duplicateParameter (name : String) (span : Span)
  /-- No type keyword stands in front of the token at the span; none stands there if the line has ended. -/
  | missingParameterType (span : Option Span)
  | statementNotAllowed (statement : StatementKind) (placement : Placement)
  deriving DecidableEq, Repr

namespace RuleFault

/-- The place of the fault in its line, if it is narrower than the line. -/
def span? : RuleFault → Option Span
  | .undeclaredVariable _ span | .undeclaredMethod _ span | .uninitializedVariable _ span
  | .contravariantType _ _ _ span | .invalidAssignmentToken _ _ span | .cannotAssignFinal _ span
  | .variableAlreadyDeclared _ span | .methodAlreadyDeclared _ span | .duplicateParameter _ span => some span
  | .missingParameterType span => span
  | .statementNotAllowed _ _ => none

def message : RuleFault → String
  | .undeclaredVariable name _ => "Variable " ++ quoted name ++ " is not declared"
  | .undeclaredMethod name _ => "Method " ++ quoted name ++ " is not declared"
  | .uninitializedVariable name _ => "Variable " ++ quoted name ++ " is used before it is initialized"
  | .contravariantType name found expected _ =>
    "Variable " ++ quoted name ++ " of type " ++ found.name ++ " cannot be used where " ++ expected.name ++
      " is expected"
  | .invalidAssignmentToken found expected _ =>
    "Cannot assign " ++ found.description ++ " to a variable of type " ++ expected.name
  | .cannotAssignFinal name _ => "Cannot assign to final variable " ++ quoted name
  | .variableAlreadyDeclared name _ => "Variable " ++ quoted name ++ " is already declared in this block"
  | .methodAlreadyDeclared name _ => "Method " ++ quoted name ++ " is already declared"
  | .duplicateParameter name _ => "Parameter " ++ quoted name ++ " appears twice"
  | .missingParameterType _ => "Parameter is missing its type"
  | .statementNotAllowed statement placement =>
    "Statement not allowed " ++ placement.description ++ ": " ++ statement.description

def code : RuleFault → String
  | .undeclaredVariable _ _ => "sjava::semantic::undeclared_variable"
  | .undeclaredMethod _ _ => "sjava::semantic::undeclared_method"
  | .uninitializedVariable _ _ => "sjava::semantic::uninitialized_variable"
  | .contravariantType _ _ _ _ => "sjava::semantic::contravariant_type"
  | .invalidAssignmentToken _ _ _ => "sjava::semantic::invalid_assignment_token"
  | .cannotAssignFinal _ _ => "sjava::semantic::cannot_assign_final"
  | .variableAlreadyDeclared _ _ => "sjava::semantic::variable_already_declared"
  | .methodAlreadyDeclared _ _ => "sjava::semantic::method_already_declared"
  | .duplicateParameter _ _ => "sjava::semantic::duplicate_parameter"
  | .missingParameterType _ => "sjava::semantic::missing_parameter_type"
  | .statementNotAllowed _ _ => "sjava::semantic::unexpected_statement"

def help : RuleFault → Option String
  | .undeclaredMethod _ _ => some "Methods must be declared in the global scope"
  | .missingParameterType _ => some "Parameters are written `[final] <type> <name>`"
  | _ => none

/-- The remark on the place of the fault. -/
def remark : RuleFault → String
  | .undeclaredVariable _ _ => "not found in any enclosing scope"
  | .undeclaredMethod _ _ => "called here"
  | .uninitializedVariable _ _ => "has no value yet"
  | .contravariantType _ found _ _ => "this is " ++ found.name
  | .invalidAssignmentToken _ expected _ => "not a valid " ++ expected.name ++ " value"
  | .cannotAssignFinal _ _ => "declared final"
  | .variableAlreadyDeclared _ _ | .methodAlreadyDeclared _ _ => "declared again here"
  | .duplicateParameter _ _ => "second parameter with this name"
  | .missingParameterType _ => "expected a type here"
  | .statementNotAllowed _ _ => ""

def diagnostic (f : RuleFault) : Diagnostic where
  message := f.message
  code := f.code
  help := f.help
  labels := f.span?.toList.map fun s => ⟨f.remark, s⟩

end RuleFault

/-! ## The rules -/

/-- A statement stands where its kind may stand. -/
def StatementKind.requireAllowed (kind : StatementKind) (placement : Placement) : Except RuleFault Unit :=
  if kind ∈ placement.allowed then .ok () else .error (.statementNotAllowed kind placement)

/-- A token can be a value of the type. -/
def ValueType.requireAssignable (type : ValueType) (value : Token) : Except RuleFault Unit :=
  if value.category ∈ type.assignable then .ok ()
  else .error (.invalidAssignmentToken value.category type value.span)

/-- A name does not keep the value it has for good. -/
def Variable.requireNonFinal (v : Variable) (name : Token) : Except RuleFault Unit :=
  if v.isFinal then .error (.cannotAssignFinal name.name name.span) else .ok ()

namespace ScopeChain

/-- A name is that of a variable in scope. -/
def requireDeclared (c : ScopeChain) (name : Token) : Except RuleFault Variable :=
  match c.visibleVariable? name.name with
  | some v => .ok v
  | none => .error (.undeclaredVariable name.name name.span)

/-- A name is that of a method in scope. -/
def requireMethod (c : ScopeChain) (name : Token) : Except RuleFault Method :=
  match c.visibleMethod? name.name with
  | some m => .ok m
  | none => .error (.undeclaredMethod name.name name.span)

/-- A name is that of a variable whose value can be used where a value of type `expected` is needed. -/
def requireUsable (c : ScopeChain) (expected : ValueType) (name : Token) : Except RuleFault Unit := do
  let v ← c.requireDeclared name
  if !v.isInitialized then .error (.uninitializedVariable name.name name.span)
  else if v.type ∉ expected.sources then .error (.contravariantType name.name v.type expected name.span)
  else .ok ()

end ScopeChain

end BlockCheck
