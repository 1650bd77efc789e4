import BlockCheck.Nesting
import BlockCheck.Rule

/-!
# Faults of a line

Everything that can be wrong with one line: it does not read as a statement, it breaks a rule, or it does not fit the
block structure. `FaultKind` is the coarser kind by which programs are told apart from outside.
-/

namespace BlockCheck

open Text (Span)

/-- The kinds of fault, independent of the wording of messages. -/
inductive FaultKind
  | unknownToken
  | unknownStatement
  | mismatchedBraces
  | unexpectedToken
  | variableAlreadyDeclared
  | methodAlreadyDeclared
  | invalidParameterDefinition
  | undeclaredVariable
  | uninitializedVariable
  | contravariantType
  | invalidAssignmentToken
  | cannotAssignFinal
  | unexpectedStatementAtScope
  | failedMethodScopeInitialization
  | missingReturnStatement
  deriving DecidableEq, Repr

/-- The kind as it is printed. -/
def FaultKind.name : FaultKind → String
  | .unknownToken => "UnknownToken"
  | .unknownStatement => "UnknownStatement"
  | .mismatchedBraces => "MismatchedBraces"
  | .unexpectedToken => "UnexpectedToken"
  | .variableAlreadyDeclared => "VariableAlreadyDeclared"
  | .methodAlreadyDeclared => "MethodAlreadyDeclared"
  | .invalidParameterDefinition => "InvalidParameterDefinition"
  | .undeclaredVariable => "UndeclaredVariable"
  | .uninitializedVariable => "UninitializedVariable"
  | .contravariantType => "ContravariantType"
  | .invalidAssignmentToken => "InvalidAssignmentToken"
  | .cannotAssignFinal => "CannotAssignFinal"
  | .unexpectedStatementAtScope => "UnexpectedStatementAtScope"
  | .failedMethodScopeInitialization => "FailedMethodScopeInitialization"
  | .missingReturnStatement => "MissingReturnStatement"

def SyntaxFault.kind : SyntaxFault → FaultKind
  | .unknownToken _ _ => .unknownToken
  | .unknownStatement _ _ _ => .unknownStatement
  | .unexpectedToken _ _ _ => .unexpectedToken

def RuleFault.kind : RuleFault → FaultKind
  | .undeclaredVariable _ _ | .undeclaredMethod _ _ => .undeclaredVariable
  | .uninitializedVariable _ _ => .uninitializedVariable
  | .contravariantType _ _ _ _ => .contravariantType
  | .invalidAssignmentToken _ _ _ => .invalidAssignmentToken
  | .cannotAssignFinal _ _ => .cannotAssignFinal
  | .variableAlreadyDeclared _ _ => .variableAlreadyDeclared
  | .methodAlreadyDeclared _ _ => .methodAlreadyDeclared
  | .duplicateParameter _ _ | .missingParameterType _ => .invalidParameterDefinition
  | .statementNotAllowed _ _ => .unexpectedStatementAtScope

def BlockFault.kind : BlockFault → FaultKind
  | .mismatchedBraces => .mismatchedBraces
  | .parametersNotInScope _ => .failedMethodScopeInitialization
  | .missingReturn _ => .missingReturnStatement

inductive LineFault
  | ofSyntax (fault : SyntaxFault)
  | ofRule (fault : RuleFault)
  | ofBlock (fault : BlockFault)
  deriving DecidableEq, Repr

namespace LineFault

def kind : LineFault → FaultKind
  | .ofSyntax f => f.kind
  | .ofRule f => f.kind
  | .ofBlock f => f.kind

/-- The place of the fault in its line, if it is narrower than the line. -/
def span? : LineFault → Option Span
  | .ofSyntax f => f.span?
  | .ofRule f => f.span?
  | .ofBlock _ => none

def diagnostic : LineFault → Diagnostic
  | .ofSyntax f => f.diagnostic
  | .ofRule f => f.diagnostic
  | .ofBlock f => f.diagnostic

end LineFault

end BlockCheck
