import BlockCheck.Main
import BlockCheck.Proofs.Ensures
import BlockCheck.Proofs.SideBySide
import BlockCheck.Proofs.Token.Ahead
import BlockCheck.Proofs.Token.Spelling
import BlockCheck.Proofs.Token.LastLexeme
import BlockCheck.Proofs.Token.Places
import BlockCheck.Proofs.Token.Layout
import BlockCheck.Proofs.Token.Pieces
import BlockCheck.Proofs.Token.Insertion
import BlockCheck.Proofs.Token.Lossless
import BlockCheck.Proofs.Token.LongestMatch
import BlockCheck.Proofs.Token.SpacedLexemes
import BlockCheck.Proofs.Token.CursorIndex
import BlockCheck.Proofs.Line.StatementTree
import BlockCheck.Proofs.Line.Step
import BlockCheck.Proofs.Scope.Entries
import BlockCheck.Proofs.Scope.TableLog
import BlockCheck.Proofs.Line.Declaring
import BlockCheck.Proofs.Line.Rules
import BlockCheck.Proofs.Line.Forms
import BlockCheck.Proofs.Line.Acceptance
import BlockCheck.Proofs.Line.StatementReader
import BlockCheck.Proofs.Line.Braces
import BlockCheck.Proofs.Line.Ensures
import BlockCheck.Proofs.Line.FaultPlaces
import BlockCheck.Proofs.Line.ScopeChanges
import BlockCheck.Proofs.Line.FinalVariables
import BlockCheck.Proofs.Line.Layout
import BlockCheck.Proofs.Scope.Numbering
import BlockCheck.Proofs.Line.Effect
import BlockCheck.Proofs.Scope.Related
import BlockCheck.Proofs.Line.MoreValues
import BlockCheck.Proofs.Line.GivenLiterals
import BlockCheck.Proofs.Line.LeadingDeclarators
import BlockCheck.Proofs.Line.FailedEffect
import BlockCheck.Proofs.Line.Failures
import BlockCheck.Proofs.Line.Lookahead
import BlockCheck.Proofs.Line.Conditions
import BlockCheck.Proofs.Line.Calls
import BlockCheck.Proofs.Line.DeclaratorLists
import BlockCheck.Proofs.Scope.Arena
import BlockCheck.Proofs.Scope.ArenaRuns
import BlockCheck.Proofs.Scope.History
import BlockCheck.Proofs.Scope.FinalEntries
import BlockCheck.Proofs.Scope.Finality
import BlockCheck.Proofs.Program.BlockTree
import BlockCheck.Proofs.Program.LineEffects
import BlockCheck.Proofs.Program.Steps
import BlockCheck.Proofs.Program.Runs
import BlockCheck.Proofs.Program.NestingAgreement
import BlockCheck.Proofs.Program.BlockRuns
import BlockCheck.Proofs.Program.Tracked
import BlockCheck.Proofs.Program.StepOrder
import BlockCheck.Proofs.Program.Lockstep
import BlockCheck.Proofs.Program.BlockVerdict
import BlockCheck.Proofs.Program.Depth
import BlockCheck.Proofs.Program.BlockFrame
import BlockCheck.Proofs.Program.Visits
import BlockCheck.Proofs.Program.Coverage
import BlockCheck.Proofs.Program.MethodIndex
import BlockCheck.Proofs.Program.Balance
import BlockCheck.Proofs.Program.MethodLookup
import BlockCheck.Proofs.Program.MethodOrder
import BlockCheck.Proofs.Program.MoreValues
import BlockCheck.Proofs.Program.BodyChange
import BlockCheck.Proofs.Program.FirstImbalance
import BlockCheck.Proofs.Program.RejectionPlaces
import BlockCheck.Proofs.Program.Initialization
import BlockCheck.Proofs.Program.WrittenSource
import BlockCheck.Proofs.Program.LineIndex
import BlockCheck.Proofs.Program.Correspondence
import BlockCheck.Proofs.Program.Layout
import BlockCheck.Proofs.Program.BlankLines
import BlockCheck.Proofs.Program.FirstFault
import BlockCheck.Proofs.Program.LineEnds
