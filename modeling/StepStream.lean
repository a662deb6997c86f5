import StepStream.Answer.Atom
import StepStream.Answer.Grouping
import StepStream.Answer.Table
import StepStream.Binary64
import StepStream.CommandLine.Item
import StepStream.CommandLine.Occurrence
import StepStream.CommandLine.Options
import StepStream.CommandLine.Parse
import StepStream.Connection
import StepStream.Error
import StepStream.Execution
import StepStream.Json
import StepStream.Json.Fault
import StepStream.Launch
import StepStream.Line.Classify
import StepStream.Line.Directive
import StepStream.Line.Kind
import StepStream.Line.Shape
import StepStream.Main
import StepStream.Message.Frame
import StepStream.Pattern.Basic
import StepStream.Pattern.Contexts
import StepStream.Pattern.Lemmas
import StepStream.Proofs.AnswerLine
import StepStream.Proofs.AnswerPacing
import StepStream.Proofs.AnswerTable
import StepStream.Proofs.Assembly
import StepStream.Proofs.AsyncDisplay
import StepStream.Proofs.AsyncLoss
import StepStream.Proofs.AsyncTrace
import StepStream.Proofs.BrokenStream
import StepStream.Proofs.Calls
import StepStream.Proofs.CarriedAtom
import StepStream.Proofs.CarriedConstraint
import StepStream.Proofs.ClauseGrammar
import StepStream.Proofs.ClauseKind
import StepStream.Proofs.Closing
import StepStream.Proofs.ClusterRules
import StepStream.Proofs.Connection
import StepStream.Proofs.Delivery
import StepStream.Proofs.DirectiveGrammar
import StepStream.Proofs.DocumentGrammar
import StepStream.Proofs.FileLines
import StepStream.Proofs.FileSteps
import StepStream.Proofs.FinalAtom
import StepStream.Proofs.FinalStep
import StepStream.Proofs.FinalStop
import StepStream.Proofs.Forwarding
import StepStream.Proofs.Framing
import StepStream.Proofs.GroundAtom
import StepStream.Proofs.Grouping
import StepStream.Proofs.HeldAssertion
import StepStream.Proofs.Lifecycle
import StepStream.Proofs.Lines
import StepStream.Proofs.Listening
import StepStream.Proofs.Lockstep
import StepStream.Proofs.LostConnection
import StepStream.Proofs.MessageBoundary
import StepStream.Proofs.Padding
import StepStream.Proofs.Preparation
import StepStream.Proofs.QueryText
import StepStream.Proofs.Residue
import StepStream.Proofs.RunFaults
import StepStream.Proofs.SentMessages
import StepStream.Proofs.SentTexts
import StepStream.Proofs.Session
import StepStream.Proofs.SessionLife
import StepStream.Proofs.StepArgument
import StepStream.Proofs.StepCounter
import StepStream.Proofs.StepResults
import StepStream.Proofs.StopDeferral
import StepStream.Proofs.SyncCourse
import StepStream.Proofs.SyncLoop
import StepStream.Proofs.SyncLoss
import StepStream.Proofs.SyncMoves
import StepStream.Proofs.SyncWork
import StepStream.Proofs.TableColumns
import StepStream.Proofs.TermGrammar
import StepStream.Proofs.TimeArgument
import StepStream.Proofs.TimeGroups
import StepStream.Proofs.TrailingComment
import StepStream.Proofs.TranscriptReading
import StepStream.Proofs.TypedFragments
import StepStream.Proofs.Undivided
import StepStream.Proofs.UnfinishedMessage
import StepStream.Proofs.Utf8
import StepStream.Proofs.WarnedStream
import StepStream.Proofs.Warnings
import StepStream.Proofs.WireText
import StepStream.Rehearsal.AsyncPlay
import StepStream.Rehearsal.Peer
import StepStream.Rehearsal.Program
import StepStream.Rehearsal.Scene
import StepStream.Rehearsal.Script
import StepStream.Rehearsal.Stage
import StepStream.Rehearsal.SyncPlay
import StepStream.Response.Assembly
import StepStream.Response.Line
import StepStream.Session.Async
import StepStream.Session.Basic
import StepStream.Session.CarryOver
import StepStream.Session.Config
import StepStream.Session.Life
import StepStream.Session.Status
import StepStream.Session.Sync
import StepStream.Source.Files
import StepStream.Source.Fragment
import StepStream.Source.Interactive
import StepStream.Source.Place
import StepStream.Source.Query
import StepStream.Source.QueryClause
import StepStream.Source.StepBuffer
import StepStream.Source.Supply
import StepStream.Source.Terminal
import StepStream.Text.Basic
import StepStream.Text.Cluster
import StepStream.Text.ClusterTable
import StepStream.Text.DecimalDigit
import StepStream.Text.Lines
import StepStream.Text.Numeral
import StepStream.Text.Utf8
import StepStream.Time
import StepStream.Transcript
