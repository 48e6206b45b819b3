import Plotline.Action
import Plotline.Canvas
import Plotline.Complaint
import Plotline.Diagnostic
import Plotline.Disk
import Plotline.Expression
import Plotline.Expression.Parser
import Plotline.Expression.Value
import Plotline.FileSystem
import Plotline.Function
import Plotline.Generator
import Plotline.Journal
import Plotline.Label
import Plotline.Line
import Plotline.Listing
import Plotline.Machine
import Plotline.Main
import Plotline.Memory
import Plotline.Number.Binary
import Plotline.Number.Reader
import Plotline.Number.Shortest
import Plotline.Number.Text
import Plotline.Path
import Plotline.Program
import Plotline.Proofs.Budget
import Plotline.Proofs.Characters
import Plotline.Proofs.Conversation
import Plotline.Proofs.DocumentText
import Plotline.Proofs.DrawingCheck
import Plotline.Proofs.DrawnDocument
import Plotline.Proofs.ExactValue
import Plotline.Proofs.ExitStatus
import Plotline.Proofs.ExpressionGrammar
import Plotline.Proofs.ExpressionReading
import Plotline.Proofs.ForwardJumps
import Plotline.Proofs.History
import Plotline.Proofs.InPlace
import Plotline.Proofs.InternalErrors
import Plotline.Proofs.JumpTargets
import Plotline.Proofs.LabelIndex
import Plotline.Proofs.LineReports
import Plotline.Proofs.LineStatements
import Plotline.Proofs.ListingLines
import Plotline.Proofs.ListingRegion
import Plotline.Proofs.Negation
import Plotline.Proofs.NumberText
import Plotline.Proofs.Outcome
import Plotline.Proofs.Places
import Plotline.Proofs.Plan
import Plotline.Proofs.PrintedExpression
import Plotline.Proofs.PrintedStatement
import Plotline.Proofs.RandomCalls
import Plotline.Proofs.Reached
import Plotline.Proofs.Refusal
import Plotline.Proofs.RefusedAnswers
import Plotline.Proofs.Region
import Plotline.Proofs.Reports
import Plotline.Proofs.Run
import Plotline.Proofs.Service
import Plotline.Proofs.ShapeCheck
import Plotline.Proofs.SignExpansion
import Plotline.Proofs.SignGrammar
import Plotline.Proofs.Slots
import Plotline.Proofs.StackedSigns
import Plotline.Proofs.StatementEffects
import Plotline.Proofs.StatementGrammar
import Plotline.Proofs.StatementReading
import Plotline.Proofs.StatementShape
import Plotline.Proofs.Step
import Plotline.Proofs.TokenCuts
import Plotline.Proofs.TokenLines
import Plotline.Proofs.TokenText
import Plotline.Proofs.TypedStore
import Plotline.Session
import Plotline.Statement
import Plotline.Statement.Parser
import Plotline.Text.Blank
import Plotline.Text.Lines
import Plotline.Text.Utf8
import Plotline.Timestamp
import Plotline.Token
import Plotline.Token.Scanner
import Plotline.Token.Shape
import Plotline.Token.Sign
import Plotline.Work
import Plotline.World
