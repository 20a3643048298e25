import Clipper.Analysis
import Clipper.Source.Location
import Clipper.Syntax.Record
import Clipper.Main
import Clipper.Proofs.Grammar.Yields
import Clipper.Proofs.Source.Containment
import Clipper.Proofs.Syntax.Node
import Clipper.Proofs.Grammar.ExpressionSpans
import Clipper.Proofs.Grammar.StatementSpans
import Clipper.Proofs.Lexeme.Gap
import Clipper.Proofs.Lexeme.PieceBounds
import Clipper.Proofs.Lexeme.PathMemory
import Clipper.Proofs.Lexeme.Partition
import Clipper.Proofs.Directive.Placement
import Clipper.Proofs.Grammar.ProgramSpans
import Clipper.Proofs.Grammar.ExpressionPhrase
import Clipper.Proofs.Grammar.ExpressionSound
import Clipper.Proofs.Syntax.Bare
import Clipper.Proofs.Grammar.ExpressionComplete
import Clipper.Proofs.Grammar.StatementPhrase
import Clipper.Proofs.Grammar.StatementSound
import Clipper.Proofs.Grammar.CutShort
import Clipper.Proofs.Grammar.Sparing
import Clipper.Proofs.Syntax.Total
import Clipper.Proofs.Grammar.Body
import Clipper.Proofs.Grammar.RoutinePlacement
import Clipper.Proofs.Grammar.Routines
import Clipper.Proofs.Grammar.Closers
import Clipper.Proofs.Syntax.Relabelling
import Clipper.Proofs.Syntax.Blind
import Clipper.Proofs.Grammar.Seam
import Clipper.Proofs.Grammar.Together
import Clipper.Proofs.Grammar.ExpressionTogether
import Clipper.Proofs.Grammar.StatementTogether
import Clipper.Proofs.Grammar.RelabelledReadings
import Clipper.Proofs.Grammar.Handover
import Clipper.Proofs.Grammar.NextRoutine
import Clipper.Proofs.Grammar.NextStatement
import Clipper.Proofs.Directive.Origin
import Clipper.Proofs.Lexeme.LineMemory
import Clipper.Proofs.Lexeme.Questions
import Clipper.Proofs.Lexeme.QuestionLog
import Clipper.Proofs.Lexeme.Faults
import Clipper.Proofs.Grammar.InvalidTokens
import Clipper.Proofs.Grammar.SpelledPhrase
import Clipper.Proofs.Diagnostics
import Clipper.Proofs.Lexeme.Spelling
import Clipper.Proofs.Listing.SuffixedPrefix
import Clipper.Proofs.Lexeme.Words
import Clipper.Proofs.Listing.Printable
import Clipper.Proofs.Listing.ExpressionText
import Clipper.Proofs.Listing.StatementText
import Clipper.Proofs.Grammar.Takes
import Clipper.Proofs.Listing.ExpressionReading
import Clipper.Proofs.Listing.StatementReading
import Clipper.Proofs.Listing.Reading
import Clipper.Proofs.BlindReadings
import Clipper.Proofs.Lexeme.Curtailed
import Clipper.Proofs.Lexeme.TokenText
import Clipper.Proofs.Source.Slice
import Clipper.Proofs.Lexeme.TokenAlone
import Clipper.Proofs.Directive.WithinLine
import Clipper.Proofs.TokenSlices
import Clipper.Proofs.Syntax.Marks
import Clipper.Proofs.Grammar.Passes
import Clipper.Proofs.Grammar.ExpressionPasses
import Clipper.Proofs.Grammar.StatementPasses
import Clipper.Proofs.Grammar.Curtailment
import Clipper.Proofs.Grammar.ExpressionCurtailment
import Clipper.Proofs.Grammar.StatementForms
import Clipper.Proofs.Grammar.StatementCurtailment
import Clipper.Proofs.Grammar.PhraseLevels
import Clipper.Proofs.Grammar.Hull
import Clipper.Proofs.Grammar.Places
import Clipper.Proofs.Grammar.ExpressionPlaces
import Clipper.Proofs.Grammar.PhraseEnds
import Clipper.Proofs.Grammar.StatementAlone
import Clipper.Proofs.Grammar.StatementPlaces
import Clipper.Proofs.Grammar.ProgramPlaces
import Clipper.Proofs.Grammar.AlikeReadings
import Clipper.Proofs.Lexeme.ScannerRuns
import Clipper.Proofs.Lexeme.Excerpt
import Clipper.Proofs.TokenExcerpts
import Clipper.Proofs.SpansExact
import Clipper.Proofs.Syntax.Nesting
import Clipper.Proofs.Grammar.NestingBound
import Clipper.Proofs.Grammar.Counter
import Clipper.Proofs.Grammar.CountedGrammar
import Clipper.Proofs.Grammar.SimpleReading
import Clipper.Proofs.Grammar.CompoundReading
import Clipper.Proofs.Grammar.TerminatedPhrase
import Clipper.Proofs.Grammar.TerminatedReading
import Clipper.Proofs.Listing.LoneExpression
import Clipper.Proofs.Source.Returned
import Clipper.Proofs.Source.LetterCase
import Clipper.Proofs.Source.Respelling
import Clipper.Proofs.Lexeme.RespelledPieces
import Clipper.Proofs.Lexeme.ReturnedPieces
import Clipper.Proofs.Lexeme.ReturnedScan
import Clipper.Proofs.Lexeme.LinePieces
import Clipper.Proofs.Lexeme.Paragraphs
import Clipper.Proofs.Directive.ReturnedLines
import Clipper.Proofs.LineEnds
import Clipper.Proofs.Lexeme.LetterCase
import Clipper.Proofs.Directive.LetterCase
import Clipper.Proofs.LetterCase
import Clipper.Proofs.Grammar.WordsInOrder
import Clipper.Proofs.Grammar.Course
import Clipper.Proofs.Grammar.Beginnings
import Clipper.Proofs.Grammar.ReportOrder
import Clipper.Proofs.Verdict
import Clipper.Proofs.Lexeme.BrokenOff
import Clipper.Proofs.Directive.StrippedFaults
import Clipper.Proofs.Grammar.SpareLevels
import Clipper.Proofs.Grammar.TakenElsewhere
import Clipper.Proofs.Grammar.ElseIfChain
import Clipper.Proofs.Grammar.HeaderRecovery
import Clipper.Proofs.Grammar.MissingHeader
import Clipper.Proofs.Grammar.SingleReport
import Clipper.Proofs.Lexeme.QuotedLiteral
import Clipper.Proofs.Lexeme.EscapedQuotes
import Clipper.Proofs.Outline.Unambiguous
import Clipper.Proofs.Source.Bytes
import Clipper.Proofs.Source.Locations
import Clipper.Proofs.Source.LongestRun
import Clipper.Proofs.Directive.Lines
import Clipper.Proofs.Directive.RemovedLines
import Clipper.Proofs.Directive.KeptRuns
import Clipper.Proofs.PathComponents
import Clipper.Proofs.Collection
import Clipper.Proofs.Grammar.Attempts
import Clipper.Proofs.Grammar.NotedReading
import Clipper.Proofs.Grammar.Climbing
