import SyntaxInspector.CommandLine.Args
import SyntaxInspector.CommandLine.Number
import SyntaxInspector.CommandLine.Parse
import SyntaxInspector.CommandLine.Switch
import SyntaxInspector.CommandLine.Usage
import SyntaxInspector.Diagnostic
import SyntaxInspector.Error
import SyntaxInspector.Graphviz
import SyntaxInspector.Host
import SyntaxInspector.Json.Basic
import SyntaxInspector.Json.Decode
import SyntaxInspector.Json.Draft
import SyntaxInspector.Json.Number
import SyntaxInspector.Json.Reader
import SyntaxInspector.Language
import SyntaxInspector.Main
import SyntaxInspector.Output.Device
import SyntaxInspector.Output.IoError
import SyntaxInspector.Output.Sink
import SyntaxInspector.Path
import SyntaxInspector.Proofs.AcceptedArgs
import SyntaxInspector.Proofs.AnswerEdits
import SyntaxInspector.Proofs.Bars
import SyntaxInspector.Proofs.ByteSlices
import SyntaxInspector.Proofs.Delivery
import SyntaxInspector.Proofs.Emission
import SyntaxInspector.Proofs.ErrorNodes
import SyntaxInspector.Proofs.ErrorPlaces
import SyntaxInspector.Proofs.FileNames
import SyntaxInspector.Proofs.FilePlaces
import SyntaxInspector.Proofs.GrammarLoads
import SyntaxInspector.Proofs.GraphReading
import SyntaxInspector.Proofs.ImageOutcomes
import SyntaxInspector.Proofs.JsonCompleteness
import SyntaxInspector.Proofs.JsonEdits
import SyntaxInspector.Proofs.JsonGrammar
import SyntaxInspector.Proofs.JsonLayout
import SyntaxInspector.Proofs.JsonShapes
import SyntaxInspector.Proofs.JsonSoundness
import SyntaxInspector.Proofs.JsonTokens
import SyntaxInspector.Proofs.KeySecrecy
import SyntaxInspector.Proofs.KeyWords
import SyntaxInspector.Proofs.LanguageLookup
import SyntaxInspector.Proofs.Numbering
import SyntaxInspector.Proofs.Offers
import SyntaxInspector.Proofs.OptionWords
import SyntaxInspector.Proofs.Outcomes
import SyntaxInspector.Proofs.OutlineLines
import SyntaxInspector.Proofs.OutlineReading
import SyntaxInspector.Proofs.PendingSubtrees
import SyntaxInspector.Proofs.Preorder
import SyntaxInspector.Proofs.Previews
import SyntaxInspector.Proofs.Prompts
import SyntaxInspector.Proofs.QuotedLabels
import SyntaxInspector.Proofs.QuotedText
import SyntaxInspector.Proofs.Ranking
import SyntaxInspector.Proofs.Replacements
import SyntaxInspector.Proofs.ReportLayout
import SyntaxInspector.Proofs.RequestBodies
import SyntaxInspector.Proofs.ReviewOutcome
import SyntaxInspector.Proofs.StageEffects
import SyntaxInspector.Proofs.Stages
import SyntaxInspector.Proofs.Statistics
import SyntaxInspector.Proofs.SummaryReading
import SyntaxInspector.Proofs.Tallies
import SyntaxInspector.Proofs.TextBytes
import SyntaxInspector.Proofs.Trimming
import SyntaxInspector.Proofs.Views
import SyntaxInspector.Proofs.WriteFailures
import SyntaxInspector.Proofs.Writing
import SyntaxInspector.Review.Address
import SyntaxInspector.Review.Client
import SyntaxInspector.Review.Config
import SyntaxInspector.Review.Error
import SyntaxInspector.Review.Prompt
import SyntaxInspector.Review.Response
import SyntaxInspector.Run
import SyntaxInspector.Source.Cache
import SyntaxInspector.Source.Error
import SyntaxInspector.Source.Parsed
import SyntaxInspector.Summary.Basic
import SyntaxInspector.Summary.Report
import SyntaxInspector.Summary.Tally
import SyntaxInspector.Text.Blank
import SyntaxInspector.Text.ByteRange
import SyntaxInspector.Text.Column
import SyntaxInspector.Text.Quoted
import SyntaxInspector.Text.Unshown
import SyntaxInspector.Text.Utf8
import SyntaxInspector.Tree.Basic
import SyntaxInspector.Tree.Errors
import SyntaxInspector.Tree.Expression
import SyntaxInspector.Tree.Graph
import SyntaxInspector.Tree.Outline
import SyntaxInspector.Tree.Rows
import SyntaxInspector.Tree.Walk
import SyntaxInspector.World
import SyntaxInspector.World.Files
