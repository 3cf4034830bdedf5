import StyleSheet.Builder
import StyleSheet.CommandLine
import StyleSheet.CommandLine.Arguments
import StyleSheet.Failure
import StyleSheet.FileSystem
import StyleSheet.FileSystem.Operations
import StyleSheet.Grouping
import StyleSheet.Json.Error
import StyleSheet.Json.Number
import StyleSheet.Json.Printer
import StyleSheet.Json.Reader
import StyleSheet.Json.Text
import StyleSheet.Log
import StyleSheet.Main
import StyleSheet.Manifest
import StyleSheet.Manifest.Load
import StyleSheet.Numeric.Binary
import StyleSheet.Numeric.Numeral
import StyleSheet.Numeric.Power
import StyleSheet.Numeric.Rounding
import StyleSheet.Numeric.Shortest
import StyleSheet.Numeric.Single
import StyleSheet.Output.Check
import StyleSheet.Output.Write
import StyleSheet.Path
import StyleSheet.Path.Output
import StyleSheet.Property
import StyleSheet.Reader.Lexeme
import StyleSheet.Reader.Name
import StyleSheet.Reader.Rules
import StyleSheet.Registry
import StyleSheet.Rule
import StyleSheet.RuleDiff
import StyleSheet.Selector
import StyleSheet.Selector.Expr
import StyleSheet.Setting
import StyleSheet.Setting.Target
import StyleSheet.Style
import StyleSheet.Text.Hex
import StyleSheet.Text.Invisible
import StyleSheet.Text.Plain
import StyleSheet.Text.Quoted
import StyleSheet.Text.Space
import StyleSheet.Text.Utf8
import StyleSheet.Value.Color
import StyleSheet.Value.Keyword
import StyleSheet.Value.Length
import StyleSheet.Proofs.Reader.Boundary
import StyleSheet.Proofs.Reader.Nesting
import StyleSheet.Proofs.Reader.Element
import StyleSheet.Proofs.Text.Trim
import StyleSheet.Proofs.Reader.Formatting
import StyleSheet.Proofs.Reader.Plain
import StyleSheet.Proofs.Grouping
import StyleSheet.Proofs.RuleDiff
import StyleSheet.Proofs.FileSystem.Place
import StyleSheet.Proofs.Output.Reformatting
import StyleSheet.Proofs.FileSystem.Files
import StyleSheet.Proofs.Output.Settled
import StyleSheet.Proofs.Output.Regeneration
import StyleSheet.Proofs.Numeric.Numeral
import StyleSheet.Proofs.Reader.Phrase
import StyleSheet.Proofs.Selector
import StyleSheet.Proofs.Setting
import StyleSheet.Proofs.RoundTrip
import StyleSheet.Proofs.FileSystem.Tree
import StyleSheet.Proofs.FileSystem.Ancestors
import StyleSheet.Proofs.Output.FinalState
import StyleSheet.Proofs.Output.Interruption
import StyleSheet.Proofs.Output.Containment
import StyleSheet.Proofs.Output.Agreement
import StyleSheet.Proofs.Reader.Origin
import StyleSheet.Proofs.Reader.Fragment
import StyleSheet.Proofs.Reader.Canonical
import StyleSheet.Proofs.Output.Differences
import StyleSheet.Proofs.Reader.Noise
import StyleSheet.Proofs.Reader.Body
import StyleSheet.Proofs.Reader.Litter
import StyleSheet.Proofs.Reader.Truncation
import StyleSheet.Proofs.Style
import StyleSheet.Proofs.Reader.Curly
import StyleSheet.Proofs.Json.Text
import StyleSheet.Proofs.Json.Reader
import StyleSheet.Proofs.Manifest
import StyleSheet.Proofs.Dump
import StyleSheet.Proofs.Registry
import StyleSheet.Proofs.Path
import StyleSheet.Proofs.Reader.Order
import StyleSheet.Proofs.TypePath
import StyleSheet.Proofs.Json.Decode
import StyleSheet.Proofs.Manifest.Spelling
import StyleSheet.Proofs.Reader.Bare
import StyleSheet.Proofs.Reader.Item
import StyleSheet.Proofs.Reader.Line
import StyleSheet.Proofs.Font
import StyleSheet.Proofs.Font.Probe
import StyleSheet.Proofs.Selector.Walk
import StyleSheet.Proofs.Builder
import StyleSheet.Proofs.Numeric.Nearest
import StyleSheet.Proofs.Numeric.Binary
import StyleSheet.Proofs.Numeric.Shortest
import StyleSheet.Proofs.Numeric.Notation
import StyleSheet.Proofs.Numeric.Single
import StyleSheet.Proofs.Length
import StyleSheet.Proofs.Numeric.Value
import StyleSheet.Proofs.Color
