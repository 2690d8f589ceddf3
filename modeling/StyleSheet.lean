import StyleSheet.Color
import StyleSheet.Command
import StyleSheet.Main
import StyleSheet.Scope.Workspace
import StyleSheet.Proofs.Stacks
import StyleSheet.Proofs.Trace
import StyleSheet.Proofs.Blocks
import StyleSheet.Proofs.Grammar.Acceptance
import StyleSheet.Proofs.Spans.Errors
import StyleSheet.Proofs.Scopes.Confinement
import StyleSheet.Proofs.Scopes.Isolation
import StyleSheet.Proofs.Scopes.Graph
import StyleSheet.Proofs.Scanning.Lossless
import StyleSheet.Proofs.Scanning.Header
import StyleSheet.Proofs.Scanning.HeaderTokens
import StyleSheet.Proofs.Queue
import StyleSheet.Proofs.Splicing
import StyleSheet.Proofs.Scopes.Liveness
import StyleSheet.Proofs.Loading
import StyleSheet.Proofs.Imports
import StyleSheet.Proofs.Spans.Mapping
import StyleSheet.Proofs.Grammar.Lockstep
import StyleSheet.Proofs.Grammar.Streaming
import StyleSheet.Proofs.Layout.Evaluation
import StyleSheet.Proofs.Layout.Independence
import StyleSheet.Proofs.Shapes
import StyleSheet.Proofs.Aliases
import StyleSheet.Proofs.Nesting
import StyleSheet.Proofs.Grammar.Rendering
import StyleSheet.Proofs.Scanning.Comments
import StyleSheet.Proofs.Scanning.Combinators
import StyleSheet.Proofs.Scanning.Suffixes
import StyleSheet.Proofs.Grammar.Brackets
import StyleSheet.Proofs.ImportChain
import StyleSheet.Proofs.Grammar.Placement
import StyleSheet.Proofs.ValueLists
import StyleSheet.Proofs.Grammar.Consumption
import StyleSheet.Proofs.Options
import StyleSheet.Proofs.Numerals
import StyleSheet.Proofs.Carets
import StyleSheet.Proofs.Grammar.Wanted
import StyleSheet.Proofs.Grammar.Neighbours
import StyleSheet.Proofs.Bytes.Counting
import StyleSheet.Proofs.Bytes.Cursor
import StyleSheet.Proofs.Bytes.Lookahead
import StyleSheet.Proofs.Bytes.Recognition
import StyleSheet.Proofs.Bytes.Scanner
import StyleSheet.Proofs.Bytes.Ending
import StyleSheet.Proofs.Bytes.Order
import StyleSheet.Proofs.ColorNames
