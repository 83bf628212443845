import QueryTree.Builder
import QueryTree.Main
import QueryTree.Renderer.Pass
import QueryTree.Proofs.Outline.Handlers
import QueryTree.Proofs.Condition.Meaning
import QueryTree.Proofs.Refusal
import QueryTree.Proofs.Frame
import QueryTree.Proofs.Alike
import QueryTree.Proofs.Alike.Outlines
import QueryTree.Proofs.Pass
import QueryTree.Proofs.Composition
import QueryTree.Proofs.Interchange
import QueryTree.Proofs.KeyOrder
import QueryTree.Proofs.Phrase.Literals
import QueryTree.Proofs.Identifier
import QueryTree.Proofs.Phrase.Lexing
import QueryTree.Proofs.Phrase.Reading
import QueryTree.Proofs.Phrase.Standing
import QueryTree.Proofs.Phrase.Rendering
import QueryTree.Proofs.Phrase.Grouping
import QueryTree.Proofs.Identifier.Decoding
import QueryTree.Proofs.Table
import QueryTree.Proofs.Operators
import QueryTree.Proofs.Items
import QueryTree.Proofs.Lists
import QueryTree.Proofs.Nesting
import QueryTree.Proofs.Insert
import QueryTree.Proofs.Update
import QueryTree.Proofs.Binary64.Rounding
import QueryTree.Proofs.Binary64.Shortest
import QueryTree.Proofs.CommandLine
import QueryTree.Proofs.Condition.Pairs
import QueryTree.Proofs.Condition.Parentheses
import QueryTree.Proofs.Verb
import QueryTree.Proofs.Spelling
import QueryTree.Proofs.Builder
import QueryTree.Proofs.Condition.Splicing
import QueryTree.Proofs.Layers
import QueryTree.Proofs.Registry
import QueryTree.Proofs.Alike.Around
import QueryTree.Proofs.Settings
import QueryTree.Proofs.Rules
import QueryTree.Proofs.Variables
import QueryTree.Proofs.CommandLine.Aborts
