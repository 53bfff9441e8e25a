import CppsFrontend.Arena.Cell
import CppsFrontend.Command.FileTree
import CppsFrontend.Diagnosis.Expectation
import CppsFrontend.Tree.Listing
import CppsFrontend.Main
import CppsFrontend.Proofs.Grammar.Parsing
import CppsFrontend.Proofs.Grammar.Reports
import CppsFrontend.Proofs.Grammar.Modes
import CppsFrontend.Proofs.Grammar.Climbing
import CppsFrontend.Proofs.Lexical.Pieces
import CppsFrontend.Proofs.Lexical.Tiling
import CppsFrontend.Proofs.Lexical.Lexing
import CppsFrontend.Proofs.Lexical.Spacing
import CppsFrontend.Proofs.Source.Definitions
import CppsFrontend.Proofs.Source.Commentary
import CppsFrontend.Proofs.Analysis.Acceptance
import CppsFrontend.Proofs.Grammar.Parallel
import CppsFrontend.Proofs.Grammar.Correspondence
import CppsFrontend.Proofs.Grammar.Layout
import CppsFrontend.Proofs.Grammar.Continuation
import CppsFrontend.Proofs.Grammar.Extension
import CppsFrontend.Proofs.Grammar.Modular
import CppsFrontend.Proofs.Arena.Allocations
import CppsFrontend.Proofs.Arena.Keeping
import CppsFrontend.Proofs.Arena.Sessions
import CppsFrontend.Proofs.Arena.Refinement
import CppsFrontend.Proofs.Arena.Loans
import CppsFrontend.Proofs.Output.Numbering
import CppsFrontend.Proofs.Diagnosis.Decoded
import CppsFrontend.Cst.Node
import CppsFrontend.Cst.Storing
import CppsFrontend.Cst.Declaration
import CppsFrontend.Cst.Expression
import CppsFrontend.Cst.Statement
import CppsFrontend.Cst.Unit
import CppsFrontend.Proofs.Cst.Denoting
import CppsFrontend.Proofs.Cst.Parts
import CppsFrontend.Proofs.Cst.Owning
import CppsFrontend.Proofs.Cst.Mirroring
import CppsFrontend.Proofs.Cst.Names
import CppsFrontend.Proofs.Cst.Declarations
import CppsFrontend.Proofs.Cst.Expressions
import CppsFrontend.Proofs.Cst.Statements
import CppsFrontend.Proofs.Cst.Units
import CppsFrontend.Proofs.Lexical.Concatenation
import CppsFrontend.Proofs.Grammar.Touching
import CppsFrontend.Proofs.Lexical.Spellings
import CppsFrontend.Proofs.Lexical.Classes
import CppsFrontend.Proofs.Grammar.Exchange
import CppsFrontend.Proofs.Grammar.Relational
import CppsFrontend.Proofs.Grammar.Advancing
import CppsFrontend.Proofs.Grammar.Nesting
import CppsFrontend.Proofs.Lexical.Places
import CppsFrontend.Proofs.Grammar.Spans
import CppsFrontend.Proofs.Source.Tracking
import CppsFrontend.Proofs.Source.Fidelity
import CppsFrontend.Proofs.Source.Comments
import CppsFrontend.Proofs.Source.Unclosed
import CppsFrontend.Proofs.Source.Addresses
import CppsFrontend.Proofs.Arena.Returning
import CppsFrontend.Proofs.Token.Lines
import CppsFrontend.Proofs.Lexical.Faults
import CppsFrontend.Proofs.Lexical.Strings
import CppsFrontend.Proofs.Source.Strings
import CppsFrontend.Proofs.Output.Blocks
import CppsFrontend.Proofs.Output.Cutting
import CppsFrontend.Proofs.Command.Arguments
import CppsFrontend.Proofs.Diagnosis.Carets
