import OpLang.Main
import OpLang.Program.Journal
import OpLang.Token.Cursor
import OpLang.Proofs.CommandLine.Answer
import OpLang.Proofs.CommandLine.Arguments
import OpLang.Proofs.Diagnostic.Excerpt
import OpLang.Proofs.Expr.Course
import OpLang.Proofs.Item.EarliestFault
import OpLang.Proofs.Item.PrototypeForm
import OpLang.Proofs.PrecedenceTable.Listing
import OpLang.Proofs.Program.Account
import OpLang.Proofs.Program.Barrier
import OpLang.Proofs.Program.DeepNesting
import OpLang.Proofs.Program.Journal
import OpLang.Proofs.Program.Legible
import OpLang.Proofs.Program.OperatorOrder
import OpLang.Proofs.Program.Positions
import OpLang.Proofs.Program.Renaming
import OpLang.Proofs.Program.Rendering
import OpLang.Proofs.Program.Resumption
import OpLang.Proofs.Program.Stopping
import OpLang.Proofs.Program.WellFormed
import OpLang.Proofs.Text.Offset
import OpLang.Proofs.Token.Lines
import OpLang.Proofs.Token.Padding
import OpLang.Proofs.Token.Separation
import OpLang.Proofs.Token.Tiling
