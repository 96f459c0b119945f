import Script.Files.Tree
import Script.Main
import Script.Proofs.Access.Aborting
import Script.Proofs.Eval.Backtrace
import Script.Proofs.Eval.DeadCode
import Script.Proofs.Eval.Isolation
import Script.Proofs.Eval.Literal
import Script.Proofs.Eval.Mapping
import Script.Proofs.Eval.Printed
import Script.Proofs.Eval.Reach
import Script.Proofs.Eval.ReadOnly
import Script.Proofs.Eval.References
import Script.Proofs.Eval.Streaming
import Script.Proofs.Library.Filter
import Script.Proofs.Library.Reversal
import Script.Proofs.Library.SortString
import Script.Proofs.Library.Trim
import Script.Proofs.Library.Unique
import Script.Proofs.Module.Cache
import Script.Proofs.Module.NewName
import Script.Proofs.Scopes.Balance
import Script.Proofs.Store.Contents
import Script.Proofs.Syntax.Concatenation
import Script.Proofs.Syntax.Lookahead
import Script.Proofs.Syntax.RoundTrip.Program
import Script.Proofs.Tape.Faults
