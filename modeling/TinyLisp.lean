import TinyLisp.Main
import TinyLisp.Proofs.Text.Decimal
import TinyLisp.Proofs.Node.Reader
import TinyLisp.Proofs.Token.Scan
import TinyLisp.Proofs.Node.Grammar
import TinyLisp.Proofs.Node.Spelling
import TinyLisp.Proofs.Node.Viability
import TinyLisp.Proofs.Token.Numeral
import TinyLisp.Proofs.Node.RoundTrip
import TinyLisp.Proofs.Text.Blank
import TinyLisp.Proofs.Token.Layout
import TinyLisp.Proofs.Evaluation
import TinyLisp.Proofs.Service.Transport
import TinyLisp.Proofs.Evaluation.Replacement
import TinyLisp.Proofs.Evaluation.Exact
import TinyLisp.Proofs.Evaluation.Renumbering
import TinyLisp.Proofs.Service.Accounting
import TinyLisp.Proofs.Evaluation.FirstFault
import TinyLisp.Proofs.Evaluation.Demand
import TinyLisp.Proofs.Token.OnePass
import TinyLisp.Proofs.Document.Decode
import TinyLisp.Proofs.Settings.Entries
import TinyLisp.Proofs.Settings.Layering
import TinyLisp.Proofs.Node.Depth
import TinyLisp.Proofs.Node.Malformed
import TinyLisp.Proofs.Node.Alphabet
import TinyLisp.Proofs.Evaluation.Composition
import TinyLisp.Proofs.Node.Outline
import TinyLisp.Proofs.Command.Run
import TinyLisp.Proofs.Text.Quoted
import TinyLisp.Proofs.Service.Messages
import TinyLisp.Proofs.Token.Boundary
import TinyLisp.Proofs.Command.Listing
import TinyLisp.Proofs.Node.Literal
import TinyLisp.Proofs.Node.Cursor
import TinyLisp.Proofs.Duration
