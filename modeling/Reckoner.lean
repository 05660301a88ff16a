import Reckoner.CommandLine.Files
import Reckoner.Main
import Reckoner.Proofs.Numeral.Layout
import Reckoner.Proofs.Token.Layout
import Reckoner.Proofs.Token.Gap
import Reckoner.Proofs.Display.Layout
import Reckoner.Proofs.Display.ReadBack
import Reckoner.Proofs.Binary64.Overflow
import Reckoner.Proofs.Reading
import Reckoner.Proofs.Expression
import Reckoner.Proofs.Evaluation
import Reckoner.Proofs.Session.History
import Reckoner.Proofs.Session.Calculate
import Reckoner.Proofs.Session.InPlace
import Reckoner.Proofs.Console.Clock
import Reckoner.Proofs.Text.Utf8
import Reckoner.Proofs.Console.Blocks
import Reckoner.Proofs.Console.Pieces
import Reckoner.Proofs.Console.Operations
import Reckoner.Proofs.Console.Ending
import Reckoner.Proofs.CommandLine.Agreement
import Reckoner.Proofs.Session.Result
import Reckoner.Proofs.Session.Finite
import Reckoner.Proofs.Numeral.Evident
import Reckoner.Proofs.Display.Entry
import Reckoner.Proofs.Binary64.Fields
import Reckoner.Proofs.Binary64.Nearest
import Reckoner.Proofs.Decimal.Digits
import Reckoner.Proofs.Display.RoundTrip
import Reckoner.Proofs.Display.Canonical
import Reckoner.Proofs.Numeral.Convention
import Reckoner.Proofs.Numeral.Digits
import Reckoner.Proofs.Numeral.Exchange
import Reckoner.Proofs.Numeral.Agreement
import Reckoner.Proofs.Numeral.Scientific
import Reckoner.Proofs.Typed
import Reckoner.Proofs.Token.Digits
import Reckoner.Proofs.Console.Isolation
import Reckoner.Proofs.Positions
import Reckoner.Proofs.TypedRow
import Reckoner.Proofs.Token.Neighbours
import Reckoner.Proofs.Display.Copied
import Reckoner.Proofs.Display.Retyped
import Reckoner.Proofs.Evaluation.Appended
import Reckoner.Proofs.Session.Cycle
import Reckoner.Proofs.Display.Budget
import Reckoner.Proofs.Display.Whole
import Reckoner.Proofs.Token.Normal
