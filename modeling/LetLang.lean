import LetLang.Folder
import LetLang.Main
import LetLang.Parse.Session
import LetLang.Scan.Session
import LetLang.Proofs.Parse.Lookahead
import LetLang.Proofs.Parse.Renaming
import LetLang.Proofs.Parse.Recovery
import LetLang.Proofs.Parse.RoundTrip
import LetLang.Proofs.Diagnostic.Chain
import LetLang.Proofs.Parse.Obstacle
import LetLang.Proofs.Scan.Decomposition
import LetLang.Proofs.Parse.Blocks
import LetLang.Proofs.Parse.Accounting
import LetLang.Proofs.Parse.Unfinished
import LetLang.Proofs.Parse.ParallelStatement
import LetLang.Proofs.Parse.EndToken
import LetLang.Proofs.Parse.Fatal
import LetLang.Proofs.Parse.Concatenation
import LetLang.Proofs.Parse.Formula
import LetLang.Proofs.Shell.Transcript
import LetLang.Proofs.Json.Layout
import LetLang.Proofs.Scan.LineEnds
import LetLang.Proofs.Shell.Survival
import LetLang.Proofs.Report
import LetLang.Proofs.Source
import LetLang.Proofs.Tree.Record
import LetLang.Proofs.Views
import LetLang.Proofs.Scan.Delimiter
import LetLang.Proofs.Scan.Sharing
import LetLang.Proofs.Parse.Legible
import LetLang.Proofs.Parse.Extent
import LetLang.Proofs.Parse.Tighter
import LetLang.Proofs.Numeral.Decimal
