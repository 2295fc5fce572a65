import CalcFrontEnd.Command.Arguments
import CalcFrontEnd.Command.Run
import CalcFrontEnd.FrontEnd
import CalcFrontEnd.Main
import CalcFrontEnd.Proofs.FrontEnd.Agreement
import CalcFrontEnd.Proofs.Lexis.LineNumber
import CalcFrontEnd.Proofs.Lexis.Partition
import CalcFrontEnd.Proofs.Lexis.Printing
import CalcFrontEnd.Proofs.Recognizer.Acceptance
import CalcFrontEnd.Proofs.Recognizer.Faults
import CalcFrontEnd.Proofs.Recognizer.Prefix
import CalcFrontEnd.Proofs.Recognizer.Record
import CalcFrontEnd.Proofs.Stream.RoundTrip
import CalcFrontEnd.Proofs.Lexis.Maximal
import CalcFrontEnd.Proofs.Lexis.LongestNumber
import CalcFrontEnd.Proofs.Lexis.Walk
import CalcFrontEnd.Proofs.Stream.Entries
import CalcFrontEnd.Proofs.Disk.ReadBack
import CalcFrontEnd.Proofs.Command.Pipeline
import CalcFrontEnd.Proofs.Recognizer.Nesting
import CalcFrontEnd.Proofs.Recognizer.Concatenation
import CalcFrontEnd.Proofs.Recognizer.Entry
import CalcFrontEnd.Proofs.Recognizer.Dependence
import CalcFrontEnd.Proofs.Recognizer.Account
import CalcFrontEnd.Proofs.Text.Trim
import CalcFrontEnd.Proofs.FrontEnd.Display
import CalcFrontEnd.Proofs.Stream.NormalForm
import CalcFrontEnd.Proofs.Command.Redirection
import CalcFrontEnd.Proofs.Lexis.CarriageReturn
import CalcFrontEnd.Proofs.Lexis.Cursor
import CalcFrontEnd.Proofs.Recognizer.Bookkeeping
import CalcFrontEnd.Proofs.Recognizer.Steps
import CalcFrontEnd.Proofs.Recognizer.Termination
