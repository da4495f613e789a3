import MonkeyTokens.CommandLine.Program
import MonkeyTokens.Cursor
import MonkeyTokens.Directory
import MonkeyTokens.Lexer
import MonkeyTokens.Log.Filter
import MonkeyTokens.Log.Line
import MonkeyTokens.Main
import MonkeyTokens.Proofs.CommandLine.Launch
import MonkeyTokens.Proofs.Lexer.Concatenation
import MonkeyTokens.Proofs.Lexer.Deletion
import MonkeyTokens.Proofs.Lexer.Isolation
import MonkeyTokens.Proofs.Lexer.Ledger
import MonkeyTokens.Proofs.Lexer.Lines
import MonkeyTokens.Proofs.Lexer.Peeking
import MonkeyTokens.Proofs.Lexer.Polling
import MonkeyTokens.Proofs.Lexer.Progress
import MonkeyTokens.Proofs.Lexer.Queue
import MonkeyTokens.Proofs.Lexer.ReadAhead
import MonkeyTokens.Proofs.Lexer.StampOrder
import MonkeyTokens.Proofs.Lexer.Stamps
import MonkeyTokens.Proofs.Reader.Lines
import MonkeyTokens.Proofs.Session.Agreement
import MonkeyTokens.Proofs.Session.CutOff
import MonkeyTokens.Proofs.Session.EventLog
import MonkeyTokens.Proofs.Session.ReadBack
import MonkeyTokens.Proofs.Session.ReaderLog
import MonkeyTokens.Proofs.Source.Buffer
import MonkeyTokens.Proofs.Source.Decoding
import MonkeyTokens.Proofs.Source.KeptFailure
import MonkeyTokens.Proofs.Source.Outcome
import MonkeyTokens.Proofs.Source.Placement
import MonkeyTokens.Proofs.Source.Resumption
import MonkeyTokens.Proofs.Source.RoundTrip
import MonkeyTokens.Proofs.Source.Watched
import MonkeyTokens.Reader.Lines
import MonkeyTokens.Session
import MonkeyTokens.Source.Answers
import MonkeyTokens.Source.Decoder
import MonkeyTokens.Source.Text
