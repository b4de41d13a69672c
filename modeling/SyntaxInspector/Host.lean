import SyntaxInspector.Output.Sink
import SyntaxInspector.Review.Client
import SyntaxInspector.Source.Cache

/-! # What a run needs from outside

Everything a run does besides computing goes through a `Host`: reading files and standard input,
writing, loading grammars and parsing with them, starting programs, and sending requests.  The
operations may have effects in any monad. -/

namespace SyntaxInspector

/-- How a program ended. -/
inductive ExitStatus where
  | exited (code : Nat)
  | killed (signal : Nat)
  deriving DecidableEq, Repr

namespace ExitStatus

/-- The name of a signal, in brackets behind a space; the signals for free use have none. -/
def signalName : Nat → String
  | 1 => " (SIGHUP)"
  | 2 => " (SIGINT)"
  | 3 => " (SIGQUIT)"
  | 4 => " (SIGILL)"
  | 5 => " (SIGTRAP)"
  | 6 => " (SIGABRT)"
  | 7 => " (SIGBUS)"
  | 8 => " (SIGFPE)"
  | 9 => " (SIGKILL)"
  | 10 => " (SIGUSR1)"
  | 11 => " (SIGSEGV)"
  | 12 => " (SIGUSR2)"
  | 13 => " (SIGPIPE)"
  | 14 => " (SIGALRM)"
  | 15 => " (SIGTERM)"
  | 16 => " (SIGSTKFLT)"
  | 17 => " (SIGCHLD)"
  | 18 => " (SIGCONT)"
  | 19 => " (SIGSTOP)"
  | 20 => " (SIGTSTP)"
  | 21 => " (SIGTTIN)"
  | 22 => " (SIGTTOU)"
  | 23 => " (SIGURG)"
  | 24 => " (SIGXCPU)"
  | 25 => " (SIGXFSZ)"
  | 26 => " (SIGVTALRM)"
  | 27 => " (SIGPROF)"
  | 28 => " (SIGWINCH)"
  | 29 => " (SIGIO)"
  | 30 => " (SIGPWR)"
  | 31 => " (SIGSYS)"
  | _ => ""

/-- The status as it is shown. -/
def describe : ExitStatus → String
  | exited code => "exit status: " ++ toString code
  | killed signal => "signal: " ++ toString signal ++ signalName signal

/-- What others get to see of the status: of an exit code only the low byte. -/
def reported : ExitStatus → ExitStatus
  | exited code => exited (code % 256)
  | killed signal => killed signal

/-- The program ended by itself and reports no failure. -/
def isSuccess (s : ExitStatus) : Bool := s == exited 0

end ExitStatus

/-- What is known of a program that has ended. -/
structure Ended where
  status : ExitStatus
  errorOutput : List UInt8
  deriving DecidableEq, Repr

/-- A program that has been started: it can be given input, and waited for. -/
structure Child (m : Type → Type) where
  feed : List UInt8 → ExceptT IoError m Unit
  wait : ExceptT IoError m Ended

/-- The operations a run may use. -/
structure Host (m : Type → Type) where
  readFile : String → ExceptT IoError m (List UInt8)
  readInput : ExceptT IoError m (List UInt8)
  /-- Creates a file, or empties it. -/
  createFile : String → ExceptT IoError m (Sink m)
  standardOutput : Sink m
  grammars : Grammars m
  startProgram : String → List String → ExceptT IoError m (Child m)
  /-- Sends a request; there may be no reply. -/
  send : HttpRequest → m (Option HttpReply)

end SyntaxInspector
