import SyntaxInspector.Host

/-! # Drawing graphs with Graphviz

A Graphviz program turns a graph in the DOT language, given as its input, into an image file.  It is
always waited for once it has been started; a failure it reports counts before a failure to give it
the whole graph.

* `ImageFormat` is a format of images;
* `DrawError` says why there is no image;
* `drawImage` runs the program. -/

namespace SyntaxInspector

variable {m : Type → Type} [Monad m]

/-- A format of images. -/
inductive ImageFormat where
  | svg
  | png
  | pdf
  deriving DecidableEq, Repr

/-- The name of the format. -/
def ImageFormat.name : ImageFormat → String
  | .svg => "svg"
  | .png => "png"
  | .pdf => "pdf"

/-- Why there is no image. -/
inductive DrawError where
  /-- The program does not start. -/
  | notStarted (program : String) (cause : IoError)
  /-- The program cannot be waited for. -/
  | lost (cause : IoError)
  /-- The program fails and says why. -/
  | complained (complaint : String)
  /-- The program fails without a word. -/
  | failed (program : String) (status : ExitStatus)
  /-- The program succeeds without having taken the whole graph. -/
  | notTaken (program : String) (cause : IoError)
  deriving DecidableEq, Repr

/-- What is wrong. -/
def DrawError.message : DrawError → String
  | .notStarted program cause => "failed to run `" ++ program ++ "`: " ++ cause.message
  | .lost cause => cause.message
  | .complained complaint => complaint
  | .failed program status => "`" ++ program ++ "` exited with " ++ status.describe
  | .notTaken program cause => "failed to write DOT to `" ++ program ++ "`: " ++ cause.message

/-- The outcome of a program that has been given the graph (`given`) and has ended. -/
def judgeProgram (program : String) (given : Except IoError Unit) (ended : Ended) :
    Except DrawError Unit :=
  if ended.status.isSuccess then
    match given with
    | .ok () => .ok ()
    | .error e => .error (.notTaken program e)
  else
    let complaint := Text.trim (Text.decodeLossy ended.errorOutput)
    if complaint.isEmpty then .error (.failed program ended.status)
    else .error (.complained complaint)

/-- The arguments that ask a Graphviz program for an image file. -/
def imageArguments (format : ImageFormat) (output : String) : List String :=
  ["-T" ++ format.name, "-o", output]

/-- Has a Graphviz program draw a graph into a file. -/
def drawImage (host : Host m) (program : String) (format : ImageFormat) (output dot : String) :
    m (Except DrawError Unit) := do
  match ← (host.startProgram program (imageArguments format output)).run with
  | .error e => return .error (.notStarted program e)
  | .ok child =>
    let given ← (child.feed (Text.encode dot)).run
    match ← child.wait.run with
    | .error e => return .error (.lost e)
    | .ok ended => return judgeProgram program given ended

end SyntaxInspector
