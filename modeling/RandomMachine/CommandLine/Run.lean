import RandomMachine.CommandLine.Options
import RandomMachine.Source.Sink
import RandomMachine.Tally.Report

/-!
# Running a command line

What a command line does, in terms of a host that reads and saves files and takes output. The
listing comes before the source, and the report of the tally after it. The source is emitted into
memory and handed to the host at once; how the host passes it on in parts is its own affair.
-/

namespace RandomMachine.CommandLine

/-- What the program needs from its surroundings. A refusal comes with the words of the system. -/
structure Host (m : Type → Type) where
  /-- The bytes of a file. -/
  load : (path : String) → m (Except String ByteArray)
  /-- Replaces a file by a text. -/
  save : (path text : String) → m (Except String Unit)
  /-- Writes to the standard output. -/
  print : (text : String) → m Unit
  /-- Writes to the error output. -/
  complain : (text : String) → m Unit
  /-- A seed that nothing fixes. -/
  entropy : m UInt64

/-- Name of the program. -/
def programName : String := "rxgen"

/-- Version of the program. -/
def programVersion : String := "0.3.0"

/-- What the options are. -/
def usage : String :=
  "Usage: " ++ programName ++ " [OPTIONS]\n" ++
    String.join (longNames.map fun (name, kind) =>
      "  --" ++ name ++ (match kind with | .value _ => " <VALUE>" | _ => "") ++ "\n")

/-- The text of a settings document. -/
def documentText (content : Except String ByteArray) : Except Error String :=
  match content with
  | .error reason => .error (.transfer (.system reason))
  | .ok bytes =>
    match String.fromUTF8? bytes with
    | some text => .ok text
    | none => .error (.transfer (.system "stream did not contain valid UTF-8"))

variable {m : Type → Type} [Monad m]

/-- Settings of a request, with the document that it names. -/
def loadSettings (host : Host m) (options : Options) : m (Except Error Settings) :=
  match options.document with
  | none => return options.settings none
  | some path => do
    match documentText (← host.load path) with
    | .error error => return .error error
    | .ok text => return options.settings (some text)

/-- Saves or prints the source. -/
def deliver (host : Host m) (output : Option String) (source : String) :
    m (Except Error Unit) :=
  match output with
  | none => do
    host.print source
    return .ok ()
  | some path => do
    match ← host.save path source with
    | .error reason => return .error (.transfer (.system reason))
    | .ok () => return .ok ()

/-- Draws and emits a program. Specification, section E13. -/
def generate (host : Host m) (options : Options) : m (Except Error Unit) := do
  match ← loadSettings host options with
  | .error error => return .error error
  | .ok settings =>
    let seed ← match settings.seed with
      | some seed => pure seed
      | none => host.entropy
    let program := Program.ofSeed seed settings
    if options.listing then host.complain program.listing
    match program.emitText settings with
    | .error error => return .error error
    | .ok (tally, source) =>
      match ← deliver host options.output source with
      | .error error => return .error error
      | .ok () =>
        if options.report then host.complain (tally.report [])
        return .ok ()

/-- Runs a command line. The result is the exit code: two for a command line that cannot be
understood, one for any other failure. -/
def run (host : Host m) (arguments : List String) : m UInt32 :=
  match Request.ofArguments arguments with
  | .error fault => do
    host.complain (programName ++ ": " ++ fault.message ++ "\n" ++ usage)
    return 2
  | .ok .version => do
    host.print (programName ++ " " ++ programVersion ++ "\n")
    return 0
  | .ok .help => do
    host.print usage
    return 0
  | .ok (.generate options) => do
    match ← generate host options with
    | .ok () => return 0
    | .error error =>
      host.complain (programName ++ ": " ++ error.message ++ "\n")
      return 1

end RandomMachine.CommandLine
