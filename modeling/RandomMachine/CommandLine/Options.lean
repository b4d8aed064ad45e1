import RandomMachine.Settings.Document

/-!
# Command line options

Arguments are read from left to right. An option has a long name and may have a letter; its value
is attached or is the next argument, which then must not look like an option. Letters without a
value can be joined. Nothing may be given twice, and there are no arguments besides options.
-/

namespace RandomMachine.CommandLine

/-- Options that take a value. -/
inductive ValueOption
  | seed
  | document
  | output
  | programSize
  | budget
  deriving DecidableEq, Repr

/-- Options without a value. -/
inductive Switch
  | realDram
  | checkedStack
  | listing
  | report
  deriving DecidableEq, Repr

/-- What an option name leads to. -/
inductive OptionKind
  | value (option : ValueOption)
  | switch (switch : Switch)
  | version
  | help
  deriving DecidableEq, Repr

/-- Long names. -/
def longNames : List (String × OptionKind) :=
  [("seed", .value .seed), ("config", .value .document), ("output", .value .output),
    ("program-size", .value .programSize), ("instructions", .value .budget),
    ("real-dram", .switch .realDram), ("checked-stack", .switch .checkedStack),
    ("listing", .switch .listing), ("stats", .switch .report), ("version", .version),
    ("help", .help)]

/-- Letters. -/
def letters : List (Char × OptionKind) :=
  [('s', .value .seed), ('c', .value .document), ('o', .value .output), ('V', .version),
    ('h', .help)]

/-- The options of a command line. Specification, section E13. -/
structure Options where
  seed : Option UInt64 := none
  /-- Path of the settings document. -/
  document : Option String := none
  /-- Path of the emitted source. -/
  output : Option String := none
  programSize : Option UInt64 := none
  budget : Option UInt64 := none
  realDram : Bool := false
  checkedStack : Bool := false
  listing : Bool := false
  report : Bool := false
  deriving DecidableEq, Repr

/-- What a command line asks for. -/
inductive Request
  | generate (options : Options)
  | version
  | help
  deriving DecidableEq, Repr

/-- Why a command line is refused. -/
inductive UsageFault
  | unknown (argument : String)
  | repeated (name : String)
  | noValue (name : String)
  | badValue (name value : String)
  | extraValue (name : String)
  deriving DecidableEq, Repr

/-- Wording of a refusal. -/
def UsageFault.message : UsageFault → String
  | .unknown argument => "unexpected argument " ++ argument
  | .repeated name => name ++ " is given more than once"
  | .noValue name => name ++ " needs a value"
  | .badValue name value => name ++ " cannot have the value " ++ value
  | .extraValue name => name ++ " takes no value"

/-- Reads a number of 64 bits: decimal digits, with an optional plus sign. -/
def readNumber? (text : String) : Option UInt64 :=
  let digits := match text.toList with
    | '+' :: rest => rest
    | digits => digits
  if digits.isEmpty || !digits.all Char.isDigit then none
  else
    let value := Nat.ofDigitChars 10 digits 0
    if value < 0x10000000000000000 then some (.ofNat value) else none

/-- Reads a path: any text but the empty one. -/
def readPath? (text : String) : Option String := if text.isEmpty then none else some text

/-- Stores a value that has not been given before. -/
def setOnce {α : Type} (name value : String) (read? : String → Option α) (old : Option α) :
    Except UsageFault (Option α) :=
  match old, read? value with
  | some _, _ => .error (.repeated name)
  | none, none => .error (.badValue name value)
  | none, some value => .ok (some value)

/-- Sets a switch that has not been given before. -/
def switchOnce (name : String) (old : Bool) : Except UsageFault Bool :=
  if old then .error (.repeated name) else .ok true

namespace Options

/-- Stores the value of an option. -/
def setValue (options : Options) (name value : String) :
    ValueOption → Except UsageFault Options
  | .seed => (setOnce name value readNumber? options.seed).map fun seed => { options with seed }
  | .document => (setOnce name value readPath? options.document).map fun document =>
    { options with document }
  | .output => (setOnce name value readPath? options.output).map fun output =>
    { options with output }
  | .programSize => (setOnce name value readNumber? options.programSize).map fun programSize =>
    { options with programSize }
  | .budget => (setOnce name value readNumber? options.budget).map fun budget =>
    { options with budget }

/-- Sets a switch. -/
def setSwitch (options : Options) (name : String) : Switch → Except UsageFault Options
  | .realDram => (switchOnce name options.realDram).map fun realDram =>
    { options with realDram }
  | .checkedStack => (switchOnce name options.checkedStack).map fun checkedStack =>
    { options with checkedStack }
  | .listing => (switchOnce name options.listing).map fun listing => { options with listing }
  | .report => (switchOnce name options.report).map fun report => { options with report }

end Options

/-- How the reading of an argument ends: with options and perhaps an option that waits for its
value, or with a request that needs no further argument. -/
inductive ArgumentResult
  | continue (options : Options) (pending : Option (String × ValueOption))
  | finish (request : Request)

/-- Whether an argument looks like an option. A lone dash does not. -/
def isOption (argument : String) : Bool :=
  match argument.toList with
  | '-' :: _ :: _ => true
  | _ => false

/-- Reads an argument with a long name, given without its dashes. -/
def readLong (options : Options) (text : List Char) : Except UsageFault ArgumentResult :=
  let name := String.ofList (text.takeWhile (· != '='))
  let attached := match text.dropWhile (· != '=') with
    | _ :: value => some (String.ofList value)
    | [] => none
  match longNames.lookup name, attached with
  | none, _ => .error (.unknown name)
  | some (.value option), some value => do
    return .continue (← options.setValue name value option) none
  | some (.value option), none => .ok (.continue options (some (name, option)))
  | some _, some _ => .error (.extraValue name)
  | some (.switch switch), none => do
    return .continue (← options.setSwitch name switch) none
  | some .version, none => .ok (.finish .version)
  | some .help, none => .ok (.finish .help)

/-- Reads the letters of an argument, given without its dash. A letter that takes a value takes the
rest of the argument, less an equals sign in front. -/
def readLetters (options : Options) : (text : List Char) → Except UsageFault ArgumentResult
  | [] => .ok (.continue options none)
  | letter :: rest =>
    let name := letter.toString
    match letters.lookup letter, rest with
    | none, _ => .error (.unknown name)
    | some (.value option), [] => .ok (.continue options (some (name, option)))
    | some (.value option), '=' :: value => do
      return .continue (← options.setValue name (String.ofList value) option) none
    | some (.value option), value => do
      return .continue (← options.setValue name (String.ofList value) option) none
    | some (.switch switch), rest => do
      readLetters (← options.setSwitch name switch) rest
    | some .version, _ => .ok (.finish .version)
    | some .help, _ => .ok (.finish .help)

/-- Reads one argument that no option waits for. -/
def readArgument (options : Options) (argument : String) : Except UsageFault ArgumentResult :=
  match argument.toList with
  | '-' :: '-' :: text => readLong options text
  | '-' :: letter :: rest => readLetters options (letter :: rest)
  | _ => .error (.unknown argument)

/-- Reads arguments into options. After two lone dashes nothing may follow. -/
def readArguments (options : Options) (pending : Option (String × ValueOption)) :
    List String → Except UsageFault Request
  | [] =>
    match pending with
    | some (name, _) => .error (.noValue name)
    | none => .ok (.generate options)
  | argument :: rest =>
    match pending with
    | some (name, option) =>
      if isOption argument then .error (.noValue name)
      else do readArguments (← options.setValue name argument option) none rest
    | none =>
      if argument = "--" then
        match rest with
        | [] => .ok (.generate options)
        | extra :: _ => .error (.unknown extra)
      else
        match readArgument options argument with
        | .error fault => .error fault
        | .ok (.finish request) => .ok request
        | .ok (.continue options pending) => readArguments options pending rest

/-- The request of a command line. -/
def Request.ofArguments (arguments : List String) : Except UsageFault Request :=
  readArguments {} none arguments

namespace Options

/-- Puts the options over settings. -/
def override (options : Options) (settings : Settings) : Settings where
  programSize := options.programSize.getD settings.programSize
  budget := options.budget.getD settings.budget
  seed := options.seed <|> settings.seed
  dram := if options.realDram then .buffer else settings.dram
  stackLength := settings.stackLength
  stackOverflow := if options.checkedStack then .fault else settings.stackOverflow
  reportRuntime := settings.reportRuntime

/-- Options that are not given change nothing. -/
theorem override_empty (settings : Settings) : ({} : Options).override settings = settings := rfl

/-- Settings of the options and of the text of a document, if there is one. The document has to
meet all conditions by itself. -/
def settings (options : Options) (document : Option String) : Except Error Settings := do
  let base ← match document with
    | some text => Settings.ofDocument text
    | none => .ok {}
  let settings := options.override base
  settings.validate
  return settings

end Options
end RandomMachine.CommandLine
