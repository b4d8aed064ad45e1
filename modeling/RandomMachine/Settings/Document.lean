import RandomMachine.Error

/-!
# Settings documents

Settings as a JSON document: an object whose members may stand in any order, or an array of the
members in the order of their declaration. Absent members keep their defaults. The document is read
in one forward pass, and the first fault met decides.
-/

namespace RandomMachine

namespace SettingsDocument

open Json (skipBlanks readColon readWord readString readNumber readValue)

/-- A result of the form layer. -/
def liftForm {α : Type} : Except Json.FormFault α → Except DocumentFault α
  | .ok value => .ok value
  | .error fault => .error (.form fault)

/-- The fault of a value that is not of the expected kind, or of its own form. -/
def wrongType (expected : ExpectedKind) (text : List Char) : DocumentFault :=
  match readValue text with
  | .ok (found, _) => .wrongType found expected
  | .error fault => .form fault

/-- Reads an unsigned number of 64 bits. -/
def readCount (expected : ExpectedKind) (text : List Char) :
    Except DocumentFault (UInt64 × List Char) :=
  let text := skipBlanks text
  match readValue text with
  | .ok (.integer value, rest) =>
    if value < 0 then .error (.outOfRange value expected) else .ok (.ofNat value.toNat, rest)
  | .ok (found, _) => .error (.wrongType found expected)
  | .error fault => .error (.form fault)

/-- Reads an unsigned number of 64 bits, or none. -/
def readOptionalCount (text : List Char) : Except DocumentFault (Option UInt64 × List Char) :=
  match readValue (skipBlanks text) with
  | .ok (.null, rest) => .ok (none, rest)
  | _ => (readCount .count text).map fun (value, rest) => (some value, rest)

/-- Reads a truth value. -/
def readBoolean (text : List Char) : Except DocumentFault (Bool × List Char) :=
  match readValue (skipBlanks text) with
  | .ok (.boolean value, rest) => .ok (value, rest)
  | .ok (found, _) => .error (.wrongType found .boolean)
  | .error fault => .error (.form fault)

/-- The choice that goes by a name. -/
def choose {α : Type} (choices : List (String × α)) (name : String) : Except DocumentFault α :=
  match choices.lookup name with
  | some choice => .ok choice
  | none => .error (.unknownVariant name (choices.map Prod.fst))

/-- Reads the name of a choice after its opening quote. -/
def readName {α : Type} (choices : List (String × α)) (text : List Char) :
    Except DocumentFault (α × List Char) := do
  let (name, rest) ← liftForm (readString text)
  return (← choose choices name, rest)

/-- Reads the null that stands for the content of a choice. -/
def readUnit (text : List Char) : Except DocumentFault (List Char) :=
  match readValue (skipBlanks text) with
  | .ok (.null, rest) => .ok rest
  | .ok (found, _) => .error (.wrongType found .unit)
  | .error fault => .error (.form fault)

/-- Reads the closing bracket of an object that holds nothing more. -/
def readClose (text : List Char) : Except DocumentFault (List Char) :=
  match skipBlanks text with
  | [] => .error (.form .truncated)
  | c :: rest => if c = '}' then .ok rest else .error (.form .malformed)

/-- Reads a choice after the opening bracket of an object: its name as the only key, with null. -/
def readTagged {α : Type} (choices : List (String × α)) (text : List Char) :
    Except DocumentFault (α × List Char) :=
  match skipBlanks text with
  | [] => .error (.form .truncated)
  | '"' :: rest => do
    let (choice, rest) ← readName choices rest
    let rest ← liftForm (readColon rest)
    let rest ← readUnit rest
    return (choice, ← readClose rest)
  | _ => .error (.form .malformed)

/-- Reads a choice: its name, or an object with its name as the only key. -/
def readChoice {α : Type} (choices : List (String × α)) (text : List Char) :
    Except DocumentFault (α × List Char) :=
  match skipBlanks text with
  | [] => .error (.form .truncated)
  | c :: rest =>
    if c = '"' then readName choices rest
    else if c = '{' then readTagged choices rest
    else .error (.form .malformed)

/-- Names of the sources of memory content; one of them has two. -/
def dramChoices : List (String × DramMode) :=
  [("Simulated", .simulated), ("Buffer", .buffer), ("RAM", .buffer)]

/-- Names of the overflow policies. -/
def overflowChoices : List (String × OverflowPolicy) :=
  [("Unchecked", .unchecked), ("Fault", .fault)]

/-- Reads the value of a member into settings. -/
def readMember (field : SettingsField) (settings : Settings) (text : List Char) :
    Except DocumentFault (Settings × List Char) :=
  match field with
  | .programSize => (readCount .size text).map fun (programSize, rest) =>
    ({ settings with programSize }, rest)
  | .instructionCount => (readCount .count text).map fun (budget, rest) =>
    ({ settings with budget }, rest)
  | .seed => (readOptionalCount text).map fun (seed, rest) => ({ settings with seed }, rest)
  | .dram => (readChoice dramChoices text).map fun (dram, rest) => ({ settings with dram }, rest)
  | .stackLength => (readCount .size text).map fun (stackLength, rest) =>
    ({ settings with stackLength }, rest)
  | .stackOverflow => (readChoice overflowChoices text).map fun (stackOverflow, rest) =>
    ({ settings with stackOverflow }, rest)
  | .reportRuntime => (readBoolean text).map fun (reportRuntime, rest) =>
    ({ settings with reportRuntime }, rest)

/-- Reads a key after its opening quote: a member that has not been seen before. -/
def readKey (seen : List SettingsField) (text : List Char) :
    Except DocumentFault (SettingsField × List Char) := do
  let (key, rest) ← liftForm (readString text)
  match SettingsField.all.find? (·.key == key) with
  | none => .error (.unknownField key)
  | some field => if field ∈ seen then .error (.duplicateField field) else .ok (field, rest)

/-- What comes next in an object: the text after the opening quote of a key, or after the closing
bracket. -/
inductive ObjectNext
  | key (rest : List Char)
  | close (rest : List Char)

/-- Looks for the next key of an object; all but the first one follow a comma. -/
def nextKey (first : Bool) (text : List Char) : Except DocumentFault ObjectNext :=
  match skipBlanks text with
  | [] => .error (.form .truncated)
  | c :: rest =>
    if c = '}' then .ok (.close rest)
    else if first then
      if c = '"' then .ok (.key rest) else .error (.form .malformed)
    else if c = ',' then
      match skipBlanks rest with
      | [] => .error (.form .truncated)
      | c :: rest => if c = '"' then .ok (.key rest) else .error (.form .malformed)
    else .error (.form .malformed)

/-- Reads members of an object into settings. Every turn sees one more member, so there are no more
turns than members and one to close the object. -/
def readMembers : (turns : Nat) → (seen : List SettingsField) → Settings → List Char →
    Except DocumentFault (Settings × List Char)
  | 0, _, _, _ => .error (.form .malformed)
  | turns + 1, seen, settings, text => do
    match ← nextKey seen.isEmpty text with
    | .close rest => .ok (settings, rest)
    | .key rest =>
      let (field, rest) ← readKey seen rest
      let rest ← liftForm (readColon rest)
      let (settings, rest) ← readMember field settings rest
      readMembers turns (field :: seen) settings rest

/-- Looks for the next element of an array: its text, or nothing if the array ends here. -/
def nextElement (first : Bool) (text : List Char) : Except DocumentFault (Option (List Char)) :=
  match skipBlanks text with
  | [] => .error (.form .truncated)
  | c :: rest =>
    if c = ']' then .ok none
    else if first then .ok (some (c :: rest))
    else if c = ',' then
      match skipBlanks rest with
      | [] => .error (.form .truncated)
      | c :: rest => if c = ']' then .error (.form .malformed) else .ok (some (c :: rest))
    else .error (.form .malformed)

/-- Reads the elements of an array into the given members, one after another, up to the closing
bracket. An array has no more elements than there are members. -/
def readElements (first : Bool) : (fields : List SettingsField) → Settings → List Char →
    Except DocumentFault (Settings × List Char)
  | [], settings, text =>
    match skipBlanks text with
    | [] => .error (.form .truncated)
    | c :: rest => if c = ']' then .ok (settings, rest) else .error (.form .malformed)
  | field :: fields, settings, text => do
    match ← nextElement first text with
    | none => .ok (settings, (skipBlanks text).drop 1)
    | some text =>
      let (settings, rest) ← readMember field settings text
      readElements false fields settings rest

/-- Reads settings. -/
def readSettings (text : List Char) : Except DocumentFault (Settings × List Char) :=
  let text := skipBlanks text
  match text with
  | '[' :: rest => readElements true SettingsField.all {} rest
  | '{' :: rest => readMembers (SettingsField.all.length + 1) [] {} rest
  | text => .error (wrongType .document text)

/-- Reads a whole document; only blanks may follow the settings. -/
def read (text : String) : Except DocumentFault Settings := do
  let (settings, rest) ← readSettings text.toList
  if (skipBlanks rest).isEmpty then .ok settings else .error (.form .malformed)

end SettingsDocument

/-- Settings of a document that meet all conditions. Specification, section E7. -/
def Settings.ofDocument (text : String) : Except Error Settings :=
  match SettingsDocument.read text with
  | .error fault => .error (.document fault)
  | .ok settings => do
    settings.validate
    return settings

end RandomMachine
