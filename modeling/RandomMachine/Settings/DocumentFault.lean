import RandomMachine.Decimal.Layout
import RandomMachine.Json.Value
import RandomMachine.Text.Quoted

/-!
# Faults of a settings document

A document is refused for its form or for what it holds. What it holds is described by the value
that was found and the kind that was expected.
-/

namespace RandomMachine

/-- The members of a settings document. -/
inductive SettingsField
  | programSize
  | instructionCount
  | seed
  | dram
  | stackLength
  | stackOverflow
  | reportRuntime
  deriving DecidableEq, Repr

namespace SettingsField

/-- All members, in the order in which they are declared. -/
def all : List SettingsField :=
  [.programSize, .instructionCount, .seed, .dram, .stackLength, .stackOverflow, .reportRuntime]

/-- Key of a member. -/
def key : SettingsField → String
  | .programSize => "program_size"
  | .instructionCount => "instruction_count"
  | .seed => "seed"
  | .dram => "dram"
  | .stackLength => "stack_length"
  | .stackOverflow => "stack_overflow"
  | .reportRuntime => "report_runtime"

end SettingsField

/-- The kind of value that a document should hold at some place. -/
inductive ExpectedKind
  | size
  | count
  | boolean
  | unit
  | document
  deriving DecidableEq, Repr

/-- Why a document was not read. -/
inductive DocumentFault
  | form (fault : Json.FormFault)
  | unknownField (key : String)
  | duplicateField (field : SettingsField)
  | unknownVariant (name : String) (expected : List String)
  | wrongType (found : Json.Value) (expected : ExpectedKind)
  | outOfRange (value : Int) (expected : ExpectedKind)
  deriving DecidableEq, Repr

/-- Numbers that are no integers are quoted by position unless they are very large or small. -/
def DocumentFault.numberLayout : Decimal.Layout := ⟨.even, some (-5, 16), true⟩

/-- Description of a value that was found. -/
def DocumentFault.describe : Json.Value → String
  | .null => "null"
  | .boolean value => "boolean `" ++ (if value then "true" else "false") ++ "`"
  | .integer value => "integer `" ++ Numeral.signed value ++ "`"
  | .number value => "floating point `" ++ numberLayout.write value ++ "`"
  | .text value => "string " ++ Text.quoted value
  | .sequence => "sequence"
  | .map => "map"

/-- Description of an expected kind. -/
def ExpectedKind.describe : ExpectedKind → String
  | .size => "usize"
  | .count => "u64"
  | .boolean => "a boolean"
  | .unit => "unit"
  | .document => "struct GeneratorConfig"

/-- A list of names to choose from. -/
def DocumentFault.alternatives (names : List String) : String :=
  match names.map fun name => "`" ++ name ++ "`" with
  | [first, second] => first ++ " or " ++ second
  | quoted => "one of " ++ ", ".intercalate quoted

/-- Wording of a fault of a document. -/
def DocumentFault.message : DocumentFault → String
  | .form .truncated => "the document ends too early"
  | .form .malformed => "the document is not well formed"
  | .unknownField key =>
    "unknown field `" ++ key ++ "`, expected " ++
      alternatives (SettingsField.all.map SettingsField.key)
  | .duplicateField field => "duplicate field `" ++ field.key ++ "`"
  | .unknownVariant name expected =>
    "unknown variant `" ++ name ++ "`, expected " ++ alternatives expected
  | .wrongType found expected =>
    "invalid type: " ++ describe found ++ ", expected " ++ expected.describe
  | .outOfRange value expected =>
    "invalid value: " ++ describe (.integer value) ++ ", expected " ++ expected.describe

end RandomMachine
