import RandomMachine.Settings.Basic
import RandomMachine.Settings.DocumentFault

/-!
# Errors

Every cause for which settings are refused, a document cannot be read, a machine is not built or
a text is not written, with its wording in one place.
-/

namespace RandomMachine

/-- Why a text was not written or read. -/
inductive TransferFault
  /-- The sink takes no further byte. -/
  | full
  /-- The sink accepted nothing of what it was offered. -/
  | nothingAccepted
  /-- What was accepted could not be made final. -/
  | flush
  /-- The system refused, with its own words. -/
  | system (reason : String)
  deriving DecidableEq, Repr

/-- Wording of a failed transfer. -/
def TransferFault.message : TransferFault → String
  | .full => "sink full"
  | .nothingAccepted => "failed to write whole buffer"
  | .flush => "flush failed"
  | .system reason => reason

/-- Every way in which the library refuses an input. Specification, section E8. -/
inductive Error
  | settings (fault : SettingsFault)
  | document (fault : DocumentFault)
  | operandType (tag : UInt8)
  | scratchpadSize (expected found : Nat)
  | transfer (fault : TransferFault)
  deriving DecidableEq, Repr

/-- Wording of an error. -/
def Error.message : Error → String
  | .settings fault => "invalid configuration: " ++ fault.message
  | .document fault => "malformed configuration document: " ++ fault.message
  | .operandType tag =>
    "operand type tag " ++ Numeral.decimal tag.toNat ++ " is out of range"
  | .scratchpadSize expected found =>
    "scratchpad image holds " ++ Numeral.decimal found ++ " cells, expected " ++
      Numeral.decimal expected
  | .transfer fault => "failed to write generated program: " ++ fault.message

/-- Passes settings that meet all conditions. -/
def Settings.validate (settings : Settings) : Except Error Unit :=
  match settings.fault? with
  | some fault => .error (.settings fault)
  | none => .ok ()

end RandomMachine
