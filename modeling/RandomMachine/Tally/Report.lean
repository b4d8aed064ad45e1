import RandomMachine.Decimal.Layout
import RandomMachine.Tally.Basic

/-!
# Reports of tallies

A tally as text, in four sections. Shares are quotients of doubles, written with two places.
-/

namespace RandomMachine

/-- The sections of a report. -/
inductive ReportSection
  | summary
  | instructionMix
  | control
  | memory
  deriving DecidableEq, Repr

namespace ReportSection

/-- All sections, in the order in which they are printed. -/
def all : List ReportSection := [.summary, .instructionMix, .control, .memory]

/-- Name of a section. -/
def name : ReportSection → String
  | .summary => "summary"
  | .instructionMix => "instruction_mix"
  | .control => "control"
  | .memory => "memory"

end ReportSection

namespace Tally

/-- The line above and below a report. -/
def doubleRule : String := String.ofList (List.replicate 58 '=') ++ "\n"

/-- The line between sections. -/
def rule : String := String.ofList (List.replicate 58 '-') ++ "\n"

/-- A line with a name, padded to a column, and what follows it. -/
def entry (name value : String) : String :=
  name ++ String.ofList (List.replicate (25 - name.length) ' ') ++ value ++ "\n"

/-- A count as an entry. -/
def countEntry (name : String) (count : Nat) : String := entry name (Numeral.decimal count)

/-- Places after the point of a share. -/
def sharePlaces : Nat := 2

/-- Share of a count in percent of all slots: a quotient of doubles, and a product. -/
def share (tally : Tally) (count : Nat) : Binary64 :=
  ((Binary64.ofInt count).divNearest (.ofInt (max tally.slots 1 : Nat))).mulNearest (.ofInt 100)

/-- A count with its share as an entry. -/
def shareEntry (tally : Tally) (name : String) (count : Nat) : String :=
  entry name
    (Numeral.decimal count ++ " (" ++ Decimal.fixed sharePlaces (tally.share count) ++ "%)")

/-- Text of a section. -/
def sectionText (tally : Tally) : ReportSection → String
  | .summary =>
    doubleRule ++ "GENERATED PROGRAM STATISTICS\n" ++ doubleRule ++
      countEntry "gen_seed" tally.seed.toNat ++
      countEntry "gen_slots" tally.slots ++
      countEntry "gen_budget" tally.budget.toNat ++ rule
  | .instructionMix =>
    "INSTRUCTION MIX\n" ++
      String.join (FamilyClass.all.map fun kind =>
        tally.shareEntry ("  class." ++ kind.name) (tally.ofClass kind)) ++
      String.join (Family.all.map fun family =>
        if tally.ofFamily family = 0 then ""
        else countEntry ("  op." ++ family.mnemonic) (tally.ofFamily family)) ++ rule
  | .control =>
    "CONTROL FLOW\n" ++
      countEntry "  call.conditional" tally.calls.conditional ++
      countEntry "  call.unconditional" tally.calls.unconditional ++
      countEntry "  ret.conditional" tally.returns.conditional ++
      countEntry "  ret.unconditional" tally.returns.unconditional ++ rule
  | .memory =>
    "MEMORY\n" ++
      tally.shareEntry "  read.dram" tally.dramReads ++
      tally.shareEntry "  read.scratchpad" tally.scratchpadReads ++
      countEntry "  write.scratchpad" tally.memoryDestinations ++
      countEntry "  write.register" tally.registerDestinations ++ doubleRule

/-- The sections with the given names, or all of them if no name is given. Names that no section has
are passed over. Specification, section E10. -/
def report (tally : Tally) (names : List String) : String :=
  String.join ((ReportSection.all.filter fun part => names.isEmpty || names.contains part.name).map
    tally.sectionText)

end Tally
end RandomMachine
