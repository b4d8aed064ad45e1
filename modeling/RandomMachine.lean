import RandomMachine.Main
import RandomMachine.Proofs.Dram.Stream
import RandomMachine.Proofs.Machine.Brackets
import RandomMachine.Proofs.Machine.Budget
import RandomMachine.Proofs.Machine.FloatResults
import RandomMachine.Proofs.Machine.Safety
import RandomMachine.Proofs.Source.ControlFlow
import RandomMachine.Proofs.Source.Faithful
import RandomMachine.Source.Sink
import RandomMachine.Proofs.FieldBits
import RandomMachine.Proofs.Machine.Capacity
import RandomMachine.Proofs.Machine.Flow
import RandomMachine.Proofs.Binary64.LostResiduals
import RandomMachine.Proofs.Drawing
import RandomMachine.Proofs.Machine.FloatRegisters
import RandomMachine.Proofs.Binary64.InvalidOperations
import RandomMachine.Proofs.Binary64.OppositeOperands
import RandomMachine.Proofs.Binary64.FourModes
import RandomMachine.Proofs.Machine.CallWindow
import RandomMachine.Proofs.Family.IntegerArithmetic
import RandomMachine.Proofs.Machine.StepEffect
import RandomMachine.Proofs.Machine.IntegerResults
import RandomMachine.Proofs.Tally.Counters
import RandomMachine.Proofs.Source.Delivery
import RandomMachine.Proofs.Source.ProgramMarks
import RandomMachine.Proofs.Settings.Documents
import RandomMachine.Proofs.Binary64.Neighbors
import RandomMachine.Proofs.CommandLine.Overrides
import RandomMachine.Proofs.Source.Immediates
import RandomMachine.Proofs.Source.MemberStores
import RandomMachine.Proofs.Machine.CellHalves
