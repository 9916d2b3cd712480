import StackMachine.Fixture.Runner
import StackMachine.Host.World
import StackMachine.Json.Printer
import StackMachine.Proofs.Atomicity
import StackMachine.Proofs.Boundaries
import StackMachine.Proofs.Budgets
import StackMachine.Proofs.Conservation
import StackMachine.Proofs.Hosts
import StackMachine.Proofs.Tape
import StackMachine.Proofs.Termination
import StackMachine.Proofs.Arity
import StackMachine.Proofs.Revisions
import StackMachine.Proofs.NestedCalls
import StackMachine.Proofs.Padding
import StackMachine.Proofs.Storage
import StackMachine.Proofs.Isolation
import StackMachine.Proofs.Logs
import StackMachine.Proofs.Results
import StackMachine.Proofs.Precedence
import StackMachine.Proofs.Calls
import StackMachine.Proofs.Jumps
import StackMachine.Proofs.QuadraticPrice
import StackMachine.Proofs.Growth
import StackMachine.Proofs.Arithmetic
import StackMachine.Proofs.BigEndian
import StackMachine.Proofs.Accesses
import StackMachine.Proofs.Digits
import StackMachine.Proofs.HexText
import StackMachine.Proofs.Options
import StackMachine.Proofs.Windows
import StackMachine.Proofs.Literals
import StackMachine.Proofs.Configurations
import StackMachine.Proofs.OrderedMaps
import StackMachine.Proofs.Verdicts
import StackMachine.Proofs.Cases
import StackMachine.Proofs.Repetitions
import StackMachine.Proofs.StackActions
