import Intcode.Console.Desk
import Intcode.Main
import Intcode.Pipes
import Intcode.Session
import Intcode.Proofs.Machine.Advance
import Intcode.Proofs.Network.Schedule
import Intcode.Proofs.Network.Turns
import Intcode.Proofs.Network.Confluence
import Intcode.Proofs.Network.Answers
import Intcode.Proofs.Instruction.Operands
import Intcode.Proofs.Memory
import Intcode.Proofs.Plain
import Intcode.Proofs.Opcode
import Intcode.Proofs.Plain.Operands
import Intcode.Proofs.Plain.Refinement
import Intcode.Proofs.Plain.Runs
import Intcode.Proofs.Assembly.Layout
import Intcode.Proofs.Assembly.Symbols
import Intcode.Proofs.Assembly.Extent
import Intcode.Proofs.Assembly.Image
import Intcode.Proofs.Assembly.Decoding
import Intcode.Proofs.Assembly.Interpreter
import Intcode.Proofs.Assembly.Control
import Intcode.Proofs.Assembly.Meaning
import Intcode.Proofs.Network.Ledger
import Intcode.Proofs.Network.Conservation
import Intcode.Proofs.Machine.Outcomes
import Intcode.Proofs.Network.Deadlock
import Intcode.Proofs.Network.Solo
import Intcode.Proofs.Network.Relay
import Intcode.Proofs.Wiring
import Intcode.Proofs.Wiring.Protocol
import Intcode.Proofs.Session.Prompt
import Intcode.Proofs.Wiring.Supply
import Intcode.Proofs.Machine.Completion
import Intcode.Proofs.Wiring.Failure
import Intcode.Proofs.Machine.Padding
import Intcode.Proofs.Wiring.Padding
import Intcode.Proofs.Machine.Stores
import Intcode.Proofs.Wiring.Stores
import Intcode.Proofs.Assembly.Lexemes
import Intcode.Proofs.Assembly.Lexing
import Intcode.Proofs.Assembly.Segments
import Intcode.Proofs.Assembly.Locality
import Intcode.Proofs.Console
import Intcode.Proofs.Text.Blank
import Intcode.Proofs.Program.Text
import Intcode.Proofs.Console.Arguments
import Intcode.Proofs.Console.Saving
import Intcode.Proofs.Assembly.Code
import Intcode.Proofs.Program.Grammar
import Intcode.Proofs.Console.Lines
import Intcode.Proofs.Console.Feeding
import Intcode.Proofs.Assembly.Names
import Intcode.Proofs.Assembly.Forms
import Intcode.Proofs.Assembly.Writing
import Intcode.Proofs.Assembly.Comments
import Intcode.Proofs.Memory.LastStores
import Intcode.Proofs.Pipes
import Intcode.Proofs.Instruction.Conditions
import Intcode.Proofs.Text.Lines
import Intcode.Proofs.Assembly.Fragments
import Intcode.Proofs.Assembly.Mentions
import Intcode.Proofs.Console.Diagnostics
import Intcode.Proofs.Machine.Passage
import Intcode.Proofs.Machine.Driving
import Intcode.Proofs.Wiring.Absorption
import Intcode.Proofs.Instruction.Supplies
import Intcode.Proofs.Wiring.Furnished
import Intcode.Proofs.Console.Running
import Intcode.Proofs.Instruction.Addresses
import Intcode.Proofs.Instruction.Digits
import Intcode.Proofs.Instruction.Inverse
import Intcode.Proofs.Assembly.Batches
import Intcode.Proofs.Assembly.Renaming
