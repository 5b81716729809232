import ChipEight.Command.FileSystem
import ChipEight.Instruction.Coding
import ChipEight.Main
import ChipEight.Proofs.History
import ChipEight.Proofs.Subroutine
import ChipEight.Proofs.Halting
import ChipEight.Proofs.Diagnosis
import ChipEight.Proofs.RunLoop
import ChipEight.Proofs.Footprint
import ChipEight.Proofs.Reachable
import ChipEight.Proofs.Strict
import ChipEight.Proofs.Session
import ChipEight.Proofs.Reload
import ChipEight.Proofs.Unread
import ChipEight.Proofs.Passes
import ChipEight.Proofs.Rendering
import ChipEight.Proofs.Buzzer
import ChipEight.Proofs.Stopping
import ChipEight.Proofs.Stepping
import ChipEight.Proofs.Headless
import ChipEight.Proofs.RandomStream
import ChipEight.Proofs.ListedCode
import ChipEight.Proofs.Toggling
import ChipEight.Proofs.Parity
import ChipEight.Proofs.Collision
import ChipEight.Proofs.Drawing
import ChipEight.Proofs.Flags
import ChipEight.Proofs.Transfer
import ChipEight.Proofs.Assembler
import ChipEight.Proofs.LastColumn
import ChipEight.Proofs.Layout
import ChipEight.Proofs.ControlFlow
import ChipEight.Proofs.Countdown
import ChipEight.Proofs.KeyWait
import ChipEight.Proofs.Composition
import ChipEight.Proofs.LastWrite
import ChipEight.Proofs.Dumps
import ChipEight.Proofs.CommandLine
import ChipEight.Proofs.CycleCount
import ChipEight.Proofs.KeySet
