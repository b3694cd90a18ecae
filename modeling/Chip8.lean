import Chip8.Machine.Operation
import Chip8.Main
import Chip8.Proofs.Decoding
import Chip8.Proofs.Numeral
import Chip8.Proofs.Run
import Chip8.Proofs.Refusal
import Chip8.Proofs.Subroutine
import Chip8.Proofs.Restart
import Chip8.Proofs.AddressSpace
import Chip8.Proofs.Raw.Cells
import Chip8.Proofs.Raw.Processor
import Chip8.Proofs.Raw.Machine
import Chip8.Proofs.Loading
import Chip8.Proofs.Soundness
import Chip8.Proofs.Halted
import Chip8.Proofs.Effects
import Chip8.Proofs.KeyWait
import Chip8.Proofs.Text
import Chip8.Proofs.Listing
import Chip8.Proofs.Ticking
import Chip8.Proofs.Pace
import Chip8.Proofs.Delivery
import Chip8.Proofs.Timeless
import Chip8.Proofs.Drawing
import Chip8.Proofs.Mnemonic
import Chip8.Proofs.Replay
import Chip8.Proofs.RandomBytes
import Chip8.Proofs.Cadence
import Chip8.Proofs.FirstTick
import Chip8.Proofs.Polling
import Chip8.Proofs.ShiftRule
import Chip8.Proofs.Repaint
import Chip8.Proofs.HeldKeys
import Chip8.Proofs.Keyless
import Chip8.Proofs.Frame
import Chip8.Proofs.Flow
import Chip8.Proofs.Alignment
import Chip8.Proofs.Collision
import Chip8.Proofs.RegisterBlock
import Chip8.Proofs.Carry
import Chip8.Proofs.Digits
import Chip8.Proofs.Readback
import Chip8.Proofs.Path
import Chip8.Proofs.Overrides
import Chip8.Proofs.Arguments
import Chip8.Proofs.Dump
import Chip8.Proofs.Session
