import Chip8.Main
import Chip8.Proofs.Decoding
import Chip8.Proofs.Execution
import Chip8.Proofs.Bounds
import Chip8.Proofs.Flipping
import Chip8.Proofs.Sprite
import Chip8.Proofs.Drawing
import Chip8.Proofs.Mirror
import Chip8.Proofs.KeyWait
import Chip8.Proofs.Guarded
import Chip8.Proofs.Guarded.Step
import Chip8.Proofs.Faults
import Chip8.Proofs.Footprint
import Chip8.Proofs.Arithmetic
import Chip8.Proofs.Memory
import Chip8.Proofs.Subroutine
import Chip8.Proofs.Storing
import Chip8.Proofs.InPlace
import Chip8.Proofs.Restart
import Chip8.Proofs.Halted
import Chip8.Proofs.Agreement
import Chip8.Proofs.Session.Deeds
import Chip8.Proofs.Session.Ticking
import Chip8.Proofs.Session.Effects
import Chip8.Proofs.Session.Move
import Chip8.Proofs.Session.Cycles
import Chip8.Proofs.Session.Exits
import Chip8.Proofs.Session.Refinement
import Chip8.Proofs.Session.Buzzing
import Chip8.Proofs.Session.Independence
import Chip8.Proofs.Resource
import Chip8.Proofs.Session.Handovers
import Chip8.Proofs.Painting
import Chip8.Proofs.GivingBack
import Chip8.Proofs.Replies
import Chip8.Proofs.Dialects
import Chip8.Proofs.Formats
import Chip8.Proofs.Tracing
import Chip8.Proofs.Countdown
import Chip8.Proofs.Pixels
import Chip8.Proofs.Canvas
import Chip8.Proofs.ControlFlow
import Chip8.Proofs.Anomalies
import Chip8.Proofs.History
import Chip8.Proofs.Loading
import Chip8.Proofs.Overlays
import Chip8.Proofs.Collisions
import Chip8.Proofs.Clipping
import Chip8.Proofs.Glyphs
import Chip8.Proofs.Templates
import Chip8.Proofs.Disassembly
import Chip8.Proofs.Session.Punctuality
import Chip8.Proofs.Session.FreshKeys
import Chip8.Proofs.Cells
import Chip8.Proofs.Keymap
import Chip8.Proofs.Session.Reports
import Chip8.Proofs.Keymap.Folding
import Chip8.Proofs.Palettes
import Chip8.Proofs.KeyEvents
import Chip8.Proofs.Exchange
import Chip8.Proofs.Typing
import Chip8.Proofs.Latch
import Chip8.Proofs.Spelling
import Chip8.Proofs.Choices
import Chip8.Proofs.Settings
import Chip8.Proofs.Pad
