import Nes.Bus.Flat
import Nes.Bus.Recorded
import Nes.Host.Disk
import Nes.Main
import Nes.Proofs.Cartridge.Banks
import Nes.Proofs.Checked.Console
import Nes.Proofs.Mainboard.Routing
import Nes.Proofs.Mmc3.BankHistory
import Nes.Proofs.Ppu.Picture
import Nes.Proofs.Ppu.Representation
import Nes.Proofs.Ppu.Torus
import Nes.Proofs.Ppu.Vblank
import Nes.Proofs.Bus.Simulation
import Nes.Proofs.Cpu.Simulation
import Nes.Proofs.Cpu.Accesses
import Nes.Proofs.Cpu.Cycles
import Nes.Proofs.Cpu.Discipline
import Nes.Proofs.Mainboard.Dots
import Nes.Proofs.Console.Interrupts
import Nes.Proofs.Mainboard.Reads
import Nes.Proofs.Mainboard.Stack
import Nes.Proofs.Console.Faults
import Nes.Proofs.Console.Handlers
import Nes.Proofs.Mainboard.Clocks
import Nes.Proofs.Mmc3.Sides
import Nes.Proofs.Console.Accounts
import Nes.Proofs.Console.Frames
import Nes.Proofs.Cpu.Dialogue
import Nes.Proofs.Mainboard.ProgramSide
import Nes.Proofs.Console.Timings
import Nes.Proofs.Ppu.DataPort
import Nes.Proofs.History
import Nes.Proofs.Ppu.Frames
import Nes.Proofs.Mmc3.Line
import Nes.Proofs.Mainboard.Pads
import Nes.Proofs.Cpu.Status
import Nes.Proofs.Mmc3.Schedule
import Nes.Proofs.Ppu.Scanlines
import Nes.Proofs.Ppu.Pixels
import Nes.Proofs.Ppu.Footprint
import Nes.Proofs.Ppu.ScrollPosition
import Nes.Proofs.Ppu.ReadStream
import Nes.Proofs.Bus.Cells
import Nes.Proofs.Cpu.Composition
import Nes.Proofs.LittleEndian
import Nes.Proofs.Cpu.LongSums
import Nes.Proofs.Cpu.LongShifts
import Nes.Proofs.Cpu.Footprint
import Nes.Proofs.Uxrom
import Nes.Proofs.Hex
import Nes.Proofs.Cpu.TraceLines
import Nes.Proofs.Cartridge.Battery
import Nes.Proofs.Session.Phases
import Nes.Proofs.Session.Saves
