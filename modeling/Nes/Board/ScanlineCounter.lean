/-!
# Scanline counter

The interrupt source of an MMC3: a counter that is clocked once per visible line.  A clock loads
the latch when a reload was asked for or the counter stands at zero, and otherwise counts down;
the line rises when a count down ends at zero while interrupts are enabled, and stays up until
they are disabled.

`clock` is `clock_scanline` of famicore's `Mapper4`; the other four are what its `cpu_write` does
at `$C000`, `$C001`, `$E000` and `$E001`.
-/

namespace Nes

structure ScanlineCounter where
  latch : UInt8 := 0
  counter : UInt8 := 0
  reload : Bool := false
  enabled : Bool := false
  pending : Bool := false
deriving DecidableEq, Repr, Inhabited

namespace ScanlineCounter

def clock (s : ScanlineCounter) : ScanlineCounter :=
  if s.reload || s.counter == 0 then { s with counter := s.latch, reload := false }
  else
    { s with
      counter := s.counter - 1
      pending := s.pending || (s.counter == 1 && s.enabled) }

/-- Interrupts off; a pending one is acknowledged. -/
def disable (s : ScanlineCounter) : ScanlineCounter := { s with enabled := false, pending := false }

def enable (s : ScanlineCounter) : ScanlineCounter := { s with enabled := true }

def requestReload (s : ScanlineCounter) : ScanlineCounter := { s with reload := true }

def setLatch (s : ScanlineCounter) (v : UInt8) : ScanlineCounter := { s with latch := v }

end ScanlineCounter

end Nes
