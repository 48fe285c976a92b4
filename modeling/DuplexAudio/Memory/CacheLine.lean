/-
  Cache lines and the memory that transfer channels can reach.

  Cache maintenance works on whole lines of thirty-two bytes, so an address range is widened to
  line boundaries first.  `Span.wholeLines` does this with masks on machine words.  What is
  maintained is one half of a double buffer at a time, `DoubleBuffer.halfSpan`.
-/
import DuplexAudio.Memory.DoubleBuffer

namespace DuplexAudio

/-- Bytes in a cache line. -/
def cacheLineBytes : UInt64 := 32

/-- A range of addresses. -/
structure Span where
  start : UInt64
  length : UInt64
  deriving DecidableEq, Repr

/-- `s` widened to whole cache lines; an empty range stays as it is. -/
def Span.wholeLines (s : Span) : Span :=
  if s.length = 0 then s
  else
    let mask := cacheLineBytes - 1
    let start := s.start &&& ~~~mask
    let stop := (s.start + s.length + mask) &&& ~~~mask
    ⟨start, stop - start⟩

/-- The addresses of one half of a region with `c` channels that begins at `base`. -/
def DoubleBuffer.halfSpan (c : Nat) (base : UInt64) (h : Half) : Span :=
  ⟨base + UInt64.ofNat (halfOffset c h), UInt64.ofNat (halfBytes c)⟩

/-- First address that the transfer channels can reach. -/
def reachableStart : UInt64 := 0x20000000

/-- First address past what the transfer channels can reach. -/
def reachableEnd : UInt64 := 0x40000000

/-- Whether the transfer channels can reach an address. -/
def isReachable (address : UInt64) : Bool := reachableStart ≤ address && address < reachableEnd

end DuplexAudio
