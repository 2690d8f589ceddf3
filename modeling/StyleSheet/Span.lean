/-!
# Spans

A span is a half-open range of byte offsets in one source text.  Every token, node and
error carries one.  Offsets are 32-bit words, so an offset that lies further out is
recorded as the last one that fits.
-/

namespace StyleSheet

/-- A half-open range of byte offsets `start..stop`. -/
structure Span where
  start : Nat
  stop : Nat
  deriving DecidableEq, Inhabited

namespace Span

/-- The largest offset a span can hold. -/
def maxOffset : Nat := 4294967295

/-- The span of a byte range; each end is cut off at `maxOffset`. -/
def ofRange (start stop : Nat) : Span :=
  ⟨min start maxOffset, min stop maxOffset⟩

/-- The empty span at an offset. -/
def point (offset : Nat) : Span := ⟨offset, offset⟩

/-- The number of bytes covered, as a 32-bit word. -/
def length (s : Span) : Nat := (s.stop + (maxOffset + 1) - s.start) % (maxOffset + 1)

def isEmpty (s : Span) : Bool := s.start == s.stop

/-- The smallest span that covers both. -/
def merge (s t : Span) : Span := ⟨min s.start t.start, max s.stop t.stop⟩

/-- A span as reports show it: `start..stop`. -/
def text (s : Span) : String := toString s.start ++ ".." ++ toString s.stop

end Span

end StyleSheet
