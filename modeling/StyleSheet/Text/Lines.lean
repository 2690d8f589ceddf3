import StyleSheet.Span
import StyleSheet.Text.Bytes

/-!
# Lines and columns

A line starts at the beginning of the text and after every line feed.  A table of these
starts answers where an offset lies; lines and columns are counted from one, and columns
count characters.  Both numbers are 32-bit words, like offsets.
-/

namespace StyleSheet.Text

/-- The byte offsets at which the lines of a text start, in order. -/
structure Lines where
  starts : List Nat

/-- A place in a text as a reader counts it. -/
structure Position where
  line : Nat
  column : Nat
  deriving DecidableEq

namespace Lines

/-- The offsets after each line feed, for characters that start at `offset`. -/
def startsAfter (offset : Nat) : List Char → List Nat
  | [] => []
  | c :: cs =>
    if c == '\n' then min (offset + 1) Span.maxOffset :: startsAfter (offset + 1) cs
    else startsAfter (offset + c.utf8Size) cs

def ofText (s : String) : Lines := ⟨0 :: startsAfter 0 s.toList⟩

/-- The table of no text at all. -/
def empty : Lines := ⟨[]⟩

def count (l : Lines) : Nat := l.starts.length

/-- The word after `n`; zero comes after the largest one. -/
def wordAfter (n : Nat) : Nat := (n + 1) % (Span.maxOffset + 1)

/-- The number of what stands behind `n` others, counted from one.  A number `n` that is no word
is cut off below the largest word. -/
def ordinal (n : Nat) : Nat :=
  wordAfter (if n ≤ Span.maxOffset then n else Span.maxOffset - 1)

/-- Where an offset stands among the starts, or else where it would have to be put in. -/
def search (l : Lines) (offset : Nat) : Except Nat Nat :=
  match l.starts.idxOf? offset with
  | some i => .ok i
  | none => .error (l.starts.countP (· < offset))

/-- The line an offset lies in: the one that starts there, or else the last one that starts
before. -/
def lineOf (l : Lines) (offset : Nat) : Nat :=
  ordinal
    (match l.search offset with
      | .ok found => found
      | .error place => place - 1)

/-- Where a line starts. -/
def start? (l : Lines) : Nat → Option Nat
  | 0 => none
  | n + 1 => l.starts[n]?

/-- Line and column of an offset.  An offset past the end counts as the end, and one inside
a character has the column of its line's start. -/
def position (l : Lines) (source : String) (offset : Nat) : Position :=
  let cs := source.toList
  let line := l.lineOf offset
  let start := (l.start? line).getD 0
  let stop := max (min offset (byteLength cs)) start
  ⟨line, ordinal (((slice? cs start stop).map List.length).getD 0)⟩

/-- The text of a line without the line feeds and carriage returns at its end. -/
def lineText? (l : Lines) (source : String) (line : Nat) : Option String :=
  let cs := source.toList
  (l.start? line).bind fun start =>
    let stop := (l.start? (wordAfter line)).getD (byteLength cs)
    (slice? cs start stop).map fun text =>
      String.ofList (text.reverse.dropWhile (fun c => c == '\n' || c == '\r')).reverse

end Lines

/-- Line and column at which a span starts. -/
def positionOf (source : String) (span : Span) : Position :=
  (Lines.ofText source).position source span.start

end StyleSheet.Text
