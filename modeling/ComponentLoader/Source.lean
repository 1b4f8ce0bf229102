import ComponentLoader.Text.Basic

/-
  This file defines spans of source positions and the text
  behind them.

  The first byte of a source has a position of its own,
  which is not 0, so that the span from 0 to 0 is nowhere.

  Key definitions include:
    * `Span`
    * `Source`
    * `Source.offset`
    * `Source.range`
    * `Source.slice`
-/

namespace ComponentLoader

------------------------------------------------------------
-- Spans
------------------------------------------------------------

/- The positions where something starts and ends. -/
structure Span where
  lo : Nat
  hi : Nat
  deriving DecidableEq, Inhabited

/- The span of what stands nowhere. -/
def Span.nowhere : Span :=
  { lo := 0, hi := 0 }

------------------------------------------------------------
-- Sources
------------------------------------------------------------

/- A text and the position of its first byte. -/
structure Source where
  text : Text
  start : Nat

namespace Source

/- The position of the first byte of a parsed text. -/
def firstPosition : Nat :=
  1

/- The source of a parsed text. -/
def ofText
    (t : Text) : Source :=
  { text := t, start := firstPosition }

/- The byte offset of a position, within the text. -/
def offset
    (s : Source)
    (position : Nat) : Nat :=
  min (position - s.start) s.text.size

/- The byte offsets of a span, never in reverse. -/
def range
    (s : Source)
    (span : Span) : Nat × Nat :=
  let lo := s.offset span.lo
  (lo, max (s.offset span.hi) lo)

/-
  The text of a span.  It is empty nowhere, and also when
  an end of the span falls inside a character.
-/
def slice
    (s : Source)
    (span : Span) : Text :=
  if span = Span.nowhere then
    []
  else
    let r := s.range span
    (s.text.slice? r.1 r.2).getD []

end Source
end ComponentLoader
