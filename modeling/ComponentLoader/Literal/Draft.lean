import ComponentLoader.Literal.Basic
import ComponentLoader.Script.Lexer

/-
  This file defines drafts: object literals whose entries
  are removed, added and replaced, and how a draft is
  written in place of its literal.

  Comments before an entry that is kept stay before it,
  and comments after the last entry stay at the end.

  Key definitions include:
    * `Draft`
    * `Draft.remove`
    * `Draft.add`
    * `Draft.replace`
    * `Draft.dropSeparator`
    * `Literal.comments`
    * `Draft.render`
-/

namespace ComponentLoader

------------------------------------------------------------
-- Drafts
------------------------------------------------------------

/- An entry of a draft. -/
inductive Draft.Part where
  /- An entry of the literal, with its index there. -/
  | kept (index : Nat) (entry : Script.Entry)
  /- A new entry. -/
  | added (prop : PropNode)

/- The name of an entry of a draft. -/
def Draft.Part.name? : Draft.Part → Option Text
  | kept _ entry => entry.name?
  | added prop => prop.name?

/- A literal and the entries it is to have. -/
structure Draft where
  literal : Literal
  parts : List Draft.Part
  modified : Bool

namespace Draft

/- The entries of a literal, from an index on. -/
def keptFrom : Nat → List Script.Entry → List Part
  | _, [] => []
  | index, entry :: rest =>
      .kept index entry :: keptFrom (index + 1) rest

/- The draft of a literal as it is. -/
def ofLiteral
    (l : Literal) : Draft :=
  { literal := l
    parts := keptFrom 0 l.entries
    modified := false }

/- Remove the first entry with a name, if there is one. -/
def remove
    (d : Draft)
    (name : Text) : Draft :=
  if d.parts.any fun p => p.name? == some name then
    { d with
      parts := d.parts.eraseP fun p => p.name? == some name
      modified := true }
  else
    d

/- Add an entry at the end. -/
def add
    (d : Draft)
    (prop : PropNode) : Draft :=
  { d with
    parts := d.parts ++ [.added prop]
    modified := true }

/- Add entries at the end, in order. -/
def addAll
    (d : Draft)
    (props : List PropNode) : Draft :=
  props.foldl add d

/- Remove the entry with a name and add one at the end. -/
def replace
    (d : Draft)
    (name : Text)
    (prop : PropNode) : Draft :=
  (d.remove name).add prop

end Draft

------------------------------------------------------------
-- Comments
------------------------------------------------------------

/- A gap without its first comma outside of comments. -/
def Draft.dropSeparator : Script.Within → Text → Text
  | _, [] => []
  | .outside, ',' :: cs => cs
  | .outside, '/' :: '/' :: cs =>
      '/' :: '/' :: dropSeparator .line cs
  | .outside, '/' :: '*' :: cs =>
      '/' :: '*' :: dropSeparator .block cs
  | .outside, c :: cs => c :: dropSeparator .outside cs
  | .line, '\n' :: cs => '\n' :: dropSeparator .outside cs
  | .line, c :: cs => c :: dropSeparator .line cs
  | .block, '*' :: '/' :: cs =>
      '*' :: '/' :: dropSeparator .outside cs
  | .block, c :: cs => c :: dropSeparator .block cs

/- The comments of a literal. -/
structure Literal.Comments where
  /- Those before each entry. -/
  leading : List Text
  /- Those after the last entry. -/
  trailing : Text

namespace Literal

/- What stands between two offsets, without its comma. -/
def gap
    (source : Source)
    (lo hi : Nat) : Text :=
  Draft.dropSeparator .outside
    ((source.text.slice? lo hi).getD [])

/- The comments before entries, and where the last ends. -/
def leadingFrom
    (source : Source) :
    Nat → List Script.Entry → List Text × Nat
  | lo, [] => ([], lo)
  | lo, entry :: rest =>
      let range := source.range entry.span
      let comment := Text.trimStart (gap source lo range.1)
      let more := leadingFrom source (max range.2 lo) rest
      (comment :: more.1, more.2)

/- The comments of a literal, entry by entry. -/
def comments
    (l : Literal)
    (source : Source) : Comments :=
  let range := source.range l.span
  let first := min (range.1 + 1) range.2
  let leading := leadingFrom source first l.entries
  { leading := leading.1
    trailing :=
      Text.trim (gap source leading.2 (range.2 - 1)) }

end Literal

------------------------------------------------------------
-- Writing
------------------------------------------------------------

namespace Draft

/- A text without the braces around it. -/
def withoutBraces : Text → Text
  | '{' :: cs =>
      if Text.endsWith '}' cs then cs.dropLast else []
  | _ => []

/- The blanks after the first brace and before the last. -/
structure Layout where
  lead : Text
  trail : Text

/- The layout of a literal on one line. -/
def Layout.inline : Layout :=
  { lead := [' '], trail := [' '] }

/-
  The layout of a literal.  One without entries or without
  a blank after its brace is laid out anew.
-/
def layoutOf
    (l : Literal)
    (source : Source) : Layout :=
  let inner := withoutBraces (source.slice l.span)
  let lead := Text.leadingBlanks inner
  if l.entries.isEmpty || lead.isEmpty then
    Layout.inline
  else
    { lead := lead, trail := Text.trailingBlanks inner }

namespace Layout

/- Whether entries stand on lines of their own. -/
def isMultiline
    (y : Layout) : Bool :=
  y.lead.contains '\n'

/- What stands between two entries. -/
def separator
    (y : Layout) : Text :=
  if y.isMultiline then ',' :: y.lead else [',', ' ']

/- What stands before the comments at the end. -/
def beforeTrailing
    (y : Layout) : Text :=
  if y.isMultiline then y.lead else [' ']

/- What stands before the closing brace. -/
def close
    (y : Layout) : Text :=
  if !y.trail.isEmpty then
    y.trail
  else if y.isMultiline then
    (y.lead.reverse.dropWhile fun c => c ≠ '\n').reverse
  else
    [' ']

end Layout

/- The code of an entry with the comments before it. -/
def renderPart
    (source : Source)
    (comments : Literal.Comments) : Part → Text
  | .kept index entry =>
      comments.leading.getD index [] ++
        source.slice entry.span
  | .added prop => prop.render

/- The comments at the end, set off from the entries. -/
def renderTrailing
    (layout : Layout)
    (trailing : Text) : Text :=
  if trailing.isEmpty then
    []
  else
    layout.beforeTrailing ++ trailing

/- The code of a draft. -/
def render
    (d : Draft)
    (source : Source) : Text :=
  if d.parts.isEmpty then
    ['{', '}']
  else
    let layout := layoutOf d.literal source
    let comments := d.literal.comments source
    let items := d.parts.map (renderPart source comments)
    ['{'] ++ layout.lead ++
      Text.join layout.separator items ++
      renderTrailing layout comments.trailing ++
      layout.close ++ ['}']

end Draft
end ComponentLoader
