import ComponentLoader.Script.Dialect
import ComponentLoader.Script.Grammar.Markup
import ComponentLoader.Script.Grammar.Modules

/-
  This file closes the grammar over its nesting depth and
  defines the parser of scripts.

  Every rule that calls another through the record has
  read something or passed a rule of its own level, so a
  depth in proportion to the length of the script is never
  used up.

  Key definitions include:
    * `Script.rules`
    * `Script.parse`
-/

namespace ComponentLoader
namespace Script

------------------------------------------------------------
-- The Closed Grammar
------------------------------------------------------------

/- The rules for phrases nested up to a depth. -/
def rules : Nat → Rules
  | 0 => Rules.none
  | n + 1 =>
      { assign := fun sc c => Grammar.assign (rules n) sc c
        binary := fun sc c => Grammar.binary (rules n) sc c
        unary := fun sc c => Grammar.unary (rules n) sc c
        operand := fun sc c =>
          Grammar.operand (rules n) sc c
        construct := fun sc c =>
          Grammar.construct (rules n) sc c
        type := fun sc c => Grammar.type (rules n) sc c
        plainType := fun sc c =>
          Grammar.plainType (rules n) sc c
        pattern := fun sc c =>
          Grammar.pattern (rules n) sc c
        element := fun sc c =>
          Grammar.markupElement (rules n) sc c
        decorator := fun sc c =>
          Grammar.decorator (rules n) sc c
        statement := fun sc declOk c =>
          Grammar.statement (rules n) sc declOk c
        items := fun sc c => Grammar.items (rules n) sc c }

------------------------------------------------------------
-- Scripts
------------------------------------------------------------

/- A bound on the nesting depth of a script. -/
def depthOf
    (text : Text) : Nat :=
  16 * (text.length + 1)

/- A script without the line that names its interpreter. -/
def skipInterpreter
    (p : Place) : Place :=
  match p.rest with
  | '#' :: '!' :: _ =>
      p.after (p.rest.takeWhile fun c => !Text.isLineEnd c)
  | _ => p

/-
  Where a script starts.  One byte order mark is passed
  over and not counted.
-/
def startOf
    (text : Text) : Place :=
  match text with
  | c :: cs =>
      if c = Text.byteOrderMark then
        skipInterpreter
          { rest := cs, pos := Source.firstPosition }
      else
        skipInterpreter
          { rest := text, pos := Source.firstPosition }
  | [] => { rest := [], pos := Source.firstPosition }

/- The module that a text holds, in a dialect. -/
def parse
    (dialect : Dialect)
    (text : Text) : Except SyntaxError Module :=
  let sc : Scope :=
    { types := dialect.types, markup := dialect.markup }
  let place := startOf text
  let start := Cursor.start (place.rest.length + 1) place
  match
    Grammar.moduleItems (rules (depthOf place.rest)) sc start
  with
  | .ok (items, _) => .ok { items := items }
  | .error c => .error { position := c.lo }

end Script
end ComponentLoader
