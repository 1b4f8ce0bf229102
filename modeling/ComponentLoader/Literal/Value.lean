import ComponentLoader.Dict
import ComponentLoader.Literal.Basic

/-
  This file defines the values that can be read off the
  expressions of a script without running it.

  Literals, arrays and objects become values; every other
  expression is kept as it is.

  Key definitions include:
    * `Value`
    * `Value.span`
    * `Value.ofExpr`
    * `Value.fields`
    * `Literal.named`
    * `Literal.unnamed`
-/

namespace ComponentLoader

------------------------------------------------------------
-- Values
------------------------------------------------------------

/- A value read off an expression. -/
inductive Value where
  /- `true` or `false`. -/
  | bool (span : Span) (value : Bool)
  /- A number. -/
  | num (span : Span) (value : Binary64)
  /- A string. -/
  | str (span : Span) (value : Text)
  /- An array, element by element. -/
  | seq (span : Span) (items : List Value)
  /- An object: its named entries, and those without. -/
  | map (literal : Literal) (entries : List (Text × Value))
      (additional : List Script.Entry)
  /- Any other expression. -/
  | expr (value : Script.Expr)
  /- A named entry without a paired value. -/
  | prop (entry : Script.Entry)
  /- A spread element of an array. -/
  | element (value : Script.Element)
  /- A missing element of an array. -/
  | hole

namespace Value

/- The span of the code that a value was read off. -/
def span : Value → Span
  | bool span _ => span
  | num span _ => span
  | str span _ => span
  | seq span _ => span
  | map literal _ _ => literal.span
  | expr e => e.span
  | prop entry => entry.span
  | element e => e.span
  | hole => Span.nowhere

/- The text of a string. -/
def text? : Value → Option Text
  | str _ t => some t
  | _ => none

/- The truth value of `true` or `false`. -/
def bool? : Value → Option Bool
  | bool _ b => some b
  | _ => none

/- The path of an import. -/
def importPath? : Value → Option Text
  | expr e => e.importPath?
  | _ => none

end Value

------------------------------------------------------------
-- Reading
------------------------------------------------------------

/- The entries of a literal without a fixed name. -/
def Literal.unnamed
    (l : Literal) : List Script.Entry :=
  l.entries.filter fun e => e.name?.isNone

mutual

/- The value of an expression. -/
def Value.ofExpr : Script.Expr → Value
  | .bool span b => .bool span b
  | .num span n => .num span n
  | .str span (some t) => .str span t
  | .object span entries =>
      let literal : Literal :=
        { span := span, entries := entries }
      .map literal (Dict.ofEntries (Value.fields entries))
        literal.unnamed
  | .array span elements =>
      .seq span (Value.ofElements elements)
  | e => .expr e
termination_by structural e => e

/- The names of entries with their values, in order. -/
def Value.fields :
    List Script.Entry → List (Text × Value)
  | [] => []
  | entry :: rest => Value.field entry ++ Value.fields rest
termination_by structural entries => entries

/- The name of an entry with its value, if it has one. -/
def Value.field : Script.Entry → List (Text × Value)
  | .pair _ (some name) value => [(name, Value.ofExpr value)]
  | .other span (some name) role =>
      [(name, .prop (.other span (some name) role))]
  | .pair _ none _ => []
  | .other _ none _ => []
termination_by structural entry => entry

/- The values of the elements of an array. -/
def Value.ofElements :
    List Script.Element → List Value
  | [] => []
  | first :: rest =>
      Value.ofElement first :: Value.ofElements rest
termination_by structural elements => elements

/- The value of an element of an array. -/
def Value.ofElement : Script.Element → Value
  | .hole => .hole
  | .item value => Value.ofExpr value
  | .spread dots value => .element (.spread dots value)
termination_by structural element => element

end

/-
  The named entries of a literal that are asked for.  A
  name written twice has its last value in its first
  place.
-/
def Literal.named
    (l : Literal)
    (wanted : Text → Bool) : Dict Value :=
  Dict.ofEntries
    ((Value.fields l.entries).filter fun f => wanted f.1)

end ComponentLoader
