import ComponentLoader.Path

/-
  This file defines the dialects of scripts and how a
  file's extension chooses one.

  Key definitions include:
    * `Dialect`
    * `Dialect.ofPath`
-/

namespace ComponentLoader

------------------------------------------------------------
-- Dialects
------------------------------------------------------------

/- What a script may hold beyond plain ECMAScript. -/
structure Dialect where
  /- Type annotations and declarations. -/
  types : Bool
  /- Markup elements as expressions. -/
  markup : Bool
  deriving DecidableEq, Inhabited

/-
  The dialect of a file.  Extensions are compared with
  case; an unknown or missing one means plain ECMAScript.
-/
def Dialect.ofPath
    (path : Text) : Dialect :=
  match Path.extension? path with
  | none => { types := false, markup := false }
  | some ext =>
      if ext = "ts".toList || ext = "mts".toList ||
          ext = "cts".toList then
        { types := true, markup := false }
      else if ext = "tsx".toList then
        { types := true, markup := true }
      else
        { types := false, markup := ext = "jsx".toList }

end ComponentLoader
