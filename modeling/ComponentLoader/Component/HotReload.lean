import ComponentLoader.Dict
import ComponentLoader.Text.Quoted

/-
  This file defines the table of the components of a file
  and the code for hot reload that is made from it.

  Key definitions include:
    * `HotReload.Record`
    * `HotReload.Table`
    * `HotReload.glue`
-/

namespace ComponentLoader
namespace HotReload

------------------------------------------------------------
-- The Table Of Components
------------------------------------------------------------

/- What hot reload needs to know about a component. -/
structure Record where
  /- The scope id of the component. -/
  scopeId : Text
  /- The request of its template, if that is compiled. -/
  template : Option Text
  deriving DecidableEq

/- The components of a file by class name, in order. -/
abbrev Table :=
  Dict Record

------------------------------------------------------------
-- Generated Code
------------------------------------------------------------

/- The module that reloads components. -/
def apiModule : Text :=
  "vue-hot-reload-api".toList

/- The lines before those of the components. -/
def opening : Text :=
  "/* hot reload */\nif (module.hot) \x7b\n  var api = require(".toList ++
    Text.quote apiModule ++
    (")\n  api.install(require(\"vue\"))\n  if (api.compatible) \x7b\n" ++
      "    module.hot.accept()\n").toList

/- The lines that record or reload a component. -/
def reloadLines
    (name id : Text) : Text :=
  "    if (!api.isRecorded(".toList ++ id ++ ")) \x7b\n".toList ++
    "      api.createRecord(".toList ++ id ++ ", ".toList ++
    name ++ ".options)\n".toList ++
    "    \x7d else \x7b\n".toList ++
    "      api.reload(".toList ++ id ++ ", ".toList ++
    name ++ ".options)\n".toList ++ "    \x7d\n".toList

/- The lines that follow changes of a template. -/
def rerenderLines
    (id request : Text) : Text :=
  "    module.hot.accept(".toList ++ request ++
    ", function () \x7b\n".toList ++
    "      api.rerender(".toList ++ id ++ ", require(".toList ++
    request ++ "))\n".toList ++ "    \x7d)\n".toList

/- The lines of a component. -/
def componentLines
    (name : Text)
    (record : Record) : Text :=
  let id := Text.quote record.scopeId
  reloadLines name id ++
    match record.template with
    | some request => rerenderLines id (Text.quote request)
    | none => []

/- The lines after those of the components. -/
def closing : Text :=
  "  \x7d\n\x7d\n".toList

/- The code for a table; none for an empty one. -/
def glue
    (table : Table) : Text :=
  if table.isEmpty then
    []
  else
    opening ++
      (table.flatMap fun entry =>
        componentLines entry.1 entry.2) ++
      closing

end HotReload
end ComponentLoader
