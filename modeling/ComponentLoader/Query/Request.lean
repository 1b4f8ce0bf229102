import ComponentLoader.Query.Parser
import ComponentLoader.Query.Printer

/-
  This file defines requests: a resource path and a query
  behind the first question mark.

  Key definitions include:
    * `Request`
    * `Request.splitText`
    * `Request.parse`
    * `Request.render`
    * `Request.withParams`
    * `Request.encode`
    * `Request.extend`
-/

namespace ComponentLoader

------------------------------------------------------------
-- Requests
------------------------------------------------------------

/- A resource path and the query of the request for it. -/
structure Request where
  path : Text
  query : Query

namespace Request

/-
  The path of a written request, and its query string if
  it has a question mark.  Further question marks belong
  to the query.
-/
def splitText
    (request : Text) : Text × Option Text :=
  match Text.splitOnce '?' request with
  | some (path, query) => (path, some query)
  | none => (request, none)

/- The query of an optional query string. -/
def queryOf : Option Text → Query
  | some text => Query.parse text
  | none => Query.empty

/- The request written by a text. -/
def parse
    (request : Text) : Request :=
  let parts := splitText request
  { path := parts.1, query := queryOf parts.2 }

/- A request as text; an empty query is not written. -/
def render
    (r : Request) : Text :=
  if r.query.isEmpty then
    r.path
  else
    r.path ++ ['?'] ++ r.query.render

/- A request with further parameters merged in. -/
def withParams
    (r : Request)
    (extra : Query) : Request :=
  { r with query := r.query.merge extra }

------------------------------------------------------------
-- Writing requests
------------------------------------------------------------

/- A path with an existing query and extra parameters. -/
def encode
    (path : Text)
    (existing : Option Text)
    (extra : Query) : Text :=
  render
    { path := path
      query := (queryOf existing).merge extra }

/- A written request with extra parameters. -/
def extend
    (request : Text)
    (extra : Query) : Text :=
  let parts := splitText request
  encode parts.1 parts.2 extra

end Request

end ComponentLoader
