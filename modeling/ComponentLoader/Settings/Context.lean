import ComponentLoader.Path
import ComponentLoader.Settings.Options

/-
  This file defines what the build says about one file,
  and the settings that follow for it.

  Key definitions include:
    * `Context`
    * `Context.ofPath`
    * `Context.shortPath`
    * `Context.isServer`
    * `Settings`
    * `Settings.resolve`
    * `Settings.emitsHotReload`
-/

namespace ComponentLoader

------------------------------------------------------------
-- Contexts
------------------------------------------------------------

/- What the build says about the file at hand. -/
structure Context where
  /- The path of the file. -/
  path : Text
  /- The directory that short paths start from. -/
  root : Text
  /- Whether the build minimizes its output. -/
  minimize : Bool := false
  /- What the build is for, such as `web` or `node`. -/
  target : Option Text := none
  /- The request that asked for the file. -/
  request : Text

namespace Context

/- The context of a file rooted at its directory. -/
def ofPath
    (path : Text) : Context :=
  { path := path
    root := (Path.parent? path).getD []
    request := path }

/-
  The path from the root, its components joined by
  slashes, or the whole path if it is not below the root.
-/
def shortPath
    (c : Context) : Text :=
  match Path.relativeComponents? c.root c.path with
  | some components => Text.join ['/'] components
  | none => c.path

/- Whether the build is for rendering on a server. -/
def isServer
    (c : Context) : Bool :=
  c.target == some "node".toList

end Context

------------------------------------------------------------
-- Settings
------------------------------------------------------------

/- What options and context come to for one file. -/
structure Settings where
  production : Bool
  server : Bool
  hotReload : Bool
  shortPath : Text
  decoratorName : Text
  templateName : Text
  stylesName : Text

namespace Settings

/- The settings for a file. -/
def resolve
    (c : Context)
    (o : Options) : Settings :=
  { production := o.production || c.minimize
    server := c.isServer
    hotReload := o.hotReload
    shortPath := c.shortPath
    decoratorName := o.decoratorName
    templateName := o.templateName
    stylesName := o.stylesName }

/- Whether code for hot reload is appended. -/
def emitsHotReload
    (s : Settings) : Bool :=
  s.hotReload && !s.server && !s.production

end Settings
end ComponentLoader
