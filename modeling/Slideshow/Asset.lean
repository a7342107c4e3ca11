import Slideshow.Encoding.Utf8
import Slideshow.Store.Basic
import Slideshow.Theme
import Slideshow.Url.Basic

/-! # Style sheets and scripts -/
namespace Slideshow

inductive Asset.Kind
  | css
  | js
  deriving DecidableEq, Repr

structure Asset where
  kind : Asset.Kind
  /-- The path as it was given; built-in assets have none. -/
  path : Text
  url : Option Text
  contents : Text
  deriving DecidableEq, Repr

namespace Asset

def Kind.name : Kind → Text
  | css => "css"
  | js => "js"

def builtIn (kind : Kind) (contents : Text) : Asset := ⟨kind, [], none, contents⟩

def themeStyle : Asset := builtIn .css Theme.styleSheet

def themeScript : Asset := builtIn .js Theme.script

def load (store : Store) (kind : Kind) (path : Text) : Except Failure Asset :=
  if !store.pathExists path then .error (.pathNotFound path)
  else
    match store.read path with
    | .error fault => .error (.read fault)
    | .ok bytes =>
      match Utf8.decode? bytes with
      | none => .error (.read .noUtf8)
      | some contents => .ok ⟨kind, path, (store.canonical? path).map Url.ofPath, contents⟩

/-- The address that links to an asset: its path if that is kept as it is, else its URL. -/
def address? (a : Asset) (relative : Bool) : Option Text :=
  if relative then if a.path = [] then none else some a.path else a.url

/-- The HTML that includes an asset, by its contents or by its address if it has one. -/
def tag (a : Asset) (embed relative : Bool) : Text :=
  match a.kind, if embed then none else a.address? relative with
  | .css, some href => "<link rel=\"stylesheet\" href=\"" ++ href ++ "\">"
  | .js, some href => "<script src=\"" ++ href ++ "\"></script>"
  | .css, none => "<style>" ++ a.contents ++ "</style>"
  | .js, none => "<script>" ++ a.contents ++ "</script>"

end Asset

end Slideshow
