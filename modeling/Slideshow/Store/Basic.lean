import Slideshow.Store.Path
import Slideshow.Encoding.Utf8
import Slideshow.Failure

/-! # Files and directories

A store is a tree of names below a root, seen from a working directory. A path is followed name by
name, and every name but the last has to lead to a directory.
-/
namespace Slideshow

inductive Entry
  | file (contents : Bytes)
  | directory
  deriving DecidableEq, Repr

/-- Entries by the names that lead to them from the root. -/
structure Store where
  home : List Text
  entries : List (List Text × Entry)
  deriving DecidableEq, Repr

namespace Store

/-- The entry at the end of some names. -/
def get? (s : Store) (names : List Text) : Option Entry :=
  if names = [] then some .directory else s.entries.lookup names

def put (s : Store) (names : List Text) (e : Entry) : Store :=
  { s with entries := (names, e) :: s.entries.filter (·.1 ≠ names) }

theorem get?_put_self (s : Store) {names : List Text} (e : Entry) (h : names ≠ []) :
    (s.put names e).get? names = some e := by
  simp [get?, put, h]

def isDirectoryAt (s : Store) (names : List Text) : Bool := s.get? names = some .directory

/-- Follow names from a place; the result exists. -/
def walk (s : Store) (place : List Text) : List Text → Except FileFault (List Text)
  | [] => .ok place
  | name :: names =>
    if !s.isDirectoryAt place then .error .notDirectory
    else if name = [] ∨ name = ("." : Text) then walk s place names
    else if name = (".." : Text) then walk s place.dropLast names
    else if 255 < (Utf8.encode name).length then .error .nameTooLong
    else
      match s.get? (place ++ [name]) with
      | none => .error .missing
      | some _ => walk s (place ++ [name]) names

/-- The place where the names of a path start. -/
def startOf (s : Store) (path : Text) : List Text := if Path.isAbsolute path then [] else s.home

/-- The names of what a path leads to. -/
def locate (s : Store) (path : Text) : Except FileFault (List Text) :=
  if path = [] then .error .missing else s.walk (s.startOf path) (Text.pieces '/' path)

/-- The absolute path without dots of what a path leads to. -/
def canonical? (s : Store) (path : Text) : Option Text :=
  match s.locate path with
  | .ok names => some (Path.ofNames names)
  | .error _ => none

/-- An absolute path even for what does not exist. -/
def absolute (s : Store) (path : Text) : Text :=
  (s.canonical? path).getD (Path.join (Path.ofNames s.home) path)

def pathExists (s : Store) (path : Text) : Bool := (s.locate path).isOk

def isDirectory (s : Store) (path : Text) : Bool :=
  match s.locate path with
  | .ok names => s.isDirectoryAt names
  | .error _ => false

def read (s : Store) (path : Text) : Except FileFault Bytes := do
  match s.get? (← s.locate path) with
  | some (.file contents) => .ok contents
  | some .directory => .error .isDirectory
  | none => .error .missing

/-- The place of a new entry: the names of its directory, and its own name. -/
def locateNew (s : Store) (path : Text) : Except FileFault (List Text × Text) := do
  if path = [] then .error .missing
  else
    let names := Text.pieces '/' path
    let place ← s.walk (s.startOf path) names.dropLast
    if !s.isDirectoryAt place then .error .notDirectory
    else if 255 < (Utf8.encode (names.getLastD [])).length then .error .nameTooLong
    else .ok (place, names.getLastD [])

/-- Write a file, new or in place of another one. -/
def writeFile (s : Store) (path : Text) (contents : Bytes) : Except FileFault Store := do
  let (place, name) ← s.locateNew path
  if name = [] ∨ name = ("." : Text) ∨ name = (".." : Text) then .error .isDirectory
  else if s.isDirectoryAt (place ++ [name]) then .error .isDirectory
  else .ok (s.put (place ++ [name]) (.file contents))

/-- The slashes at the end of a path say nothing where a directory is made. -/
def makeDirectory (s : Store) (path : Text) : Except FileFault Store := do
  let path := (path.reverse.dropWhile (· = '/')).reverse
  let (place, name) ← s.locateNew (if path = [] then "/" else path)
  if name = [] ∨ name = ("." : Text) ∨ name = (".." : Text) then .error .exists
  else if (s.get? (place ++ [name])).isSome then .error .exists
  else .ok (s.put (place ++ [name]) .directory)

/-- Make a directory and those that lead to it, at most `depth` of them. What was made before a
fault stays. -/
def makeDirectories (s : Store) (depth : Nat) (path : Text) : Store × Except FileFault Unit :=
  if path = [] then (s, .ok ())
  else
    match s.makeDirectory path, depth with
    | .ok made, _ => (made, .ok ())
    | .error .missing, depth + 1 =>
      match Path.parent? path with
      | none => (s, .error .missing)
      | some parent =>
        match s.makeDirectories depth parent with
        | (made, .error fault) => (made, .error fault)
        | (made, .ok ()) =>
          match made.makeDirectory path with
          | .ok made => (made, .ok ())
          | .error fault => (made, if made.isDirectory path then .ok () else .error fault)
    | .error fault, _ => (s, if s.isDirectory path then .ok () else .error fault)

/-- Make the directory that holds a path, if it does not exist. -/
def makeParent (s : Store) (path : Text) : Store × Except Failure Unit :=
  match Path.parent? path with
  | none => (s, .ok ())
  | some parent =>
    if parent = [] || s.pathExists parent then (s, .ok ())
    else (s.makeDirectories parent.length parent).map id (·.mapError (.write parent))

/-- Write a file and make the directories that lead to it. -/
def save (s : Store) (path : Text) (contents : Bytes) : Store × Except Failure Unit :=
  match s.makeParent path with
  | (s, .error failure) => (s, .error failure)
  | (s, .ok ()) =>
    match s.writeFile path contents with
    | .ok s => (s, .ok ())
    | .error fault => (s, .error (.write path fault))

/-- Whether a path leads to a file, and the failure if it does not. -/
def requireFile (s : Store) (path : Text) : Except Failure Unit :=
  if path = [] || !s.pathExists path then .error (.pathNotFound path)
  else
    match s.read path with
    | .error .isDirectory => .error (.read (.noFile path))
    | _ => .ok ()

end Store

end Slideshow
