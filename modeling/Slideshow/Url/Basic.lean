import Slideshow.Url.Host

/-! # URLs

Two questions are asked about the address of an image: whether it is a URL by itself, and which
URL it makes below the directory of a document.
-/
namespace Slideshow.Url
open Text

/-- Spaces and controls around a URL and line breaks and tabs inside it say nothing. -/
def cleaned (s : Text) : Text :=
  let isMargin : Char → Bool := fun c => c.toNat ≤ 32
  ((s.dropWhile isMargin).reverse.dropWhile isMargin).reverse.filter fun c =>
    c ≠ '\t' && c ≠ '\n' && c ≠ '\r'

/-- The scheme of a URL in small letters, and what follows its colon. -/
def scheme? (s : Text) : Option (Text × Text) :=
  let isScheme : Char → Bool := fun c => c.isAlphanum || c = '+' || c = '-' || c = '.'
  match s.dropWhile isScheme with
  | ':' :: rest =>
    let scheme := s.takeWhile isScheme
    if scheme.head?.any Char.isAlpha then some (scheme.map Char.toLower, rest) else none
  | _ => none

/-- Schemes with hosts, other than that of files. -/
def hostedSchemes : List Text := ["http", "https", "ws", "wss", "ftp"]

def isSlash (c : Char) : Bool := c = '/' || c = '\\'

/-- Digits up to the end of the authority: the number of a service on the host, of 16 bits. -/
def isServiceNumber (s : Text) : Bool :=
  let digits := s.takeWhile Char.isDigit
  (value? digits).any (· < 65536) &&
    (s.dropWhile Char.isDigit).head?.all fun c => isSlash c || c = '?' || c = '#'

/-- The host at the front of a text, up to a service number or the end of the authority. -/
def hostAndRest (special inBrackets : Bool) : Text → Text × Text
  | [] => ([], [])
  | c :: s =>
    if c = ':' && !inBrackets || c = '\\' && special || c = '/' || c = '?' || c = '#' then
      ([], c :: s)
    else
      let (host, rest) := hostAndRest special (c = '[' || inBrackets && c ≠ ']') s
      (c :: host, rest)

/-- Whether what follows two slashes starts with a valid authority. -/
def isAuthority (special : Bool) (s : Text) : Bool :=
  let isInside : Char → Bool := fun c => c ≠ '/' && c ≠ '?' && c ≠ '#' && !(special && c = '\\')
  let authority := s.takeWhile isInside
  let hasUser := '@' ∈ authority
  let user := ((authority.reverse.dropWhile (· ≠ '@')).drop 1).reverse
  let afterUser := if hasUser then s.drop (user.length + 1) else s
  let (host, rest) := hostAndRest special false afterUser
  let serviceOk := match rest with
    | ':' :: service => isServiceNumber service
    | _ => true
  if host = [] then !special && rest.head? ≠ some ':' && !hasUser
  else (if special then isHost host else isOpaqueHost host) && serviceOk

/-- A drive letter with a colon or a bar. -/
def isDrive (s : Text) : Bool :=
  match s with
  | [a, b] => a.isAlpha && (b = ':' || b = '|')
  | _ => false

/-- The host of a file URL and the rest, read after two slashes. -/
def fileHost (s : Text) : Text × Text :=
  let isInside : Char → Bool := fun c => !isSlash c && c ≠ '?' && c ≠ '#'
  let host := s.takeWhile isInside
  if isDrive host then ([], s) else (host, s.dropWhile isInside)

/-- The usual form of the host of a file URL. The host of the reader's own machine is left out. -/
def writtenFileHost? (host : Text) : Option Text :=
  if host = [] then some []
  else (Host.read? host).map fun h => if h = .domain "localhost" then [] else h.written

/-- Whether a text is a URL by itself. -/
def isAbsolute (s : Text) : Bool :=
  match scheme? (cleaned s) with
  | none => false
  | some (scheme, rest) =>
    if scheme = ("file" : Text) then
      match rest with
      | a :: b :: rest => !(isSlash a && isSlash b) || (writtenFileHost? (fileHost rest).1).isSome
      | _ => true
    else if scheme ∈ hostedSchemes then isAuthority true (rest.dropWhile isSlash)
    else match dropAffix? "//" rest with
      | some rest => isAuthority false rest
      | none => true

/-! ### File URLs -/

/-- Whether a text starts with a drive letter that is a whole segment. -/
def startsWithDrive (s : Text) : Bool :=
  isDrive (s.take 2) && (s.drop 2).head?.all fun c => isSlash c || c = '?' || c = '#'

/-- The segments of a path in a file URL, and what follows it. -/
def segmentsOf (s : Text) : List Text × Text :=
  let isPath : Char → Bool := fun c => c ≠ '?' && c ≠ '#'
  (pieces '/' ((s.takeWhile isPath).map fun c => if c = '\\' then '/' else c), s.dropWhile isPath)

def isDoubleDot (segment : Text) : Bool :=
  let small := segment.map Char.toLower
  small ∈ (["..", ".%2e", "%2e.", "%2e%2e"] : List Text)

def isSingleDot (segment : Text) : Bool :=
  let small := segment.map Char.toLower
  small ∈ ([".", "%2e"] : List Text)

/-- The segments without the last, unless that is the drive. -/
def shortened (done : List Text) : List Text :=
  match done with
  | [s] => if isDrive s then [s] else []
  | _ => done.dropLast

/-- Follow segments from a directory. The result ends with the name of a file, which may be
empty. -/
def follow (done : List Text) : List Text → List Text
  | [] => done ++ [[]]
  | [last] =>
    if isDoubleDot last then shortened done ++ [[]]
    else if isSingleDot last then done ++ [[]]
    else done ++ [if done = [] && isDrive last then [last.headD 'c', ':'] else last]
  | s :: rest =>
    if isDoubleDot s then follow (shortened done) rest
    else if isSingleDot s then follow done rest
    else follow (done ++ [if done = [] && isDrive s then [s.headD 'c', ':'] else s]) rest

/-- A path in a URL; empty segments at its front are dropped. -/
def writePath (segments : List Text) : Text :=
  let inner := segments.dropLast.dropWhile (· = [])
  '/' :: List.intercalate ['/'] (inner ++ [segments.getLastD []])

/-- A query and a fragment, as they follow a path. -/
def writeTail (s : Text) : Text :=
  let query := s.takeWhile (· ≠ '#')
  let query := match query with
    | '?' :: q => '?' :: encode queryReserved q
    | _ => []
  match s.dropWhile (· ≠ '#') with
  | '#' :: f => query ++ '#' :: encode fragmentReserved f
  | _ => query

/-- The names that lead to a directory, written as segments of a URL. -/
def segmentsOfNames (names : List Text) : List Text := names.map (encode nameReserved)

/-- The URL of an absolute path. -/
def ofPath (path : Text) : Text :=
  let names := (pieces '/' path).filter fun n => n ≠ [] && n ≠ ("." : Text)
  "file://" ++ if names = [] then ("/" : Text) else (segmentsOfNames names).flatMap ('/' :: ·)

/-- The URL that a reference makes below a directory, given by its absolute path. -/
def resolve? (directory reference : Text) : Option Text :=
  let base := segmentsOfNames
    ((pieces '/' directory).filter fun n => n ≠ [] && n ≠ ("." : Text))
  let s := cleaned reference
  if (scheme? s).isSome then none
  else
    let write (host : Text) (start : List Text) (s : Text) : Text :=
      let (segments, tail) := segmentsOf s
      "file://" ++ host ++ writePath (follow start (segments.map (encode pathReserved)))
        ++ writeTail tail
    match s with
    | [] => some ("file://" ++ writePath (base ++ [[]]))
    | '?' :: _ => some ("file://" ++ writePath (base ++ [[]]) ++ writeTail s)
    | '#' :: _ => some ("file://" ++ writePath (base ++ [[]]) ++ writeTail s)
    | a :: s' =>
      if isSlash a then
        match s' with
        | b :: rest =>
          if isSlash b then
            let (host, rest) := fileHost rest
            (writtenFileHost? host).map fun host =>
              write host [] (if rest.head?.any isSlash then rest.drop 1 else rest)
          else some (write [] (if startsWithDrive s' then [] else base.take 1 |>.filter isDrive) s')
        | [] => some (write [] (base.take 1 |>.filter isDrive) [])
      else if startsWithDrive s then some (write [] [] s)
      else some (write [] base s)

end Slideshow.Url
