import Slideshow.Template.Expr

/-! # Reading expressions

The inside of a mark is cut into tokens. Disjunctions are cut at `or`, conjunctions at `and`, and
what remains is a comparison of two sums or texts; there are no parentheses.
-/
namespace Slideshow.Template
open Text

/-- White space between tokens. -/
def isGap (c : Char) : Bool := c = ' ' || c = '\t' || c = '\r' || c = '\n'

def isQuote (c : Char) : Bool := c = '"' || c = '\'' || c = '\x60'

def isNameStart (c : Char) : Bool := c.isAlpha || c = '_'

def isNamePart (c : Char) : Bool := c.isAlphanum || c = '_'

/-- Whether a text is a name. -/
def isName (s : Text) : Bool := s.head?.any isNameStart && s.all isNamePart

/-! ### Paths -/

/-- The key of a position in square brackets. -/
def Path.position? (s : Text) : Option Text :=
  (dropEnding? "]" s).filter fun key => (Value.position? key).isSome

/-- The keys of a part between dots: a name, then positions in square brackets. -/
def Path.keys? (s : Text) : Option (List Text) :=
  match pieces '[' s with
  | name :: positions =>
    if name ≠ [] ∧ name.all isNamePart then (name :: ·) <$> positions.mapM Path.position? else none
  | [] => none

def Path.ofText? (s : Text) : Option Path :=
  ((pieces '.' s).mapM Path.keys?).bind fun keys =>
    match keys.flatten with
    | root :: keys => if isName root then some ⟨root, keys⟩ else none
    | [] => none

/-! ### Tokens -/

inductive Token
  | number (n : Nat)
  | text (t : Text)
  | flag (b : Bool)
  | path (p : Path)
  | sign (s : Sign)
  | pipe
  | equal
  | differ
  | not
  | and
  | or
  deriving DecidableEq

namespace Token

def isPathPart (c : Char) : Bool := isNamePart c || c = '.' || c = '[' || c = ']'

/-- A word is a connective only if white space follows it. -/
def ofWord? (word rest : Text) : Option Token :=
  let before := rest.head?.any isGap
  if word = "not" && before then some .not
  else if word = "and" && before then some .and
  else if word = "or" && before then some .or
  else if word = "true" || word = "True" then some (.flag true)
  else if word = "false" || word = "False" then some (.flag false)
  else match Value.position? word with
    | some n => if n < 9223372036854775808 then some (.number n) else none
    | none => .path <$> Path.ofText? word

/-- The token at the front of a text. -/
def read? : Text → Option (Token × Text)
  | [] => none
  | '=' :: '=' :: s => some (.equal, s)
  | '!' :: '=' :: s => some (.differ, s)
  | '+' :: s => some (.sign .plus, s)
  | '-' :: s => some (.sign .minus, s)
  | '|' :: s => some (.pipe, s)
  | c :: s =>
    if isQuote c then (cutAt? [c] s).map fun p => (.text p.1, p.2)
    else if isPathPart c then
      let rest := s.dropWhile isPathPart
      (ofWord? (c :: s.takeWhile isPathPart) rest).map (·, rest)
    else none

theorem length_lt_of_read? {s rest : Text} {t : Token} (h : read? s = some (t, rest)) :
    rest.length < s.length := by
  unfold read? at h
  split at h
  case h_1 => simp at h
  case h_7 c s _ _ _ _ _ =>
    split at h
    · obtain ⟨p, hp, hq⟩ := Option.map_eq_some_iff.1 h
      have := congrArg List.length (eq_append_of_cutAt? hp)
      simp only [Prod.mk.injEq] at hq
      obtain ⟨_, rfl⟩ := hq
      simp at this ⊢
      omega
    · split at h
      · obtain ⟨_, _, hq⟩ := Option.map_eq_some_iff.1 h
        simp only [Prod.mk.injEq] at hq
        obtain ⟨_, rfl⟩ := hq
        have := (List.dropWhile_suffix isPathPart (l := s)).length_le
        simp
        omega
      · simp at h
  all_goals
    simp only [Option.some.injEq, Prod.mk.injEq] at h
    obtain ⟨_, rfl⟩ := h
    simp
    try omega

/-- The tokens of a text, with any white space between them. -/
def all? (s : Text) : Option (List Token) :=
  match _start : s.dropWhile isGap with
  | [] => some []
  | c :: s' =>
    match _token : read? (c :: s') with
    | some (t, rest) => (all? rest).map (t :: ·)
    | none => none
termination_by s.length
decreasing_by
  have h := length_lt_of_read? _token
  have h' := (List.dropWhile_suffix isGap (l := s)).length_le
  rw [_start] at h'
  omega

end Token

/-! ### Expressions -/

namespace Expr

/-- What can stand in a sum. -/
def operand? : Token → Option Expr
  | .number n => some (literal (.number n))
  | .flag b => some (literal (.flag b))
  | .path p => some (path p)
  | _ => none

/-- A sum that goes on. A filter takes the whole sum before it, back to the last filter; `add`
joins this part to the sum before it. -/
def sumFrom (add : Expr → Expr) (filteredYet : Bool) (part : Expr) :
    List Token → Expr × List Token
  | .pipe :: .path ⟨name, []⟩ :: rest => sumFrom add true (filtered part name) rest
  | .sign sign :: t :: rest =>
    match operand? t with
    | some e =>
      if filteredYet then sumFrom (sum sign (add part)) false e rest
      else sumFrom add false (sum sign part e) rest
    | none => (add part, .sign sign :: t :: rest)
  | rest => (add part, rest)

/-- A text with the filters after it. -/
def textFrom (e : Expr) : List Token → Expr × List Token
  | .pipe :: .path ⟨name, []⟩ :: rest => textFrom (filtered e name) rest
  | rest => (e, rest)

def sum? : List Token → Option (Expr × List Token)
  | t :: rest => (operand? t).map fun e => sumFrom id false e rest
  | [] => none

/-- One side of a comparison. -/
def side? : List Token → Option (Expr × List Token)
  | .text t :: rest => some (textFrom (literal (.text t)) rest)
  | ts => sum? ts

def comparison? (ts : List Token) : Option Expr :=
  (side? ts).bind fun
    | (a, []) => some a
    | (a, .equal :: rest) => (side? rest).bind fun
      | (b, []) => some (equal a b)
      | _ => none
    | (a, .differ :: rest) => (side? rest).bind fun
      | (b, []) => some (differ a b)
      | _ => none
    | _ => none

def negation? : List Token → Option Expr
  | .not :: rest => not <$> comparison? rest
  | ts => comparison? ts

/-- Expressions joined from the left. -/
def joined? (join : Expr → Expr → Expr) : List Expr → Option Expr
  | [] => none
  | e :: es => some (es.foldl join e)

def conjunction? (ts : List Token) : Option Expr :=
  ((pieces .and ts).mapM negation?).bind (joined? and)

def ofTokens? (ts : List Token) : Option Expr :=
  ((pieces .or ts).mapM conjunction?).bind (joined? or)

def ofText? (s : Text) : Option Expr := (Token.all? s).bind ofTokens?

end Expr

end Slideshow.Template
