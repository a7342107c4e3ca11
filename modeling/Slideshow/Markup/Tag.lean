import Slideshow.Text.Word

/-! # Tags in HTML text

HTML is read as a sequence of comments, tags and plain text, with no regard to nesting. A comment
hides the tags inside it. A tag is an angle bracket, a name of ASCII letters and digits, and
anything up to the next closing bracket; what is neither is plain text. The tokens of a text spell
the text.
-/
namespace Slideshow.Markup
open Text

structure Tag where
  closing : Bool
  name : Text
  /-- Everything between the name and the end of the tag. -/
  attributes : Text
  selfClosing : Bool
  deriving DecidableEq, Repr

def Tag.source (t : Tag) : Text :=
  "<" ++ (if t.closing then ['/'] else []) ++ t.name ++ t.attributes
    ++ (if t.selfClosing then ['/'] else []) ++ ['>']

/-- The tag whose name starts a text, and the text after it. -/
def Tag.readNamed? (closing : Bool) (s : Text) : Option (Tag × Text) :=
  let name := s.takeWhile Char.isAlphanum
  let s := s.dropWhile Char.isAlphanum
  if !name.head?.any Char.isAlpha || s.head?.any isWord then none
  else do
    let inside := s.takeWhile (· ≠ '>')
    let rest ← dropAffix? ">" (s.dropWhile (· ≠ '>'))
    match dropEnding? "/" inside with
    | some attributes => some (⟨closing, name, attributes, true⟩, rest)
    | none => some (⟨closing, name, inside, false⟩, rest)

/-- The tag that starts a text, and the text after it. -/
def Tag.read? (s : Text) : Option (Tag × Text) := do
  let s ← dropAffix? "<" s
  match dropAffix? "/" s with
  | some rest => readNamed? true rest
  | none => readNamed? false s

theorem Tag.eq_source_append_of_readNamed? {closing : Bool} {s rest : Text} {t : Tag}
    (h : Tag.readNamed? closing s = some (t, rest)) :
    "<" ++ (if closing then ['/'] else []) ++ s = t.source ++ rest := by
  simp only [Tag.readNamed?] at h
  split at h
  · simp at h
  simp only [Option.bind_eq_bind, Option.bind_eq_some_iff, dropAffix?_eq_some_iff] at h
  obtain ⟨r, hr, h⟩ := h
  have e₁ := List.takeWhile_append_dropWhile (l := s) (p := Char.isAlphanum)
  have e₂ := List.takeWhile_append_dropWhile (l := s.dropWhile Char.isAlphanum)
    (p := fun c => decide (c ≠ '>'))
  rw [hr] at e₂
  rw [← e₂] at e₁
  split at h
  · next attributes ha =>
    rw [dropEnding?_eq_some_iff] at ha
    simp only [Option.some.injEq, Prod.mk.injEq] at h
    obtain ⟨rfl, rfl⟩ := h
    rw [ha] at e₁
    conv => lhs; rw [← e₁]
    simp [Tag.source]
  · simp only [Option.some.injEq, Prod.mk.injEq] at h
    obtain ⟨rfl, rfl⟩ := h
    conv => lhs; rw [← e₁]
    simp [Tag.source]

theorem Tag.eq_source_append_of_read? {s rest : Text} {t : Tag}
    (h : Tag.read? s = some (t, rest)) : s = t.source ++ rest := by
  simp only [Tag.read?, Option.bind_eq_bind, Option.bind_eq_some_iff, dropAffix?_eq_some_iff] at h
  obtain ⟨u, rfl, h⟩ := h
  split at h
  · next v hv =>
    rw [dropAffix?_eq_some_iff] at hv
    have e := Tag.eq_source_append_of_readNamed? h
    rw [← e, hv]
    simp
  · simpa using Tag.eq_source_append_of_readNamed? h

inductive Token
  | comment (body : Text)
  | tag (t : Tag)
  | plain (text : Text)
  deriving DecidableEq, Repr

def Token.source : Token → Text
  | comment body => "<!--" ++ body ++ "-->"
  | tag t => t.source
  | plain text => text

/-- The body of the comment that starts a text, and the text after it. -/
def comment? (s : Text) : Option (Text × Text) := do
  cutAt? "-->" (← dropAffix? "<!--" s)

theorem eq_source_append_of_comment? {s body rest : Text} (h : comment? s = some (body, rest)) :
    s = (Token.comment body).source ++ rest := by
  simp only [comment?, Option.bind_eq_bind, Option.bind_eq_some_iff, dropAffix?_eq_some_iff] at h
  obtain ⟨t, rfl, h⟩ := h
  simp [Token.source, eq_append_of_cutAt? h]

/-- The comment or tag that starts a text, and the text after it. -/
def Token.ofMarkup? (s : Text) : Option (Token × Text) :=
  (comment? s).map (fun p => (.comment p.1, p.2)) <|>
    (Tag.read? s).map (fun p => (.tag p.1, p.2))

theorem Token.eq_source_append_of_markup? {s rest : Text} {t : Token}
    (h : ofMarkup? s = some (t, rest)) : s = t.source ++ rest := by
  simp only [ofMarkup?, Option.orElse_eq_orElse, Option.orElse_eq_or, Option.or_eq_some_iff,
    Option.map_eq_some_iff, Prod.mk.injEq] at h
  rcases h with ⟨p, hp, rfl, rfl⟩ | ⟨-, p, hp, rfl, rfl⟩
  · exact eq_source_append_of_comment? hp
  · simpa [source] using Tag.eq_source_append_of_read? hp

theorem Token.source_ne_nil_of_markup? {s rest : Text} {t : Token}
    (h : ofMarkup? s = some (t, rest)) : t.source ≠ [] := by
  simp only [ofMarkup?, Option.orElse_eq_orElse, Option.orElse_eq_or, Option.or_eq_some_iff,
    Option.map_eq_some_iff, Prod.mk.injEq] at h
  rcases h with ⟨p, hp, rfl, rfl⟩ | ⟨-, p, hp, rfl, rfl⟩ <;> simp [source, Tag.source]

/-- The tokens of a text. -/
def tokens (s : Text) : List Token :=
  match s with
  | [] => []
  | c :: t =>
    match _token : Token.ofMarkup? (c :: t) with
    | some (token, rest) => token :: tokens rest
    | none => .plain (c :: t.takeWhile (· ≠ '<')) :: tokens (t.dropWhile (· ≠ '<'))
termination_by s.length
decreasing_by
  · have h := congrArg List.length (Token.eq_source_append_of_markup? _token)
    have := List.length_pos_iff.2 (Token.source_ne_nil_of_markup? _token)
    simp only [List.length_append] at h
    omega
  · have := (List.dropWhile_suffix (fun c => decide (c ≠ '<')) (l := t)).length_le
    simp only [List.length_cons]
    omega

/-- The text that some tokens spell. -/
def spell (ts : List Token) : Text := ts.flatMap Token.source

theorem spell_tokens (s : Text) : spell (tokens s) = s := by
  fun_induction tokens s with
  | case1 => rfl
  | case2 c t token rest h ih =>
    simp only [spell, List.flatMap_cons] at ih ⊢
    rw [ih, ← Token.eq_source_append_of_markup? h]
  | case3 c t h ih =>
    simp only [spell, List.flatMap_cons, Token.source] at ih ⊢
    rw [ih]
    simp

/-- The text without its comments. -/
def uncommented (s : Text) : Text :=
  match s with
  | [] => []
  | c :: t =>
    match _comment : comment? (c :: t) with
    | some (_, rest) => uncommented rest
    | none => c :: uncommented t
termination_by s.length
decreasing_by
  · have h := congrArg List.length (eq_source_append_of_comment? _comment)
    simp [Token.source] at h ⊢
    omega
  · simp

end Slideshow.Markup
