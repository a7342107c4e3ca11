import Slideshow.Text.Blank
import Slideshow.Text.Escaped

/-! # Inline markup of reStructuredText

A paragraph is read as spans. At each place the first construct that fits wins, in the order
literal, strong, emphasis, link, interpreted text; where none fits the character stands for
itself. A span remembers its delimiters, so the spans of a text spell the text.
-/
namespace Slideshow.Restructured
open Text

inductive Span
  | plain (c : Char)
  | literal (text : Text)
  | strong (text : Text)
  | emphasis (text : Text)
  /-- The label, the white space after it, the target, and whether the reference is anonymous. -/
  | link (label gap target : Text) (anonymous : Bool)
  | interpreted (text : Text)
  deriving DecidableEq, Repr

namespace Span

/-- The marked-up text that a span is read from. -/
def source : Span → Text
  | plain c => [c]
  | literal t => "``" ++ t ++ "``"
  | strong t => "**" ++ t ++ "**"
  | emphasis t => "*" ++ t ++ "*"
  | link label gap target anonymous =>
    "`" ++ label ++ gap ++ "<" ++ target ++ ">`_" ++ (if anonymous then ['_'] else [])
  | interpreted t => "`" ++ t ++ "`"

def html : Span → Text
  | plain c => escapedChar c
  | literal t => "<code>" ++ escaped t ++ "</code>"
  | strong t => "<strong>" ++ escaped t ++ "</strong>"
  | emphasis t => "<em>" ++ escaped t ++ "</em>"
  | link label _ target _ =>
    "<a href=\"" ++ escapedAttribute (trim target) ++ "\">" ++ escaped label ++ "</a>"
  | interpreted t => "<cite>" ++ escaped t ++ "</cite>"

theorem source_ne_nil (sp : Span) : sp.source ≠ [] := by cases sp <;> simp [source]

/-- The shortest nonempty text up to the closing mark, all on one line. -/
def upTo? (close : Text) : Text → Option (Text × Text)
  | [] => none
  | c :: s =>
    if c = '\n' then none
    else match dropAffix? close s with
      | some rest => some ([c], rest)
      | none => (upTo? close s).map fun p => (c :: p.1, p.2)

theorem eq_append_of_upTo? {close s t rest : Text} (h : upTo? close s = some (t, rest)) :
    s = t ++ close ++ rest := by
  induction s generalizing t with
  | nil => simp [upTo?] at h
  | cons c s ih =>
    simp only [upTo?] at h
    split at h
    · simp at h
    · split at h
      · next r hr =>
        rw [dropAffix?_eq_some_iff] at hr
        simp only [Option.some.injEq, Prod.mk.injEq] at h
        obtain ⟨rfl, rfl⟩ := h
        simp [hr]
      · obtain ⟨⟨b, a⟩, hp, hq⟩ := Option.map_eq_some_iff.1 h
        simp only [Prod.mk.injEq] at hq
        obtain ⟨rfl, rfl⟩ := hq
        simp [ih hp]

/-- The shortest text that ends in a character fit to stand before the closing mark. -/
def endingAt? (stop : Char → Bool) (close : Text) : Text → Option (Text × Text)
  | [] => none
  | c :: s =>
    match if isBlank c || c = '*' then none else dropAffix? close s with
    | some rest => some ([c], rest)
    | none => if stop c then none else (endingAt? stop close s).map fun p => (c :: p.1, p.2)

theorem eq_append_of_endingAt? {stop : Char → Bool} {close s t rest : Text}
    (h : endingAt? stop close s = some (t, rest)) : s = t ++ close ++ rest := by
  induction s generalizing t with
  | nil => simp [endingAt?] at h
  | cons c s ih =>
    simp only [endingAt?] at h
    split at h
    · next r hr =>
      split at hr
      · simp at hr
      · rw [dropAffix?_eq_some_iff] at hr
        simp only [Option.some.injEq, Prod.mk.injEq] at h
        obtain ⟨rfl, rfl⟩ := h
        simp [hr]
    · split at h
      · simp at h
      · obtain ⟨⟨b, a⟩, hp, hq⟩ := Option.map_eq_some_iff.1 h
        simp only [Prod.mk.injEq] at hq
        obtain ⟨rfl, rfl⟩ := hq
        simp [ih hp]

/-- Text between a closing mark and the opening mark before it: neither end is white space or a
star, and a longer text is tried before a single character. -/
def enclosed? (stop : Char → Bool) (close : Text) : Text → Option (Text × Text)
  | [] => none
  | c :: s =>
    if isBlank c || c = '*' then none
    else match endingAt? stop close s with
      | some (t, rest) => some (c :: t, rest)
      | none => (dropAffix? close s).map fun rest => ([c], rest)

theorem eq_append_of_enclosed? {stop : Char → Bool} {close s t rest : Text}
    (h : enclosed? stop close s = some (t, rest)) : s = t ++ close ++ rest := by
  cases s with
  | nil => simp [enclosed?] at h
  | cons c s =>
    simp only [enclosed?] at h
    split at h
    · simp at h
    · split at h
      · next hq =>
        simp only [Option.some.injEq, Prod.mk.injEq] at h
        obtain ⟨rfl, rfl⟩ := h
        simp [eq_append_of_endingAt? hq]
      · obtain ⟨r, hr, hq⟩ := Option.map_eq_some_iff.1 h
        rw [dropAffix?_eq_some_iff] at hr
        simp only [Prod.mk.injEq] at hq
        obtain ⟨rfl, rfl⟩ := hq
        simp [hr]

/-- A label before an angle bracket: white space at its end belongs to the gap, except that a
label has at least one character. -/
def labelled (s : Text) : Text × Text :=
  match s with
  | [] => ([], [])
  | c :: s => (c :: trimRight s, s.drop (trimRight s).length)

theorem trimRight_append_drop (s : Text) : trimRight s ++ s.drop (trimRight s).length = s := by
  have h : trimRight s <+: s := by
    have := (List.dropWhile_suffix isBlank (l := s.reverse)).reverse
    simpa [trimRight] using this
  obtain ⟨t, ht⟩ := h
  have : s.drop (trimRight s).length = t := by
    conv => lhs; arg 2; rw [← ht]
    exact List.drop_left
  rw [this, ht]

theorem labelled_append (s : Text) : (labelled s).1 ++ (labelled s).2 = s := by
  cases s with
  | nil => rfl
  | cons c s => simp [labelled, trimRight_append_drop]

/-- A link, read after its opening backquote. -/
def link? (s : Text) : Option (Span × Text) :=
  let label := s.takeWhile fun c => c ≠ '`' && c ≠ '<'
  if label = [] then none
  else do
    let s ← dropAffix? "<" (s.dropWhile fun c => c ≠ '`' && c ≠ '<')
    let target := s.takeWhile fun c => c ≠ '>' && c ≠ '`'
    if target = [] then none
    else do
      let s ← dropAffix? ">`_" (s.dropWhile fun c => c ≠ '>' && c ≠ '`')
      let (name, gap) := labelled label
      match dropAffix? "_" s with
      | some rest => some (.link name gap target true, rest)
      | none => some (.link name gap target false, s)

theorem source_append_of_link? {s rest : Text} {sp : Span} (h : link? s = some (sp, rest)) :
    '`' :: s = sp.source ++ rest := by
  simp only [link?] at h
  split at h
  · simp at h
  simp only [Option.bind_eq_bind, Option.bind_eq_some_iff] at h
  obtain ⟨s₁, h₁, h⟩ := h
  split at h
  · simp at h
  simp only [Option.bind_eq_some_iff] at h
  obtain ⟨s₂, h₂, h⟩ := h
  rw [dropAffix?_eq_some_iff] at h₁ h₂
  have e₁ := List.takeWhile_append_dropWhile (l := s) (p := fun c => c ≠ '`' && c ≠ '<')
  have e₂ := List.takeWhile_append_dropWhile (l := s₁) (p := fun c => c ≠ '>' && c ≠ '`')
  have el := labelled_append (s.takeWhile fun c => c ≠ '`' && c ≠ '<')
  rw [h₂] at e₂
  rw [h₁, ← e₂, ← el] at e₁
  split at h
  · next r hr =>
    rw [dropAffix?_eq_some_iff] at hr
    simp only [Option.some.injEq, Prod.mk.injEq] at h
    obtain ⟨rfl, rfl⟩ := h
    conv => lhs; rw [← e₁, hr]
    simp [source]
  · simp only [Option.some.injEq, Prod.mk.injEq] at h
    obtain ⟨rfl, rfl⟩ := h
    conv => lhs; rw [← e₁]
    simp [source]

/-- Interpreted text, read after its opening backquote. -/
def interpreted? (s : Text) : Option (Span × Text) :=
  let t := s.takeWhile (· ≠ '`')
  if t = [] then none
  else (dropAffix? "`" (s.dropWhile (· ≠ '`'))).map fun rest => (.interpreted t, rest)

theorem source_append_of_interpreted? {s rest : Text} {sp : Span}
    (h : interpreted? s = some (sp, rest)) : '`' :: s = sp.source ++ rest := by
  simp only [interpreted?] at h
  split at h
  · simp at h
  obtain ⟨r, hr, hq⟩ := Option.map_eq_some_iff.1 h
  rw [dropAffix?_eq_some_iff] at hr
  have e := List.takeWhile_append_dropWhile (l := s) (p := fun c => decide (c ≠ '`'))
  simp only [Prod.mk.injEq] at hq
  obtain ⟨rfl, rfl⟩ := hq
  rw [hr] at e
  conv => lhs; rw [← e]
  simp [source]

def literal? (s : Text) : Option (Span × Text) := do
  let s ← dropAffix? "``" s
  (upTo? "``" s).map fun p => (.literal p.1, p.2)

def strong? (s : Text) : Option (Span × Text) := do
  let s ← dropAffix? "**" s
  (enclosed? (· = '\n') "**" s).map fun p => (.strong p.1, p.2)

def emphasis? (s : Text) : Option (Span × Text) := do
  let s ← dropAffix? "*" s
  (enclosed? (· = '*') "*" s).map fun p => (.emphasis p.1, p.2)

def quoted? (s : Text) : Option (Span × Text) := do
  let s ← dropAffix? "`" s
  link? s <|> interpreted? s

/-- The construct that starts a text. -/
def ofMarked? (s : Text) : Option (Span × Text) :=
  literal? s <|> strong? s <|> emphasis? s <|> quoted? s

theorem source_append_of_marked? {s rest : Text} {sp : Span} (h : ofMarked? s = some (sp, rest)) :
    s = sp.source ++ rest := by
  simp only [ofMarked?, literal?, strong?, emphasis?, quoted?, Option.orElse_eq_orElse,
    Option.orElse_eq_or, Option.or_eq_some_iff, Option.bind_eq_bind, Option.bind_eq_some_iff,
    Option.map_eq_some_iff, dropAffix?_eq_some_iff, Prod.mk.injEq] at h
  rcases h with ⟨_, rfl, p, hp, rfl, rfl⟩ | ⟨-, ⟨_, rfl, p, hp, rfl, rfl⟩ |
    ⟨-, ⟨_, rfl, p, hp, rfl, rfl⟩ | ⟨-, u, rfl, h⟩⟩⟩
  · simp [source, eq_append_of_upTo? hp]
  · simp [source, eq_append_of_enclosed? hp]
  · simp [source, eq_append_of_enclosed? hp]
  · rcases h with h | ⟨-, h⟩
    · simpa using source_append_of_link? h
    · simpa using source_append_of_interpreted? h

end Span

/-- The spans of a text. -/
def spans (s : Text) : List Span :=
  match s with
  | [] => []
  | c :: t =>
    match _span : Span.ofMarked? (c :: t) with
    | some (sp, rest) => sp :: spans rest
    | none => .plain c :: spans t
termination_by s.length
decreasing_by
  · have h := congrArg List.length (Span.source_append_of_marked? _span)
    have := List.length_pos_iff.2 sp.source_ne_nil
    simp only [List.length_append] at h
    omega
  · simp

/-- The spans of a text spell it. -/
theorem flatMap_source_spans (s : Text) : (spans s).flatMap Span.source = s := by
  fun_induction spans s with
  | case1 => rfl
  | case2 c t sp rest h ih => simp [ih, ← Span.source_append_of_marked? h]
  | case3 c t h ih => simp [ih, Span.source]

/-- Inline markup as HTML. -/
def inlineHtml (s : Text) : Text := (spans s).flatMap Span.html

end Slideshow.Restructured
