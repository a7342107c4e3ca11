import Slideshow.Text.Pattern
import Slideshow.Text.Blank
import Slideshow.Text.Numeral
import Slideshow.Url.Percent
import Slideshow.Pass.Basic

/-! # Directive paragraphs

A paragraph that starts with a dot and a keyword is no text of the slide. It hides notes, names
effect classes, or describes a QR code.
-/
namespace Slideshow.Pass
open Text

/-- One white space character, if there is one. -/
def gap (s : Text) : Text := (s.take 1).takeWhile isBlank

theorem gap_append_drop (s : Text) : gap s ++ s.drop (gap s).length = s := by
  cases s with
  | nil => rfl
  | cons c s => by_cases h : isBlank c <;> simp [gap, h]

/-- The text up to the end of the paragraph, with line breaks only where they are allowed. -/
def body? (multiline : Bool) (s : Text) : Option (Text × Text) :=
  (cutAt? "</p>" s).filter fun p => multiline || '\n' ∉ p.1

/-- A directive whose text may hold anything: the white space after its colon, its text, and what
ends it. -/
structure Directive where
  gap : Text
  text : Text
  ending : Text
  deriving DecidableEq, Repr

def Directive.spell (keyword : Text) (d : Directive) : Text :=
  "<p>." ++ keyword ++ ":" ++ d.gap ++ d.text ++ "</p>" ++ d.ending

/-- A directive paragraph; `multiline` says that it may span lines, and `lineBreak` that it takes the
line break after it. -/
def Directive.pattern (keyword : Text) (multiline lineBreak : Bool) : Pattern Directive where
  read? s := do
    let s ← dropAffix? ("<p>." ++ keyword ++ ":") s
    let (text, rest) ← body? multiline (s.drop (Pass.gap s).length)
    match dropAffix? "\n" rest with
    | some after =>
      if lineBreak then some (⟨Pass.gap s, text, ['\n']⟩, after)
      else some (⟨Pass.gap s, text, []⟩, rest)
    | none => some (⟨Pass.gap s, text, []⟩, rest)
  spell d := d.spell keyword
  spell_ne_nil d := by simp [Directive.spell]
  eq_append_of_read? := by
    intro s d rest h
    simp only [Option.bind_eq_bind, Option.bind_eq_some_iff, dropAffix?_eq_some_iff, body?,
      Option.filter_eq_some_iff] at h
    obtain ⟨t, rfl, ⟨text, after⟩, ⟨hc, -⟩, h⟩ := h
    have e := gap_append_drop t
    rw [eq_append_of_cutAt? hc] at e
    have key : ∀ ending, after = ending ++ rest → d = ⟨Pass.gap t, text, ending⟩ →
        "<p>." ++ keyword ++ ":" ++ t = d.spell keyword ++ rest := by
      rintro ending rfl rfl
      conv => lhs; rw [← e]
      simp [Directive.spell]
    split at h
    · next r hr =>
      rw [dropAffix?_eq_some_iff] at hr
      split at h
      · simp only [Option.some.injEq, Prod.mk.injEq] at h
        obtain ⟨rfl, rfl⟩ := h
        exact key ['\n'] (by simpa using hr) rfl
      · simp only [Option.some.injEq, Prod.mk.injEq] at h
        obtain ⟨rfl, rfl⟩ := h
        exact key [] rfl rfl
    · simp only [Option.some.injEq, Prod.mk.injEq] at h
      obtain ⟨rfl, rfl⟩ := h
      exact key [] rfl rfl

def notesPattern : Pattern Directive := Directive.pattern "notes" false false

def effectsPattern : Pattern Directive := Directive.pattern "fx" true true

/-- Notes become a paragraph of the class notes. -/
def notes : Pass where
  name := "notes"
  run _ content := pure
    ⟨notesPattern.replace (fun d => "<p class=\"notes\">" ++ d.text ++ "</p>") content,
      if notesPattern.occursIn content then ["has_notes"] else []⟩

/-- Effects vanish from the content and are set aside word by word. -/
def effects : Pass where
  name := "fx"
  run _ content := pure
    ⟨effectsPattern.replace (fun _ => []) content,
      (effectsPattern.parts content).flatMap fun d => words d.text⟩

/-- A QR code: its size in pixels, or nothing for the usual size, and the data it stands for. -/
structure QrCode where
  gap : Text
  size : Text
  data : Text
  deriving DecidableEq, Repr

def QrCode.spell (q : QrCode) : Text :=
  "<p>.qr:" ++ q.gap ++ q.size ++ "|" ++ q.data ++ "</p>"

def QrCode.pattern : Pattern QrCode where
  read? s := do
    let s ← dropAffix? "<p>.qr:" s
    let inner := s.drop (Pass.gap s).length
    let t ← dropAffix? "|" (inner.dropWhile isDigit)
    let (data, rest) ← body? false t
    some (⟨Pass.gap s, inner.takeWhile isDigit, data⟩, rest)
  spell := QrCode.spell
  spell_ne_nil q := by simp [QrCode.spell]
  eq_append_of_read? := by
    intro s q rest h
    simp only [Option.bind_eq_bind, Option.bind_eq_some_iff, dropAffix?_eq_some_iff, body?,
      Option.filter_eq_some_iff] at h
    obtain ⟨t, rfl, u, hu, ⟨data, after⟩, ⟨hc, -⟩, h⟩ := h
    simp only [Option.some.injEq, Prod.mk.injEq] at h
    obtain ⟨rfl, rfl⟩ := h
    have e := gap_append_drop t
    have e' := List.takeWhile_append_dropWhile (l := t.drop (Pass.gap t).length) (p := isDigit)
    rw [hu, eq_append_of_cutAt? hc] at e'
    rw [← e'] at e
    conv => lhs; rw [← e]
    simp [QrCode.spell]

/-- The paragraph that shows a QR code. -/
def QrCode.html (q : QrCode) : Text :=
  let size := if q.size = [] then ("200" : Text) else q.size
  "<p class=\"qr\"><img src=\"https://chart.googleapis.com/chart?chs=" ++ size ++ "x" ++ size
    ++ "&amp;cht=qr&amp;chl=" ++ Url.formEncode q.data
    ++ "&amp;chf=bg,s,00000000&amp;choe=UTF-8\" alt=\"" ++ q.data ++ "\" /></p>"

def qrCodes : Pass where
  name := "qr"
  run _ content := pure
    ⟨QrCode.pattern.replace QrCode.html content,
      if QrCode.pattern.occursIn content then ["has_qr"] else []⟩

end Slideshow.Pass
