import Slideshow.Text.Pattern
import Slideshow.Text.Blank
import Slideshow.Text.Word
import Slideshow.Pass.Directive

/-! # Code blocks that name their language

A code block whose first line is an exclamation mark and a language loses that line and gets a
class instead.
-/
namespace Slideshow.Pass
open Text

structure LanguageMark where
  gap : Text
  language : Text
  /-- What else stands on the line. -/
  remark : Text
  deriving DecidableEq, Repr

def LanguageMark.spell (m : LanguageMark) : Text :=
  "<pre><code>" ++ m.gap ++ "!" ++ m.language ++ m.remark ++ "\n"

def isLanguageChar (c : Char) : Bool := isWord c || c = '+' || c = '#' || c = '.' || c = '-'

def LanguageMark.pattern : Pattern LanguageMark where
  read? s := do
    let s ← dropAffix? "<pre><code>" s
    let t ← dropAffix? "!" (s.drop (Pass.gap s).length)
    let language := t.takeWhile isLanguageChar
    if language = [] then none
    else
      let line := t.dropWhile isLanguageChar
      let rest ← dropAffix? "\n" (line.dropWhile (· ≠ '\n'))
      some (⟨Pass.gap s, language, line.takeWhile (· ≠ '\n')⟩, rest)
  spell := LanguageMark.spell
  spell_ne_nil m := by simp [LanguageMark.spell]
  eq_append_of_read? := by
    intro s m rest h
    simp only [Option.bind_eq_bind, Option.bind_eq_some_iff, dropAffix?_eq_some_iff] at h
    obtain ⟨t, rfl, u, hu, h⟩ := h
    split at h
    · simp at h
    simp only [Option.bind_eq_some_iff, dropAffix?_eq_some_iff] at h
    obtain ⟨r, hr, h⟩ := h
    simp only [Option.some.injEq, Prod.mk.injEq] at h
    obtain ⟨rfl, rfl⟩ := h
    have e := gap_append_drop t
    have e₁ := List.takeWhile_append_dropWhile (l := u) (p := isLanguageChar)
    have e₂ := List.takeWhile_append_dropWhile (l := u.dropWhile isLanguageChar)
      (p := fun c => decide (c ≠ '\n'))
    rw [hr] at e₂
    rw [← e₂] at e₁
    rw [hu, ← e₁] at e
    conv => lhs; rw [← e]
    simp [LanguageMark.spell]

def LanguageMark.html (m : LanguageMark) : Text :=
  "<pre><code class=\"language-" ++ m.language ++ "\">"

def code : Pass where
  name := "code"
  run _ content := pure <|
    if occursIn "<pre" content then
      let content := LanguageMark.pattern.replace LanguageMark.html content
      ⟨content, if occursIn "<pre><code" content then ["has_code"] else []⟩
    else ⟨content, []⟩

end Slideshow.Pass
