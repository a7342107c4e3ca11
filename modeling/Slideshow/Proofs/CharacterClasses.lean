import Slideshow.Text.Word
import Slideshow.Text.Blank
import Mathlib

/-! # How the character classes meet

Letters and digits of ASCII are word characters, and no word character is white space.
-/
namespace Slideshow.Text

theorem isDigit_iff {c : Char} : c.isDigit ↔ 48 ≤ c.toNat ∧ c.toNat ≤ 57 := by
  simp only [Char.isDigit, Bool.and_eq_true, decide_eq_true_eq]
  exact Iff.rfl

theorem isUpper_iff {c : Char} : c.isUpper ↔ 65 ≤ c.toNat ∧ c.toNat ≤ 90 := by
  simp only [Char.isUpper, decide_eq_true_eq]
  exact Iff.rfl

theorem isLower_iff {c : Char} : c.isLower ↔ 97 ≤ c.toNat ∧ c.toNat ≤ 122 := by
  simp only [Char.isLower, Bool.and_eq_true, decide_eq_true_eq]
  exact Iff.rfl

theorem isAlphanum_iff {c : Char} : c.isAlphanum ↔ (65 ≤ c.toNat ∧ c.toNat ≤ 90) ∨
    (97 ≤ c.toNat ∧ c.toNat ≤ 122) ∨ (48 ≤ c.toNat ∧ c.toNat ≤ 57) := by
  simp only [Char.isAlphanum, Char.isAlpha, Bool.or_eq_true, isUpper_iff, isLower_iff, isDigit_iff,
    or_assoc]

theorem toLower_of_not_isUpper {c : Char} (h : c.isUpper = false) : c.toLower = c := by
  unfold Char.toLower
  rw [dif_neg]
  rintro ⟨h₁, h₂⟩
  have hu : c.isUpper = true := by
    simp only [Char.isUpper, decide_eq_true_eq]
    exact ⟨h₁, h₂⟩
  simp [h] at hu

theorem toNat_toLower_of_isUpper {c : Char} (h : c.isUpper) : c.toLower.toNat = c.toNat + 32 := by
  simp only [Char.isUpper, decide_eq_true_eq] at h
  have h₂ : c.val.toNat ≤ 90 := h.2
  unfold Char.toLower
  rw [dif_pos h]
  change (c.val + 32).toNat = c.val.toNat + 32
  rw [UInt32.toNat_add]
  change (c.val.toNat + 32) % 2 ^ 32 = _
  omega

/-- Only a capital has another character as its small letter. -/
theorem eq_of_toLower_eq {c d : Char} (h : c.toLower = d) (hd : d.isLower = false) : c = d := by
  cases hu : c.isUpper with
  | false => rw [← h, toLower_of_not_isUpper hu]
  | true =>
    have hn := toNat_toLower_of_isUpper hu
    have hr := isUpper_iff.1 hu
    rw [h] at hn
    have hl : d.isLower := isLower_iff.2 (by omega)
    simp [hd] at hl

/-- The white space beyond ASCII. -/
def wideBlanks : List Nat :=
  [133, 160, 5760, 8192, 8193, 8194, 8195, 8196, 8197, 8198, 8199, 8200, 8201, 8202, 8232, 8233, 8239,
    8287, 12288]

theorem isBlank_iff {c : Char} : isBlank c ↔
    (9 ≤ c.toNat ∧ c.toNat ≤ 13) ∨ c.toNat = 32 ∨ c.toNat ∈ wideBlanks := by
  simp only [isBlank, within, wideBlanks, List.any_cons, List.any_nil, Bool.or_eq_true,
    Bool.and_eq_true, decide_eq_true_eq, List.mem_cons, List.not_mem_nil, Bool.false_eq_true,
    or_false]
  omega

theorem wideBlanks_ge : ∀ n ∈ wideBlanks, 128 ≤ n := by decide

theorem isWord_of_alphanum {c : Char} (h : c.isAlphanum) : isWord c := by
  have small : c.toNat < 128 := by
    have := isAlphanum_iff.1 h
    omega
  exact isWord_of_isAlphanum h small

private theorem wideWords_wideBlanks :
    ∀ n ∈ wideBlanks, wideWords.any (fun r => r.1 ≤ n && n ≤ r.2) = false := by decide +kernel

theorem isBlank_of_isWord {c : Char} (h : isWord c) : isBlank c = false := by
  cases hb : isBlank c with
  | false => rfl
  | true =>
    simp only [isWord] at h
    split at h
    · next hs =>
      have hc : c.isAlphanum ∨ c = '_' := by simpa using h
      rcases isBlank_iff.1 hb with hb | hb | hb
      · rcases hc with hc | rfl
        · have := isAlphanum_iff.1 hc
          omega
        · exact absurd hb (by decide)
      · rcases hc with hc | rfl
        · have := isAlphanum_iff.1 hc
          omega
        · exact absurd hb (by decide)
      · have := wideBlanks_ge _ hb
        omega
    · next hs =>
      rcases isBlank_iff.1 hb with hb | hb | hb
      · omega
      · omega
      · rw [within, wideWords_wideBlanks _ hb] at h
        simp at h

theorem isBlank_of_isAlphanum {c : Char} (h : c.isAlphanum) : isBlank c = false :=
  isBlank_of_isWord (isWord_of_alphanum h)

theorem isBlank_bracket : isBlank '<' = false := by decide

end Slideshow.Text
