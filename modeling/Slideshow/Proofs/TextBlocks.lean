import Slideshow.Pass.Code
import Slideshow.Pass.Directive
import Slideshow.Proofs.PatternParts

/-!
# Blocks of content

Content made of paragraphs, directives and code blocks, one after the other. What each of the text
passes makes of it is said block by block: a pass changes the blocks of its own kind and no others.
-/
namespace Slideshow.Pass
open Text Forest

inductive Block
  | paragraph (text : Text)
  | effects (text : Text)
  | notes (text : Text)
  /-- A size in digits, or nothing for the usual size, and data. -/
  | qrCode (size data : Text)
  | code (body : Text)
  deriving DecidableEq, Repr

/-- A text without tags that blocks start or end with. -/
def isPlain (t : Text) : Bool :=
  !occursIn "<p>" t && !occursIn "</p>" t && !occursIn "<pre" t

/-- The language that a code body names behind an exclamation mark, which stands at its front or
behind one blank, and what follows the line of that mark. -/
def languageOf? (body : Text) : Option (Text × Text) := do
  let line ← dropAffix? "!" (body.drop (gap body).length)
  let rest ← dropAffix? "\n" (line.dropWhile (· ≠ '\n'))
  if line.takeWhile isLanguageChar = [] then none else some (line.takeWhile isLanguageChar, rest)

namespace Block

def html : Block → Text
  | paragraph t => "<p>" ++ t ++ "</p>\n"
  | effects t => "<p>.fx: " ++ t ++ "</p>\n"
  | notes t => "<p>.notes: " ++ t ++ "</p>\n"
  | qrCode size data => "<p>.qr: " ++ size ++ "|" ++ data ++ "</p>\n"
  | code body => "<pre><code>" ++ body ++ "\n</code></pre>\n"

def isWellFormed : Block → Bool
  | paragraph t => isPlain t && (dropAffix? ".fx:" t).isNone && (dropAffix? ".notes:" t).isNone &&
      (dropAffix? ".qr:" t).isNone
  | effects t | notes t => isPlain t && '\n' ∉ t
  | qrCode size data => size.all isDigit && isPlain data && '\n' ∉ data
  | code body => '<' ∉ body && '>' ∉ body

/-- The name of the pass that a block is for. -/
def pass? : Block → Option Text
  | paragraph _ => none
  | effects _ => some "fx"
  | notes _ => some "notes"
  | qrCode _ _ => some "qr"
  | code _ => some "code"

/-- What its pass makes of a block. -/
def changed : Block → Text
  | paragraph t => html (paragraph t)
  | effects _ => []
  | notes t => "<p class=\"notes\">" ++ t ++ "</p>\n"
  | qrCode size data => QrCode.html ⟨" ", size, data⟩ ++ "\n"
  | code body =>
    match languageOf? (body ++ "\n") with
    | some (language, rest) =>
      "<pre><code class=\"language-" ++ language ++ "\">" ++ rest ++ "</code></pre>\n"
    | none => html (code body)

/-- A block after some passes. -/
def passed (names : List Text) (b : Block) : Text :=
  if b.pass?.any (· ∈ names) then b.changed else b.html

/-- The words that a block hides. -/
def effectWords : Block → List Text
  | effects t => words t
  | _ => []

end Block

/-- Whether a pass has a block. -/
def hasBlock (blocks : List Block) (name : Text) : Bool := blocks.any (·.pass? = some name)

/-- What a pass sets aside for some blocks: the words of effects, and of any other pass whether it has
a block at all. -/
def setAside (blocks : List Block) (name : Text) : List Text :=
  if name = "fx" then blocks.flatMap Block.effectWords
  else if hasBlock blocks name then ["has_" ++ name] else []

/-- The passes for text, each with what its blocks start with behind an angle bracket. -/
def textKeys : List (Text × Text) :=
  [("code", "pre"), ("fx", "p>.fx:"), ("notes", "p>.notes:"), ("qr", "p>.qr:")]

/-! ## Behind the front of a block -/

/-- No block starts at the front of a text. -/
def IsInside (s : Text) : Prop := dropAffix? "<p>" s = none ∧ dropAffix? "<pre" s = none

theorem isInside_of_ne {c : Char} (h : c ≠ 'p') (s : Text) : IsInside ('<' :: c :: s) :=
  ⟨by simp [dropAffix?, h.symm], by simp [dropAffix?, h.symm]⟩

theorem dropAffix?_of_isInside {name key s : Text} (hkey : (name, key) ∈ textKeys)
    (h : IsInside s) : dropAffix? ('<' :: key) s = none := by
  have hlonger : ∀ front more : Text, dropAffix? front s = none →
      dropAffix? (front ++ more) s = none := by
    intro front more hnone
    rw [Option.eq_none_iff_forall_ne_some]
    intro rest hrest
    rw [dropAffix?_eq_some_iff, List.append_assoc, ← dropAffix?_eq_some_iff, hnone] at hrest
    simp at hrest
  simp only [textKeys, List.mem_cons, Prod.mk.injEq, List.not_mem_nil, or_false] at hkey
  rcases hkey with ⟨-, rfl⟩ | ⟨-, rfl⟩ | ⟨-, rfl⟩ | ⟨-, rfl⟩
  · simpa using h.2
  · simpa using hlonger "<p>" ".fx:" h.1
  · simpa using hlonger "<p>" ".notes:" h.1
  · simpa using hlonger "<p>" ".qr:" h.1

/-- Every angle bracket has a character other than a p behind it. -/
def opensNoBlock : Text → Bool
  | [] => true
  | [c] => c ≠ '<'
  | c :: d :: s => (c ≠ '<' || d ≠ 'p') && opensNoBlock (d :: s)

theorem atBrackets_of_opensNoBlock {s : Text} (h : opensNoBlock s) : AtBrackets IsInside s := by
  fun_induction opensNoBlock s with
  | case1 => exact .of_not_mem (by simp)
  | case2 c =>
    have hc : c ≠ '<' := by simpa using h
    exact .of_not_mem (by simp [hc.symm])
  | case3 c d s ih =>
    simp only [Bool.and_eq_true, Bool.or_eq_true, decide_eq_true_eq] at h
    by_cases hc : c = '<'
    · subst hc
      exact .bracket (ih h.2) fun tail => isInside_of_ne (by simpa using h.1) _
    · exact .append (s := [c]) (.of_not_mem (by simp [Ne.symm hc])) (ih h.2)

theorem atBrackets_append_plain {t r : Text} {c : Char} (h : isPlain t) (hc : c ∉ ['p', '>', 'r', 'e'])
    (hr : AtBrackets IsInside (c :: r)) : AtBrackets IsInside (t ++ c :: r) := by
  simp only [isPlain, Bool.and_eq_true, Bool.not_eq_true', ofString_eq] at h
  simp only [List.mem_cons, List.not_mem_nil, or_false, not_or] at hc
  have hparagraph : AtBrackets (dropAffix? ['<', 'p', '>'] · = none) (t ++ c :: r) :=
    atBrackets_append_cons h.1.1 (by simp [hc])
      fun before after he tail => by simpa using (hr before after he tail).1
  have hcode : AtBrackets (dropAffix? ['<', 'p', 'r', 'e'] · = none) (t ++ c :: r) :=
    atBrackets_append_cons h.2 (by simp [hc])
      fun before after he tail => by simpa using (hr before after he tail).2
  exact fun before after he tail => ⟨by simpa using hparagraph before after he tail,
    by simpa using hcode before after he tail⟩

/-! ## Behind the first angle bracket of a block -/

theorem atBrackets_line {front t : Text} (hfront : AtBrackets IsInside front) (ht : isPlain t) :
    AtBrackets IsInside (front ++ t ++ "</p>\n") := by
  have hclose : AtBrackets IsInside ('<' :: "/p>\n") := atBrackets_of_opensNoBlock (by cbv)
  have hline : (front ++ t ++ "</p>\n" : Text) = front ++ (t ++ '<' :: "/p>\n") := by simp
  rw [hline]
  exact hfront.append (atBrackets_append_plain ht (by decide) hclose)

theorem bracket_not_mem_formEncode (t : Text) : '<' ∉ Url.formEncode t := by
  have hdigit : ∀ n < 16, '<' ≠ Url.hexDigit n := by decide
  intro h
  obtain ⟨b, -, hb⟩ := List.mem_flatMap.1 h
  have hbyte : b.toNat < 256 := b.toNat_lt
  dsimp only at hb
  split at hb
  · simp at hb
  · split at hb
    · next hkept =>
      rw [← List.mem_singleton.1 hb] at hkept
      exact absurd hkept (by decide)
    · rcases List.mem_cons.1 hb with hb | hb
      · simp at hb
      · rcases List.mem_pair.1 hb with hb | hb
        · exact hdigit _ (by omega) hb
        · exact hdigit _ (by omega) hb

theorem mem_of_languageOf? {body language rest : Text} (h : languageOf? body = some (language, rest))
    {c : Char} (hc : c ∈ language ∨ c ∈ rest) : c ∈ body := by
  simp only [languageOf?, Option.bind_eq_bind, Option.bind_eq_some_iff, dropAffix?_eq_some_iff] at h
  obtain ⟨line, hline, after, hafter, h⟩ := h
  split at h
  · simp at h
  · obtain ⟨rfl, rfl⟩ := Prod.mk.inj (Option.some.inj h)
    refine (List.drop_suffix (gap body).length body).subset ?_
    rw [hline]
    refine List.mem_append_right _ ?_
    rcases hc with hc | hc
    · exact (List.takeWhile_prefix _).subset hc
    · refine (List.dropWhile_suffix (· ≠ '\n')).subset ?_
      rw [hafter]
      exact List.mem_append_right _ hc

namespace Block

/-- A block starts with an angle bracket and opens no other block. -/
theorem exists_html {b : Block} (h : b.isWellFormed) :
    ∃ rest, b.html = '<' :: rest ∧ AtBrackets IsInside rest := by
  cases b with
  | paragraph t =>
    simp only [isWellFormed, Bool.and_eq_true] at h
    exact ⟨"p>" ++ t ++ "</p>\n", by simp [html],
      atBrackets_line (atBrackets_of_opensNoBlock (by cbv)) h.1.1.1⟩
  | effects t =>
    simp only [isWellFormed, Bool.and_eq_true] at h
    exact ⟨"p>.fx: " ++ t ++ "</p>\n", by simp [html],
      atBrackets_line (atBrackets_of_opensNoBlock (by cbv)) h.1⟩
  | notes t =>
    simp only [isWellFormed, Bool.and_eq_true] at h
    exact ⟨"p>.notes: " ++ t ++ "</p>\n", by simp [html],
      atBrackets_line (atBrackets_of_opensNoBlock (by cbv)) h.1⟩
  | qrCode size data =>
    simp only [isWellFormed, Bool.and_eq_true, List.all_eq_true] at h
    have hsize : '<' ∉ size := fun hmem => absurd (h.1.1 _ hmem) (by decide)
    refine ⟨"p>.qr: " ++ size ++ "|" ++ data ++ "</p>\n", by simp [html], atBrackets_line ?_ h.1.2⟩
    exact .of_not_mem (by simp [hsize])
  | code body =>
    simp only [isWellFormed, Bool.and_eq_true, decide_eq_true_eq] at h
    refine ⟨"pre><code>" ++ body ++ "\n</code></pre>\n", by simp [html], .append (.append ?_ ?_) ?_⟩
    · exact atBrackets_of_opensNoBlock (by cbv)
    · exact .of_not_mem h.1
    · exact atBrackets_of_opensNoBlock (by cbv)

theorem exists_qrCode {size data : Text} (hsize : ∀ c ∈ size, isDigit c) (h : isPlain data) :
    ∃ rest, changed (.qrCode size data) = '<' :: rest ∧ AtBrackets IsInside rest := by
  have hshown : '<' ∉ (if size = [] then ("200" : Text) else size) := by
    split
    · simp
    · exact fun hmem => absurd (hsize _ hmem) (by decide)
  have hclose : AtBrackets IsInside ('"' :: " /></p>\n") := atBrackets_of_opensNoBlock (by cbv)
  generalize hsize : (if size = [] then ("200" : Text) else size) = shown at hshown
  refine ⟨"p class=\"qr\"><img src=\"https://chart.googleapis.com/chart?chs=" ++
    (shown ++ "x" ++ shown ++ "&amp;cht=qr&amp;chl=" ++ Url.formEncode data ++
    "&amp;chf=bg,s,00000000&amp;choe=UTF-8\" alt=\"" ++ (data ++ '"' :: " /></p>\n")),
    by simp [changed, QrCode.html, ← hsize], .append ?_ (.append ?_ ?_)⟩
  · exact atBrackets_of_opensNoBlock (by cbv)
  · exact .of_not_mem (by simp [hshown, bracket_not_mem_formEncode])
  · exact atBrackets_append_plain h (by decide) hclose

theorem exists_markedCode {body language rest : Text} (hbody : '<' ∉ body)
    (h : languageOf? (body ++ "\n") = some (language, rest)) :
    ∃ more, changed (.code body) = '<' :: more ∧ AtBrackets IsInside more := by
  have hmem : ∀ c, c ∈ language ∨ c ∈ rest → c ≠ '<' := by
    rintro c hc rfl
    simpa [hbody] using mem_of_languageOf? h hc
  have hchanged : changed (.code body) =
      '<' :: ("pre><code class=\"language-" ++ language ++ "\">" ++ rest ++ "</code></pre>\n") := by
    rw [changed, h]
    simp
  refine ⟨_, hchanged, .append (.append (.append (.append ?_ ?_) ?_) ?_) ?_⟩
  · exact atBrackets_of_opensNoBlock (by cbv)
  · exact .of_not_mem fun hc => hmem _ (.inl hc) rfl
  · exact atBrackets_of_opensNoBlock (by cbv)
  · exact .of_not_mem fun hc => hmem _ (.inr hc) rfl
  · exact atBrackets_of_opensNoBlock (by cbv)

/-- What a pass leaves of a block, if anything, opens no other block. -/
theorem exists_changed {b : Block} (h : b.isWellFormed) :
    b.changed = [] ∨ ∃ rest, b.changed = '<' :: rest ∧ AtBrackets IsInside rest := by
  cases b with
  | paragraph t => exact .inr (exists_html h)
  | effects t => exact .inl rfl
  | notes t =>
    simp only [isWellFormed, Bool.and_eq_true] at h
    exact .inr ⟨"p class=\"notes\">" ++ t ++ "</p>\n", by simp [changed],
      atBrackets_line (atBrackets_of_opensNoBlock (by cbv)) h.1⟩
  | qrCode size data =>
    simp only [isWellFormed, Bool.and_eq_true, List.all_eq_true] at h
    exact .inr (exists_qrCode h.1.1 h.1.2)
  | code body =>
    cases hlanguage : languageOf? (body ++ "\n") with
    | none => exact .inr (by simpa only [changed, hlanguage] using exists_html h)
    | some mark =>
      simp only [isWellFormed, Bool.and_eq_true, decide_eq_true_eq] at h
      exact .inr (exists_markedCode h.1 hlanguage)

/-! ## The front of a block -/

theorem dropAffix?_paragraph {t d : Text} (h : dropAffix? d t = none) (hd : '<' ∉ d) (r : Text) :
    dropAffix? ('<' :: 'p' :: '>' :: d) (html (paragraph t) ++ r) = none := by
  simp [html, dropAffix?, dropAffix?_append_cons hd, h]

/-- A block starts with the key of its own pass only. -/
theorem dropAffix?_html {b : Block} (h : b.isWellFormed) {name key : Text}
    (hkey : (name, key) ∈ textKeys) (hpass : b.pass? ≠ some name) (r : Text) :
    dropAffix? ('<' :: key) (b.html ++ r) = none := by
  simp only [textKeys, List.mem_cons, Prod.mk.injEq, List.not_mem_nil, or_false] at hkey
  cases b with
  | paragraph t =>
    simp only [isWellFormed, Bool.and_eq_true, Option.isNone_iff_eq_none] at h
    rcases hkey with ⟨rfl, rfl⟩ | ⟨rfl, rfl⟩ | ⟨rfl, rfl⟩ | ⟨rfl, rfl⟩
    · simp [html, dropAffix?]
    · simpa using dropAffix?_paragraph h.1.1.2 (by simp) r
    · simpa using dropAffix?_paragraph h.1.2 (by simp) r
    · simpa using dropAffix?_paragraph h.2 (by simp) r
  | effects t | notes t | qrCode size data | code body =>
    rcases hkey with ⟨rfl, rfl⟩ | ⟨rfl, rfl⟩ | ⟨rfl, rfl⟩ | ⟨rfl, rfl⟩ <;>
      simp [html, pass?, dropAffix?] at hpass ⊢

/-- What a pass makes of a block starts with no key of another pass. -/
theorem dropAffix?_changed {b : Block} (h : b.isWellFormed) {name key : Text}
    (hkey : (name, key) ∈ textKeys) (hpass : b.pass? ≠ some name) (hne : b.changed ≠ []) (r : Text) :
    dropAffix? ('<' :: key) (b.changed ++ r) = none := by
  cases b with
  | paragraph t => exact dropAffix?_html h hkey hpass r
  | effects t => exact absurd rfl hne
  | notes t | qrCode size data =>
    simp only [textKeys, List.mem_cons, Prod.mk.injEq, List.not_mem_nil, or_false] at hkey
    rcases hkey with ⟨rfl, rfl⟩ | ⟨rfl, rfl⟩ | ⟨rfl, rfl⟩ | ⟨rfl, rfl⟩ <;>
      simp [changed, QrCode.html, pass?, dropAffix?] at hpass ⊢
  | code body =>
    have hhtml := dropAffix?_html h hkey hpass r
    simp only [textKeys, List.mem_cons, Prod.mk.injEq, List.not_mem_nil, or_false] at hkey
    rw [changed]
    split
    · rcases hkey with ⟨rfl, rfl⟩ | ⟨rfl, rfl⟩ | ⟨rfl, rfl⟩ | ⟨rfl, rfl⟩ <;>
        simp [pass?, dropAffix?] at hpass ⊢
    · exact hhtml

/-- A pass finds nothing in the blocks of the others, whether they are changed or not. -/
theorem atBrackets_passed {b : Block} (h : b.isWellFormed) {name key : Text}
    (hkey : (name, key) ∈ textKeys) (hpass : b.pass? ≠ some name) (names : List Text) :
    AtBrackets (dropAffix? ('<' :: key) · = none) (b.passed names) := by
  have hbracket : ∀ {text rest : Text}, text = '<' :: rest → AtBrackets IsInside rest →
      (∀ r, dropAffix? ('<' :: key) (text ++ r) = none) →
      AtBrackets (dropAffix? ('<' :: key) · = none) text := by
    rintro _ rest rfl hrest hfront
    exact .bracket (fun before after he tail => dropAffix?_of_isInside hkey (hrest before after he tail))
      hfront
  rw [passed]
  split
  · rcases exists_changed h with hnil | ⟨rest, hrest, hinside⟩
    · rw [hnil]
      exact .of_not_mem (by simp)
    · exact hbracket hrest hinside (dropAffix?_changed h hkey hpass (by simp [hrest]))
  · obtain ⟨rest, hrest, hinside⟩ := exists_html h
    exact hbracket hrest hinside (dropAffix?_html h hkey hpass)

end Block

end Slideshow.Pass
