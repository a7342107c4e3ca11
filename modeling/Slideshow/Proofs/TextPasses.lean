import Slideshow.Pass.Standard
import Slideshow.Proofs.TextBlocks

/-!
# The text passes on blocks

Each text pass finds its own blocks in content made of blocks, whatever the other passes have made of
theirs, and changes these only. So the passes can run in any order: the content in the end depends on
which of them have run.
-/
namespace Slideshow.Pass
open Text Forest

theorem Block.passed_append_of_ne {b : Block} {name : Text} (h : b.pass? ≠ some name)
    (done : List Text) : b.passed (done ++ [name]) = b.passed done := by
  rw [passed, passed]
  cases hb : b.pass? with
  | none => rfl
  | some other =>
    have hne : other ≠ name := fun he => h (by rw [hb, he])
    simp [hne]

/-- A pattern finds a part at the front of the blocks of a pass that it changes, and nothing else. -/
structure Handles {α : Type} (name key : Text) (p : Pattern α) (g : α → Text)
    (part : Block → Option α) : Prop where
  isKey : (name, key) ∈ textKeys
  startsWith : p.StartsWith ('<' :: key)
  own : ∀ {b : Block}, b.isWellFormed → b.pass? = some name →
    ∃ rest, p.Splits b.html (part b) rest ∧ b.changed = ((part b).map g).getD [] ++ rest
  other : ∀ {b : Block}, b.pass? ≠ some name → part b = none

namespace Handles
variable {α : Type} {name key : Text} {p : Pattern α} {g : α → Text} {part : Block → Option α}
  (hp : Handles name key p g part) {done : List Text} (hdone : name ∉ done)
include hp hdone

/-- The pass changes its own blocks, which no other pass has changed, and leaves all others. -/
theorem exists_splits {b : Block} (h : b.isWellFormed) :
    ∃ rest, p.Splits (b.passed done) (part b) rest ∧
      b.passed (done ++ [name]) = ((part b).map g).getD [] ++ rest := by
  by_cases hpass : b.pass? = some name
  · obtain ⟨rest, hsplits, hchanged⟩ := hp.own h hpass
    exact ⟨rest, by simpa [Block.passed, hpass, hdone] using hsplits,
      by simpa [Block.passed, hpass] using hchanged⟩
  · refine ⟨b.passed done, ?_, by simp [hp.other hpass, Block.passed_append_of_ne hpass]⟩
    rw [hp.other hpass]
    exact .of_atBrackets hp.startsWith (Block.atBrackets_passed h hp.isKey hpass done)

theorem replace_parts {blocks : List Block} (h : ∀ b ∈ blocks, b.isWellFormed) :
    p.replace g (blocks.flatMap (Block.passed done)) =
        blocks.flatMap (Block.passed (done ++ [name])) ∧
      p.parts (blocks.flatMap (Block.passed done)) = blocks.filterMap part := by
  choose! rest hsplits hpassed using fun (b : Block) (hb : b.isWellFormed) => hp.exists_splits hdone hb
  have hall : ∀ b ∈ blocks, p.Splits (b.passed done) (part b) (rest b) :=
    fun b hb => hsplits b (h b hb)
  refine ⟨?_, Pattern.Splits.parts_flatMap hall⟩
  rw [Pattern.Splits.replace_flatMap hall]
  exact List.flatMap_congr fun b hb => (hpassed b (h b hb)).symm

end Handles

/-! ## Directives -/

theorem gap_blank (s : Text) : gap (" " ++ s) = " " := by
  simp [gap, show isBlank ' ' = true by decide]

theorem isPlain_iff {t : Text} : isPlain t ↔
    occursIn "<p>" t = false ∧ occursIn "</p>" t = false ∧ occursIn "<pre" t = false := by
  simp [isPlain, and_assoc]

theorem body?_line {t : Text} (h : isPlain t) (hline : '\n' ∉ t) (multiline : Bool) (r : Text) :
    body? multiline (t ++ "</p>" ++ r) = some (t, r) := by
  have hclose := (isPlain_iff.1 h).2.1
  simp only [ofString_eq] at hclose
  have hcut : cutAt? "</p>" (t ++ "</p>" ++ r) = some (t, r) := by
    simpa using @cutAt?_append_key ['/', 'p', '>'] t hclose (by simp) r
  rw [body?, hcut]
  simp [hline]

theorem read?_directive (keyword : Text) {t : Text} (h : isPlain t) (hline : '\n' ∉ t)
    (multiline lineBreak : Bool) (r : Text) :
    (Directive.pattern keyword multiline lineBreak).read?
        ("<p>." ++ keyword ++ ": " ++ t ++ "</p>\n" ++ r) =
      some (if lineBreak then (⟨" ", t, ['\n']⟩, r) else (⟨" ", t, []⟩, "\n" ++ r)) := by
  have hfront : ("<p>." ++ keyword ++ ": " ++ t ++ "</p>\n" ++ r : Text) =
      "<p>." ++ keyword ++ ":" ++ (" " ++ (t ++ "</p>" ++ ("\n" ++ r))) := by simp
  rw [hfront]
  simp only [Directive.pattern, dropAffix?_append, Option.bind_eq_bind, Option.bind_some, gap_blank,
    List.drop_left, body?_line h hline]
  cases lineBreak <;> rfl

theorem startsWith_directive {keyword key : Text}
    (hkey : ("<p>." ++ keyword ++ ":" : Text) = '<' :: key) (multiline lineBreak : Bool) :
    (Directive.pattern keyword multiline lineBreak).StartsWith ('<' :: key) := by
  intro s hs
  simp only [Directive.pattern, hkey, hs, Option.bind_eq_bind, Option.bind_none]

theorem splits_lineBreak {α : Type} {p : Pattern α} {key : Text} (h : p.StartsWith ('<' :: key)) :
    p.Splits "\n" none "\n" := .of_atBrackets h (.of_not_mem (by simp))

theorem handles_notes : Handles "notes" "p>.notes:" notesPattern
    (fun d => "<p class=\"notes\">" ++ d.text ++ "</p>")
    (fun | .notes t => some ⟨" ", t, []⟩ | _ => none) where
  isKey := by simp [textKeys]
  startsWith := startsWith_directive (by simp) false false
  own {b} h hpass := by
    cases b with
    | notes t =>
      simp only [Block.isWellFormed, Bool.and_eq_true, decide_eq_true_eq] at h
      refine ⟨"\n", .of_read? (fun r => ?_)
        (splits_lineBreak (@startsWith_directive "notes" "p>.notes:" (by simp) false false)), ?_⟩
      · have hread := read?_directive "notes" h.1 h.2 false false r
        have hfront : ("<p>.notes: " : Text) = "<p>." ++ "notes" ++ ": " := by simp
        rw [Block.html, hfront]
        exact hread
      · simp [Block.changed]
    | _ => simp [Block.pass?] at hpass
  other {b} hpass := by
    cases b <;> first | rfl | exact absurd rfl hpass

theorem handles_effects : Handles "fx" "p>.fx:" effectsPattern (fun _ => [])
    (fun | .effects t => some ⟨" ", t, ['\n']⟩ | _ => none) where
  isKey := by simp [textKeys]
  startsWith := startsWith_directive (by simp) true true
  own {b} h hpass := by
    cases b with
    | effects t =>
      simp only [Block.isWellFormed, Bool.and_eq_true, decide_eq_true_eq] at h
      refine ⟨[], .of_read? (fun r => ?_) fun r => rfl, rfl⟩
      have hread := read?_directive "fx" h.1 h.2 true true r
      have hfront : ("<p>.fx: " : Text) = "<p>." ++ "fx" ++ ": " := by simp
      rw [Block.html, hfront]
      exact hread
    | _ => simp [Block.pass?] at hpass
  other {b} hpass := by
    cases b <;> first | rfl | exact absurd rfl hpass

theorem startsWith_qrCode : QrCode.pattern.StartsWith ('<' :: "p>.qr:") := by
  intro s hs
  have hkey : ('<' :: ("p>.qr:" : Text)) = "<p>.qr:" := by simp
  rw [hkey] at hs
  simp only [QrCode.pattern, hs, Option.bind_eq_bind, Option.bind_none]

theorem read?_qrCode {size data : Text} (hsize : ∀ c ∈ size, isDigit c) (h : isPlain data)
    (hline : '\n' ∉ data) (r : Text) :
    QrCode.pattern.read? ("<p>.qr: " ++ size ++ "|" ++ data ++ "</p>\n" ++ r) =
      some (⟨" ", size, data⟩, "\n" ++ r) := by
  have hfront : ("<p>.qr: " ++ size ++ "|" ++ data ++ "</p>\n" ++ r : Text) =
      "<p>.qr:" ++ (" " ++ (size ++ ("|" ++ (data ++ "</p>" ++ ("\n" ++ r))))) := by simp
  have hbar : (("|" ++ (data ++ "</p>" ++ ("\n" ++ r)) : Text).head?.any isDigit) = false := by
    simp [isDigit]
  rw [hfront]
  simp only [QrCode.pattern, dropAffix?_append, Option.bind_eq_bind, Option.bind_some, gap_blank,
    List.drop_left, takeWhile_run hsize hbar, dropWhile_run hsize hbar, body?_line h hline]

theorem handles_qrCodes : Handles "qr" "p>.qr:" QrCode.pattern QrCode.html
    (fun | .qrCode size data => some ⟨" ", size, data⟩ | _ => none) where
  isKey := by simp [textKeys]
  startsWith := startsWith_qrCode
  own {b} h hpass := by
    cases b with
    | qrCode size data =>
      simp only [Block.isWellFormed, Bool.and_eq_true, List.all_eq_true, decide_eq_true_eq] at h
      exact ⟨"\n", .of_read? (read?_qrCode h.1.1 h.1.2 h.2) (splits_lineBreak startsWith_qrCode), rfl⟩
    | _ => simp [Block.pass?] at hpass
  other {b} hpass := by
    cases b <;> first | rfl | exact absurd rfl hpass

/-! ## Code -/

theorem startsWith_languageMark : LanguageMark.pattern.StartsWith ('<' :: "pre") := by
  intro s hs
  have hnone : dropAffix? "<pre><code>" s = none := by
    rw [Option.eq_none_iff_forall_ne_some]
    intro rest hrest
    have hfront : s = ('<' :: "pre") ++ ("><code>" ++ rest) := by
      simp [dropAffix?_eq_some_iff.1 hrest]
    rw [hfront, dropAffix?_append] at hs
    simp at hs
  simp only [LanguageMark.pattern, hnone, Option.bind_eq_bind, Option.bind_none]

private theorem takeWhile_append_cons {p : Char → Bool} {c : Char} (hc : p c = false) (s r : Text) :
    (s ++ c :: r).takeWhile p = s.takeWhile p := by
  induction s with
  | nil => simp [hc]
  | cons d s ih => by_cases hd : p d <;> simp [hd, ih]

private theorem dropWhile_append_cons {p : Char → Bool} {c : Char} (hc : p c = false) (s r : Text) :
    (s ++ c :: r).dropWhile p = s.dropWhile p ++ c :: r := by
  induction s with
  | nil => simp [hc]
  | cons d s ih => by_cases hd : p d <;> simp [hd, ih]

theorem gap_append {s : Text} (h : s ≠ []) (r : Text) : gap (s ++ r) = gap s := by
  cases s with
  | nil => exact absurd rfl h
  | cons c s => rfl

theorem length_gap_le (s : Text) : (gap s).length ≤ s.length := by
  have := congrArg List.length (gap_append_drop s)
  simp only [List.length_append] at this
  omega

/-- The line of a mark ends within the body, which ends with a line break. -/
theorem exists_line {body line : Text}
    (h : dropAffix? "!" ((body ++ "\n").drop (gap (body ++ "\n")).length) = some line) :
    ∃ front rest, line = front ++ '\n' :: rest ∧ '\n' ∉ front := by
  have hbody := gap_append_drop (body ++ "\n")
  rw [dropAffix?_eq_some_iff.1 h] at hbody
  have hlast := congrArg List.getLast? hbody
  refine List.eq_append_cons_of_mem ?_
  cases hline : line.getLast? with
  | none =>
    rw [List.getLast?_eq_none_iff.1 hline] at hlast
    simp at hlast
  | some c =>
    have hc : c = '\n' := by simpa [List.getLast?_cons, hline] using hlast
    exact hc ▸ List.mem_of_getLast? hline

/-- The mark at the front of a code body, and what follows its line. -/
def markOf? (body : Text) : Option (LanguageMark × Text) := do
  let line ← dropAffix? "!" (body.drop (gap body).length)
  let rest ← dropAffix? "\n" (line.dropWhile (· ≠ '\n'))
  if line.takeWhile isLanguageChar = [] then none
  else some (⟨gap body, line.takeWhile isLanguageChar,
    (line.dropWhile isLanguageChar).takeWhile (· ≠ '\n')⟩, rest)

theorem languageOf?_eq (body : Text) :
    languageOf? body = (markOf? body).map fun p => (p.1.language, p.2) := by
  rw [languageOf?, markOf?]
  cases dropAffix? "!" (body.drop (gap body).length) with
  | none => rfl
  | some line =>
    simp only [Option.bind_eq_bind, Option.bind_some]
    cases dropAffix? "\n" (line.dropWhile (· ≠ '\n')) with
    | none => rfl
    | some rest => by_cases h : line.takeWhile isLanguageChar = [] <;> simp [h]

private theorem line_run {run : Text} (h : '\n' ∉ run) (tail : Text) :
    (run ++ '\n' :: tail).takeWhile (· ≠ '\n') = run ∧
      (run ++ '\n' :: tail).dropWhile (· ≠ '\n') = '\n' :: tail :=
  ⟨takeWhile_run (ne_of_not_mem h) rfl, dropWhile_run (ne_of_not_mem h) rfl⟩

/-- The mark of a code block is read within the block. -/
theorem read?_languageMark (body r : Text) :
    LanguageMark.pattern.read? ("<pre><code>" ++ ((body ++ "\n") ++ '<' :: r)) =
      (markOf? (body ++ "\n")).map fun p => (p.1, p.2 ++ '<' :: r) := by
  have hne : (body ++ "\n" : Text) ≠ [] := by simp
  simp only [LanguageMark.pattern, markOf?, dropAffix?_append, Option.bind_eq_bind,
    Option.bind_some, gap_append hne, List.drop_append_of_le_length (length_gap_le _)]
  rw [dropAffix?_append_cons (by simp)]
  cases hmark : dropAffix? "!" ((body ++ "\n").drop (gap (body ++ "\n")).length) with
  | none => rfl
  | some line =>
    obtain ⟨front, rest, rfl, hfront⟩ := exists_line hmark
    have hbreak : isLanguageChar '\n' = false := by decide
    have hremark : '\n' ∉ front.dropWhile isLanguageChar :=
      fun hmem => hfront ((List.dropWhile_suffix _).subset hmem)
    have hdrop : ∀ tail : Text, dropAffix? "\n" ('\n' :: tail) = some tail := by simp [dropAffix?]
    simp only [Option.map_some, Option.bind_some, List.append_assoc, List.cons_append,
      takeWhile_append_cons hbreak, dropWhile_append_cons hbreak, line_run hfront,
      line_run hremark, hdrop]
    by_cases hnil : front.takeWhile isLanguageChar = [] <;> simp [hnil]

theorem read?_html_code (body r : Text) :
    LanguageMark.pattern.read? (Block.html (.code body) ++ r) =
      (markOf? (body ++ "\n")).map fun p => (p.1, p.2 ++ "</code></pre>\n" ++ r) := by
  have hhtml : Block.html (.code body) ++ r =
      "<pre><code>" ++ ((body ++ "\n") ++ '<' :: ("/code></pre>\n" ++ r)) := by simp [Block.html]
  rw [hhtml, read?_languageMark]
  simp

/-- Behind its mark a code block opens no other block. -/
theorem atBrackets_behind_mark {body : Text} (h : '<' ∉ body) {p : LanguageMark × Text}
    (hmark : markOf? (body ++ "\n") = some p) : AtBrackets IsInside (p.2 ++ "</code></pre>\n") := by
  have hlanguage : languageOf? (body ++ "\n") = some (p.1.language, p.2) := by
    rw [languageOf?_eq, hmark]
    rfl
  have hbracket : '<' ∉ p.2 := fun hmem => by
    simpa [h] using mem_of_languageOf? hlanguage (.inr hmem)
  exact .append (.of_not_mem hbracket) (atBrackets_of_opensNoBlock (by cbv))

theorem splits_of_isInside {s : Text} (h : AtBrackets IsInside s) :
    LanguageMark.pattern.Splits s none s := by
  have hkey : (("code", "pre") : Text × Text) ∈ textKeys := by simp [textKeys]
  exact .of_atBrackets startsWith_languageMark fun before after he tail =>
    dropAffix?_of_isInside hkey (h before after he tail)

theorem handles_code : Handles "code" "pre" LanguageMark.pattern LanguageMark.html
    (fun | .code body => (markOf? (body ++ "\n")).map Prod.fst | _ => none) where
  isKey := by simp [textKeys]
  startsWith := startsWith_languageMark
  own {b} h hpass := by
    cases b with
    | code body =>
      have hread := read?_html_code body
      rw [Block.changed, languageOf?_eq]
      cases hmark : markOf? (body ++ "\n") with
      | none =>
        obtain ⟨rest, hrest, hinside⟩ := Block.exists_html h
        simp only [hmark, hrest, Option.map_none] at hread ⊢
        exact ⟨_, .cons hread (splits_of_isInside hinside), rfl⟩
      | some p =>
        simp only [Block.isWellFormed, Bool.and_eq_true, decide_eq_true_eq] at h
        have hrest := splits_of_isInside (atBrackets_behind_mark h.1 hmark)
        simp only [hmark, Option.map_some] at hread ⊢
        exact ⟨_, .of_read? hread hrest, by simp [LanguageMark.html]⟩
    | _ => simp [Block.pass?] at hpass
  other {b} hpass := by
    cases b <;> first | rfl | exact absurd rfl hpass

/-! ## Runs of the passes -/

/-- A pass changes its own blocks of any content that it has not been run on yet. -/
def ChangesItsBlocks (pass : Pass) : Prop := ∀ blocks : List Block, (∀ b ∈ blocks, b.isWellFormed) →
  ∀ done : List Text, pass.name ∉ done → ∀ origin,
    pass.run origin (blocks.flatMap (Block.passed done)) =
      pure ⟨blocks.flatMap (Block.passed (done ++ [pass.name])), setAside blocks pass.name⟩

theorem setAside_of_ne {name : Text} (hname : name ≠ "fx") (blocks : List Block) :
    setAside blocks name = if hasBlock blocks name then ["has_" ++ name] else [] :=
  if_neg hname

/-- A pass that replaces the parts of its blocks and says whether there are any, if every block of the
pass has a part. -/
theorem Handles.changesItsBlocks {α : Type} {pass : Pass} {key : Text} {p : Pattern α} {g : α → Text}
    {part : Block → Option α} (hp : Handles pass.name key p g part)
    (hpart : ∀ b, (part b).isSome = decide (b.pass? = some pass.name)) (hname : pass.name ≠ "fx")
    (hrun : ∀ origin content, pass.run origin content =
      pure ⟨p.replace g content, if p.occursIn content then ["has_" ++ pass.name] else []⟩) :
    ChangesItsBlocks pass := by
  intro blocks h done hdone origin
  obtain ⟨hreplace, hparts⟩ := hp.replace_parts hdone h
  have hoccurs : p.occursIn (blocks.flatMap (Block.passed done)) = hasBlock blocks pass.name := by
    rw [Pattern.occursIn, hparts, hasBlock, Bool.eq_iff_iff]
    simp [← hpart, Option.isSome_iff_ne_none]
  rw [hrun, hreplace, hoccurs, setAside_of_ne hname]

theorem changesItsBlocks_notes : ChangesItsBlocks notes :=
  Handles.changesItsBlocks handles_notes (fun b => by cases b <;> simp [Block.pass?, notes])
    (by simp [notes]) fun _ _ => by simp [notes]

theorem changesItsBlocks_qrCodes : ChangesItsBlocks qrCodes :=
  Handles.changesItsBlocks handles_qrCodes (fun b => by cases b <;> simp [Block.pass?, qrCodes])
    (by simp [qrCodes]) fun _ _ => by simp [qrCodes]

theorem changesItsBlocks_effects : ChangesItsBlocks effects := by
  intro blocks h done hdone origin
  obtain ⟨hreplace, hparts⟩ := handles_effects.replace_parts hdone h
  have haside : setAside blocks effects.name = blocks.flatMap Block.effectWords := if_pos rfl
  have hwords : setAside blocks effects.name = (effectsPattern.parts
      (blocks.flatMap (Block.passed done))).flatMap fun d => words d.text := by
    rw [hparts, haside]
    clear h hreplace hparts haside
    induction blocks with
    | nil => rfl
    | cons b blocks ih =>
      rw [List.flatMap_cons, ih]
      cases b <;> simp [Block.effectWords]
  rw [hwords]
  simp only [effects, hreplace]

/-- A code block starts with a code tag, with a language or without. -/
theorem exists_passed_code (body : Text) (names : List Text) :
    ∃ more, (Block.code body).passed names = "<pre><code" ++ more := by
  have hhtml : (Block.code body).html = "<pre><code" ++ (">" ++ body ++ "\n</code></pre>\n") := by
    simp [Block.html]
  rw [Block.passed]
  split
  · rw [Block.changed]
    split
    · next language rest _ =>
      exact ⟨" class=\"language-" ++ language ++ "\">" ++ rest ++ "</code></pre>\n", by simp⟩
    · exact ⟨_, hhtml⟩
  · exact ⟨_, hhtml⟩

theorem occursIn_of_code {blocks : List Block} (hcode : hasBlock blocks "code")
    (names : List Text) : occursIn "<pre><code" (blocks.flatMap (Block.passed names)) := by
  obtain ⟨b, hb, hpass⟩ := List.any_eq_true.1 hcode
  cases b with
  | code body =>
    obtain ⟨more, hmore⟩ := exists_passed_code body names
    rw [List.flatMap_def]
    exact occursIn_mono (List.infix_of_mem_flatten (List.mem_map_of_mem hb))
      (occursIn_iff.2 ⟨[], more, hmore⟩)
  | _ => simp [Block.pass?] at hpass

theorem not_occursIn_of_no_code {blocks : List Block} (h : ∀ b ∈ blocks, b.isWellFormed)
    (hcode : hasBlock blocks "code" = false) (names : List Text) :
    occursIn "<pre" (blocks.flatMap (Block.passed names)) = false := by
  have hall : AtBrackets (dropAffix? ('<' :: "pre") · = none)
      (blocks.flatMap (Block.passed names)) := by
    have hkey : (("code", "pre") : Text × Text) ∈ textKeys := by simp [textKeys]
    refine atBrackets_flatMap fun b hb => Block.atBrackets_passed (h b hb) hkey ?_ names
    simpa using List.any_eq_false.1 hcode b hb
  simpa using occursIn_eq_false_of_atBrackets hall

theorem changesItsBlocks_code : ChangesItsBlocks code := by
  intro blocks h done hdone origin
  have hname : ("has_code" : Text) = "has_" ++ code.name := by simp [code]
  have hreplace := (handles_code.replace_parts hdone h).1
  rw [setAside_of_ne (by simp [code])]
  by_cases hcode : hasBlock blocks "code"
  · have hpre : occursIn "<pre" (blocks.flatMap (Block.passed done)) := by
      obtain ⟨before, after, hsplit⟩ := occursIn_iff.1 (occursIn_of_code hcode done)
      exact occursIn_iff.2 ⟨before, "><code" ++ after, by simp [hsplit]⟩
    simp only [code, hpre, if_true, hreplace, occursIn_of_code hcode] at hname ⊢
    rw [hname, if_pos hcode]
  · have hnone : hasBlock blocks code.name = false := eq_false_of_ne_true hcode
    have hpre := not_occursIn_of_no_code h hnone done
    have hsame : blocks.flatMap (Block.passed (done ++ [code.name])) =
        blocks.flatMap (Block.passed done) := by
      refine List.flatMap_congr fun b hb => Block.passed_append_of_ne ?_ done
      simpa using List.any_eq_false.1 hnone b hb
    rw [hnone, hsame]
    simp only [code, hpre, Bool.false_eq_true, if_false]

/-! ## All of them -/

theorem exists_changesItsBlocks (settings : Settings) {name : Text}
    (hname : name ∈ textKeys.map Prod.fst) :
    ∃ pass, standard? settings name = some pass ∧ pass.name = name ∧ ChangesItsBlocks pass := by
  simp only [textKeys, List.map_cons, List.map_nil, List.mem_cons, List.not_mem_nil, or_false] at hname
  rcases hname with rfl | rfl | rfl | rfl
  · exact ⟨code, by cbv, rfl, changesItsBlocks_code⟩
  · exact ⟨effects, by cbv, rfl, changesItsBlocks_effects⟩
  · exact ⟨notes, by cbv, rfl, changesItsBlocks_notes⟩
  · exact ⟨qrCodes, by cbv, rfl, changesItsBlocks_qrCodes⟩

end Slideshow.Pass

namespace Slideshow.Pipeline
open Pass (Block setAside textKeys)

variable {settings : Settings} {blocks : List Block}

theorem foldlM_registerNamed_text (settings : Settings) (origin : Origin)
    (h : ∀ b ∈ blocks, b.isWellFormed) {names : List Text}
    (hnames : ∀ name ∈ names, name ∈ textKeys.map Prod.fst) (p : Pipeline) (aside : List Text)
    (hnodup : (p.names ++ names).Nodup) :
    ∃ passes, names.foldlM (registerNamed settings) p = .ok ⟨p.passes ++ passes⟩ ∧
      passes.foldlM (step origin) ⟨blocks.flatMap (Block.passed p.names), aside⟩ =
        pure ⟨blocks.flatMap (Block.passed (p.names ++ names)),
          aside ++ names.flatMap (setAside blocks)⟩ := by
  -- Each further pass is registered behind those of the pipeline and runs on what they have left.
  induction names generalizing p aside with
  | nil => exact ⟨[], by simp; rfl, by simp⟩
  | cons name names ih =>
    obtain ⟨pass, hstandard, rfl, hchanges⟩ := Pass.exists_changesItsBlocks settings
      (hnames name (by simp))
    have hnew : pass.name ∉ p.names := fun hmem =>
      (List.disjoint_of_nodup_append hnodup) hmem (by simp)
    have hregister : registerNamed settings p pass.name = .ok ⟨p.passes ++ [pass]⟩ := by
      simp [registerNamed, hstandard, register, contains, hnew]
    have hlonger : Pipeline.names ⟨p.passes ++ [pass]⟩ = p.names ++ [pass.name] := by
      simp [Pipeline.names]
    obtain ⟨passes, hpasses, hrun⟩ := ih (fun name hname => hnames name (by simp [hname]))
      ⟨p.passes ++ [pass]⟩ (aside ++ setAside blocks pass.name) (by simpa [hlonger] using hnodup)
    refine ⟨pass :: passes, ?_, ?_⟩
    · rw [List.foldlM_cons, hregister]
      exact hpasses.trans (by simp)
    · have hstep : step origin ⟨blocks.flatMap (Block.passed p.names), aside⟩ pass =
          pure ⟨blocks.flatMap (Block.passed (p.names ++ [pass.name])),
            aside ++ setAside blocks pass.name⟩ := by
        rw [step, hchanges blocks h p.names hnew origin, pure_bind]
      rw [List.foldlM_cons, hstep, pure_bind, ← hlonger, hrun]
      simp [hlonger]

/-- The text passes find their own blocks in content made of well-formed blocks, change only these,
and leave the same content whatever their order is. What they set aside stands in that order. -/
theorem process_textPasses {names : List Text} (hnodup : names.Nodup)
    (hnames : ∀ name ∈ names, name ∈ textKeys.map Prod.fst) (h : ∀ b ∈ blocks, b.isWellFormed)
    {others : List Text} (hperm : others.Perm names) (origin : Origin) :
    ∃ p, ofNames settings others = .ok p ∧ p.process origin (blocks.flatMap Block.html) =
      pure ⟨blocks.flatMap (Block.passed names), others.flatMap (setAside blocks)⟩ := by
  have hothers : (empty.names ++ others).Nodup := hperm.nodup_iff.2 hnodup
  obtain ⟨passes, hpasses, hrun⟩ := foldlM_registerNamed_text settings origin h
    (fun name hname => hnames name (hperm.mem_iff.1 hname)) empty [] hothers
  have hbefore : Block.passed empty.names = Block.html := by
    funext b
    simp [Block.passed, empty, Pipeline.names]
  have hafter : Block.passed (empty.names ++ others) = Block.passed names := by
    funext b
    simp [Block.passed, empty, Pipeline.names, hperm.mem_iff]
  rw [hbefore, hafter] at hrun
  exact ⟨⟨passes⟩, hpasses, hrun⟩

/-- A block of every kind; the pass for the last one does not run below. -/
def sampleBlocks : List Block :=
  [.code "!lisp 1\n(car x)", .notes "Wait.", .paragraph "a &lt; b", .effects "bright  loud",
    .code "x", .qrCode "90" "a b"]

theorem process_sampleBlocks :
    ∃ p, ofNames {} ["notes", "fx", "code"] = .ok p ∧ p.process ⟨⟨[], []⟩, none⟩
      ("<pre><code>!lisp 1\n(car x)\n</code></pre>\n<p>.notes: Wait.</p>\n<p>a &lt; b</p>\n" ++
        "<p>.fx: bright  loud</p>\n<pre><code>x\n</code></pre>\n<p>.qr: 90|a b</p>\n") = pure
      ⟨"<pre><code class=\"language-lisp\">(car x)\n</code></pre>\n<p class=\"notes\">Wait.</p>\n" ++
        "<p>a &lt; b</p>\n<pre><code>x\n</code></pre>\n<p>.qr: 90|a b</p>\n",
      ["has_notes", "bright", "loud", "has_code"]⟩ := by
  have h : ∀ b ∈ sampleBlocks, b.isWellFormed := List.all_eq_true.1 (by cbv)
  have hnodup : (["code", "fx", "notes"] : List Text).Nodup := by simp
  have hnames : ∀ name ∈ (["code", "fx", "notes"] : List Text), name ∈ textKeys.map Prod.fst := by
    simp [textKeys]
  have hperm : (["notes", "fx", "code"] : List Text).Perm ["code", "fx", "notes"] :=
    List.reverse_perm (["code", "fx", "notes"] : List Text)
  obtain ⟨p, hp, hprocess⟩ := @process_textPasses {} sampleBlocks _ hnodup hnames h _ hperm
    ⟨⟨[], []⟩, none⟩
  refine ⟨p, hp, Eq.trans ?_ (hprocess.trans ?_)⟩
  · exact congrArg (p.process _) (by cbv)
  · exact congrArg pure (by cbv)

end Slideshow.Pipeline
