import Slideshow.Proofs.BlockEquations
import Slideshow.Proofs.EmittedPage
import Slideshow.Proofs.NotesWords
import Slideshow.Proofs.PageAnchors
import Slideshow.Proofs.PatternParts

/-!
# The class attribute of a section

The classes of a slide are tokens without white space, which the page prints between two quotes as they
are. So the attribute reads as these tokens again exactly if none of them holds a quote.
-/
namespace Slideshow
open Text Template Markup

/-! ## Tokens -/

/-- A token: it is not empty and holds no white space. -/
def IsToken (t : Text) : Prop := t ≠ [] ∧ ∀ c ∈ t, isBlank c = false

theorem Text.isToken_of_mem_words {s w : Text} (h : w ∈ words s) : IsToken w := by
  fun_induction words s with
  | case1 => simp at h
  | case2 s c rest hs ih =>
    rcases List.mem_cons.1 h with rfl | h
    · have hc : isBlank c = false := by
        have := List.head?_dropWhile_not isBlank s
        simpa [hs] using this
      refine ⟨by simp, fun d hd => ?_⟩
      rcases List.mem_cons.1 hd with rfl | hd
      · exact hc
      · simpa using List.mem_takeWhile_imp hd
    · exact ih h

theorem Text.mem_of_mem_words {s w : Text} {c : Char} (h : w ∈ words s) (hc : c ∈ w) : c ∈ s := by
  fun_induction words s with
  | case1 => simp at h
  | case2 s d rest hs ih =>
    have hrest : ∀ e ∈ d :: rest, e ∈ s := by
      intro e he
      rw [← hs] at he
      exact (List.dropWhile_suffix _).subset he
    rcases List.mem_cons.1 h with rfl | h
    · rcases List.mem_cons.1 hc with rfl | hc
      · exact hrest c (by simp)
      · exact hrest c (List.mem_cons_of_mem d ((List.takeWhile_prefix _).subset hc))
    · exact hrest c (List.mem_cons_of_mem d ((List.dropWhile_suffix _).subset (ih h)))

/-- White space at the front of a text changes nothing of its words. -/
theorem Text.words_congr {s t : Text} (h : trimLeft s = trimLeft t) : words s = words t := by
  cases hs : words s with
  | nil =>
    rw [words_eq_nil_iff, h] at hs
    exact (words_eq_nil_iff.2 hs).symm
  | cons w ws =>
    obtain ⟨hne, hall⟩ := isToken_of_mem_words (hs ▸ List.mem_cons_self : w ∈ words s)
    obtain ⟨rest, hw, hrest, rfl⟩ := trimLeft_of_words hs
    exact (words_of_trimLeft (h ▸ hw) hne hall hrest).symm

/-- Tokens with a space in front of each are the words of the text they make. -/
theorem Text.words_tokens {ts : List Text} (h : ∀ t ∈ ts, IsToken t) :
    words (ts.flatMap fun t => ' ' :: t) = ts := by
  induction ts with
  | nil => exact words_eq_nil_iff.2 rfl
  | cons t ts ih =>
    obtain ⟨hne, hall⟩ := h t (by simp)
    have htrim : trimLeft ((t :: ts).flatMap fun t => ' ' :: t) = t ++ ts.flatMap fun t => ' ' :: t := by
      cases t with
      | nil => exact absurd rfl hne
      | cons c t => simp [trimLeft, show isBlank ' ' = true by decide, hall c (by simp)]
    have hrest : (ts.flatMap fun t => ' ' :: t).head?.all isBlank := by
      cases ts <;> simp [show isBlank ' ' = true by decide]
    rw [words_of_trimLeft htrim hne hall hrest, ih fun u hu => h u (List.mem_cons_of_mem t hu)]

/-! ## The classes of slides -/

/-- The words that a pass sets aside are tokens. -/
def Pass.SetsTokensAside (p : Pass) : Prop := ∀ origin content passed,
  (p.run origin content).result = .ok passed → ∀ t ∈ passed.sideData, IsToken t

theorem isToken_of_all {t : Text} (h : (t ≠ [] && t.all (!isBlank ·)) = true) : IsToken t := by
  simpa [IsToken] using h

theorem Pass.setsTokensAside_standard (settings : Settings) :
    ∀ pass ∈ (Pipeline.standard settings).passes, pass.SetsTokensAside := by
  have hnone : ∀ t ∈ ([] : List Text), IsToken t := by simp
  have hone : ∀ {b : Bool} {t : Text}, (t ≠ [] && t.all (!isBlank ·)) = true →
      ∀ u ∈ (if b then [t] else []), IsToken u := by
    intro b t ht u hu
    cases b with
    | false => exact hnone u hu
    | true =>
      rw [List.mem_singleton.1 hu]
      exact isToken_of_all ht
  intro pass hpass origin content passed hrun
  rw [Pipeline.passes_standard] at hpass
  simp only [List.mem_cons, List.not_mem_nil, or_false] at hpass
  rcases hpass with rfl | rfl | rfl | rfl | rfl | rfl
  · rw [← Except.ok.inj hrun]
    split
    · exact hone (by cbv)
    · exact hnone
  · simp only [embedImages] at hrun
    split at hrun
    · obtain ⟨parts, -, hrun⟩ := Outcome.bind_eq_ok_iff.1 hrun
      rw [← Except.ok.inj hrun]
      exact hnone
    · rw [← Except.ok.inj hrun]
      exact hnone
  · rw [← Except.ok.inj hrun]
    split <;> exact hnone
  · rw [← Except.ok.inj hrun]
    intro t ht
    obtain ⟨directive, -, ht⟩ := List.mem_flatMap.1 ht
    exact isToken_of_mem_words ht
  · rw [← Except.ok.inj hrun]
    exact hone (by cbv)
  · rw [← Except.ok.inj hrun]
    exact hone (by cbv)

theorem Pipeline.isToken_of_process {p : Pipeline} (h : ∀ pass ∈ p.passes, pass.SetsTokensAside)
    {origin : Origin} {content : Text} {passed : Passed}
    (hp : (p.process origin content).result = .ok passed) : ∀ t ∈ passed.sideData, IsToken t := by
  have hstart : ∀ t ∈ (⟨content, []⟩ : Passed).sideData, IsToken t := by simp
  rw [process] at hp
  generalize (⟨content, []⟩ : Passed) = before at hp hstart
  generalize p.passes = passes at h hp
  induction passes generalizing before with
  | nil =>
    rw [← Except.ok.inj hp]
    exact hstart
  | cons pass passes ih =>
    rw [List.foldlM_cons] at hp
    obtain ⟨between, hbetween, hp⟩ := Outcome.bind_eq_ok_iff.1 hp
    obtain ⟨after, hafter, hbetween⟩ := Outcome.bind_eq_ok_iff.1 hbetween
    refine ih between (fun t ht => ?_) (fun q hq => h q (List.mem_cons_of_mem pass hq)) hp
    rw [← Except.ok.inj hbetween] at ht
    rcases List.mem_append.1 ht with ht | ht
    · exact hstart t ht
    · exact h pass (by simp) origin _ after hafter t ht

namespace Slide

theorem classes_ofFragment (fragment : Text) (showNotes : Bool) :
    (ofFragment fragment showNotes).classes = [] := by
  simp only [ofFragment]
  split <;> rfl

theorem mem_insertClass {classes : List Text} {name c : Text} (h : c ∈ insertClass classes name) :
    c ∈ classes ∨ c = name ∧ name ≠ [] := by
  rw [insertClass] at h
  split at h
  · exact .inl h
  · next hnew =>
    rw [not_or] at hnew
    exact (List.mem_append.1 h).imp_right fun hc => ⟨List.mem_singleton.1 hc, hnew.1⟩

theorem mem_addClasses {s : Slide} {names : List Text} {c : Text} (h : c ∈ (s.addClasses names).classes) :
    c ∈ s.classes ∨ c ∈ names ∧ c ≠ [] := by
  simp only [addClasses] at h
  generalize s.classes = classes at h ⊢
  induction names generalizing classes with
  | nil => exact .inl h
  | cons name names ih =>
    rcases ih _ h with hc | ⟨hc, hne⟩
    · rcases mem_insertClass hc with hc | ⟨rfl, hne⟩
      · exact .inl hc
      · exact .inr ⟨by simp, hne⟩
    · exact .inr ⟨List.mem_cons_of_mem name hc, hne⟩

end Slide

namespace Deck
variable {d : Deck} {store : Store} {source : Option Text} {s t : Slide}

theorem classes_of_passHeader (h : (d.passHeader store source s).result = .ok t) :
    t.classes = s.classes := by
  rw [passHeader] at h
  split at h
  · rw [← Except.ok.inj h]
  · obtain ⟨passed, -, h⟩ := Outcome.bind_eq_ok_iff.1 h
    rw [← Except.ok.inj h]

/-- The classes of a slide are the default ones and what the passes set aside. -/
theorem mem_classes_of_slideOf {fragment c : Text}
    (h : (d.slideOf store source fragment).result = .ok s) (hc : c ∈ s.classes) :
    c ∈ d.settings.defaultClasses ∧ c ≠ [] ∨ ∃ content passed,
      (d.process store source content).result = .ok passed ∧ c ∈ passed.sideData ∧ c ≠ [] := by
  rw [slideOf] at h
  obtain ⟨headed, hheaded, h⟩ := Outcome.bind_eq_ok_iff.1 h
  obtain ⟨filled, hfilled, h⟩ := Outcome.bind_eq_ok_iff.1 h
  rw [← Except.ok.inj h] at hc
  have hheader : headed.classes = [] := by
    rw [classes_of_passHeader hheaded, Slide.classes_ofFragment]
  have hdefault : c ∈ (headed.addClasses d.settings.defaultClasses).classes →
      c ∈ d.settings.defaultClasses ∧ c ≠ [] := by
    intro hc
    rcases Slide.mem_addClasses hc with hc | hc
    · simp [hheader] at hc
    · exact hc
  rw [passContent] at hfilled
  split at hfilled
  · rw [← Except.ok.inj hfilled] at hc
    exact .inl (hdefault hc)
  · obtain ⟨passed, hpassed, hfilled⟩ := Outcome.bind_eq_ok_iff.1 hfilled
    rw [← Except.ok.inj hfilled] at hc
    rcases Slide.mem_addClasses hc with hc | hc
    · exact .inl (hdefault hc)
    · exact .inr ⟨_, passed, hpassed, hc⟩

theorem isToken_of_mem_classes {slides : List Slide}
    (hpipeline : d.pipeline = Pipeline.standard d.settings)
    (hdefault : ∀ c ∈ d.settings.defaultClasses, ∀ x ∈ c, isBlank x = false)
    (h : (d.slides store).result = .ok slides) : ∀ s ∈ slides, ∀ c ∈ s.classes, IsToken c := by
  obtain ⟨made, hmade, rfl⟩ := of_slides h
  intro s hs c hc
  obtain ⟨t, ht, hst⟩ := Slide.exists_of_mem_numbered hs
  obtain ⟨fragment, -, hfragment⟩ := exists_of_mem_mapM hmade t (List.mem_of_mem_filter ht)
  rw [hst] at hc
  rcases mem_classes_of_slideOf hfragment hc with ⟨hc, hne⟩ | ⟨content, passed, hpassed, hc, -⟩
  · exact ⟨hne, hdefault c hc⟩
  · rw [process, hpipeline] at hpassed
    exact Pipeline.isToken_of_process (Pass.setsTokensAside_standard _) hpassed c hc

end Deck

/-! ## Sections of the page -/

namespace Page
variable {n : Nat} {s : Slide}

/-- The classes of a section as the page prints them. -/
def printedClasses (s : Slide) : Text := "slide" ++ s.classes.flatMap fun c => ' ' :: c

/-- The value of the class attribute at the front of a section, and what follows the value. -/
def readClass? (section_ : Text) : Option (Text × Text) :=
  (dropAffix? "<section class=\"" section_).map fun t =>
    (t.takeWhile (· ≠ '"'), t.dropWhile (· ≠ '"'))

theorem spelled_nil : spelled [] = [] := rfl

theorem spelled_flatMap {α : Type} (f : α → Emitted) (as : List α) :
    spelled (as.flatMap f) = as.flatMap fun a => spelled (f a) := by
  induction as with
  | nil => rfl
  | cons a as ih => rw [List.flatMap_cons, List.flatMap_cons, spelled_append, ih]

theorem spelled_sectionOf (n : Nat) (s : Slide) : spelled (sectionOf n s) =
    "<section class=\"" ++ (printedClasses s ++ '"' :: (" id=\"slide-" ++ decimal s.number ++ "\">"
      ++ spelled (sectionBody n s))) := by
  have hopen : ∀ tag : Emitted, spelled (.inl '<' :: tag ++ [.inl '>']) = '<' :: (spelled tag ++ ['>']) :=
    fun tag => by simp [spelled]
  rw [sectionOf, spelled_append, hopen, sectionTag]
  simp only [List.flatten_cons, List.flatten_nil, spelled_append, spelled_own, spelled_put,
    spelled_flatMap, spelled_nil, printedClasses]
  simp

/-- The page is a frame around the sections of its slides. -/
theorem exists_render_sections (p : Page) : ∃ before after, p.render none =
    .ok (before ++ (p.slides.flatMap fun s => spelled (sectionOf p.slideCount s)) ++ after) := by
  obtain ⟨first, hfirst, -⟩ := exists_emitAll?_opening p
  obtain ⟨last, hlast, -⟩ := exists_emitAll?_closing p
  have hnavigation : Node.emitAll? ⟨[], p.values⟩ navigation = some (navigationOf p.outline) :=
    emitAll?_navigation (Scope.Names.of_values (by cbv))
  have hpage := Node.emitAll?_append (Node.emitAll?_append (Node.emitAll?_append hfirst hnavigation)
    (emitAll?_slides p)) hlast
  refine ⟨spelled first ++ spelled (navigationOf p.outline) ++ "<div class=\"slides\">\n",
    "</div>\n" ++ spelled last, (render_of_emitAll? hpage).trans (congrArg Except.ok ?_)⟩
  simp only [List.flatten_cons, List.flatten_nil, spelled_append, spelled_own, spelled_flatMap,
    spelled_nil]
  simp

theorem readClass?_append (t : Text) : readClass? ("<section class=\"" ++ t) =
    some (t.takeWhile (· ≠ '"'), t.dropWhile (· ≠ '"')) := by
  rw [readClass?, dropAffix?_append, Option.map_some]

theorem mem_printedClasses {x : Char} : x ∈ printedClasses s ↔
    x ∈ ("slide" : Text) ∨ ∃ c ∈ s.classes, x = ' ' ∨ x ∈ c := by
  rw [printedClasses, List.mem_append]
  simp

/-- The class attribute of a section reads as the classes of its slide exactly if no class has a quote;
and then the tag ends as the page has it, and markup in the attribute is markup in a class. -/
theorem readClass?_sectionOf (h : ∀ c ∈ s.classes, IsToken c) (n : Nat) : ∃ value rest,
    readClass? (spelled (sectionOf n s)) = some (value, rest) ∧
      (words value = ("slide" : Text) :: s.classes ↔ ∀ c ∈ s.classes, '"' ∉ c) ∧
      ((∀ c ∈ s.classes, '"' ∉ c) →
        (∃ body, rest = "\" id=\"slide-" ++ decimal s.number ++ "\">" ++ body) ∧
          ('<' ∈ value ↔ ∃ c ∈ s.classes, '<' ∈ c)) := by
  rw [spelled_sectionOf, readClass?_append]
  refine ⟨_, _, rfl, ⟨fun hwords c hc hquote => ?_, fun hclean => ?_⟩, fun hclean => ?_⟩
  · have hmem := mem_of_mem_words (hwords ▸ List.mem_cons_of_mem _ hc) hquote
    simpa using List.mem_takeWhile_imp hmem
  all_goals
    have hrun : ∀ x ∈ printedClasses s, decide (x ≠ '"') := by
      intro x hx
      rw [decide_eq_true_eq]
      rintro rfl
      rcases mem_printedClasses.1 hx with hx | ⟨c, hc, hx | hx⟩
      · simp at hx
      · simp at hx
      · exact hclean c hc hx
    rw [takeWhile_run hrun rfl]
  · have hslide : words (printedClasses s) = words (' ' :: printedClasses s) := words_congr (by
      simp [trimLeft, show isBlank ' ' = true by decide])
    have htokens : ∀ t ∈ ("slide" : Text) :: s.classes, IsToken t :=
      List.forall_mem_cons.2 ⟨isToken_of_all (by cbv), h⟩
    rw [hslide]
    exact words_tokens htokens
  · rw [dropWhile_run hrun rfl]
    refine ⟨⟨spelled (sectionBody n s), by simp⟩, ?_⟩
    simp [mem_printedClasses]

end Page

namespace Deck
variable {d : Deck} {store : Store} {slides : List Slide}

/-- With the standard passes, the page of a deck prints the classes of each slide as tokens between two
quotes. The attribute of a section reads as these classes exactly if none of them holds a quote. -/
theorem classes_of_render (hpipeline : d.pipeline = Pipeline.standard d.settings)
    (htemplate : d.settings.template = none)
    (hdefault : ∀ c ∈ d.settings.defaultClasses, ∀ x ∈ c, isBlank x = false)
    (h : (d.slides store).result = .ok slides) : ∃ before after,
      (d.render store).result = .ok
        (before ++ (slides.flatMap fun s => spelled (Page.sectionOf slides.length s)) ++ after) ∧
      ∀ s ∈ slides, ∃ value rest,
        Page.readClass? (spelled (Page.sectionOf slides.length s)) = some (value, rest) ∧
        (words value = ("slide" : Text) :: s.classes ↔ ∀ c ∈ s.classes, '"' ∉ c) ∧
        ((∀ c ∈ s.classes, '"' ∉ c) →
          (∃ body, rest = "\" id=\"slide-" ++ decimal s.number ++ "\">" ++ body) ∧
            ('<' ∈ value ↔ ∃ c ∈ s.classes, '<' ∈ c)) := by
  obtain ⟨before, after, hrender⟩ := Page.exists_render_sections (d.page slides)
  refine ⟨before, after, ?_, fun s hs =>
    Page.readClass?_sectionOf (isToken_of_mem_classes hpipeline hdefault h s hs) _⟩
  rw [render, Outcome.bind_of_ok h, htemplate]
  exact hrender

/-- A deck whose effects name a class with a quote. -/
def quotedTalk : Deck where
  source := "talk.rst"
  settings := {}
  dialect := .restructuredText
  text := ".fx: a\"b\n\ntext\n"
  pipeline := Pipeline.standard {}

def quotedStore : Store := ⟨["deck"], [(["deck"], .directory), (["deck", "talk.rst"], .file [])]⟩

def quotedSlide : Slide where
  number := 1
  content := "<p>text</p>"
  classes := ["a\"b"]
  source := facts quotedStore "talk.rst"

theorem html_quotedTalk : quotedTalk.html = "<p>.fx: a\"b</p>\n<p>text</p>\n" := by
  have hlines : Restructured.linesOf ".fx: a\"b\n\ntext\n" = [(".fx: a\"b" : Text), [], "text"] := by cbv
  have heffects : Restructured.Opening.of true ".fx: a\"b" [[], "text"] = .paragraph := by cbv
  have htext : Restructured.Opening.of true "text" [] = .paragraph := by cbv
  have hblocks : Restructured.Block.ofSource ".fx: a\"b\n\ntext\n" =
      [.paragraph ".fx: a\"b", .paragraph "text"] := by
    rw [Restructured.Block.ofSource, hlines,
      Restructured.blocks_paragraph (by simp) (by simp) heffects]
    have hrest : [[], ("text" : Text)].dropWhile (· ≠ []) = [[], ("text" : Text)] := by simp
    have hindent : Restructured.indent "text" = 0 := by cbv
    rw [hrest, Restructured.blocks_blank,
      Restructured.blocks_paragraph (by simp) (fun h => absurd (h.2.trans_eq hindent) (Nat.lt_irrefl 0)) htext]
    cbv
  calc
    quotedTalk.html = Restructured.Block.htmlAll [.paragraph ".fx: a\"b", .paragraph "text"] :=
      congrArg _ hblocks
    _ = "<p>.fx: a\"b</p>\n<p>text</p>\n" := by decide +kernel

theorem process_quotedTalk : quotedTalk.process quotedStore (some "talk.rst")
    "<p>.fx: a\"b</p>\n<p>text</p>" = pure ⟨"<p>text</p>", ["a\"b"]⟩ := by
  have hpre : occursIn "<pre" "<p>.fx: a\"b</p>\n<p>text</p>" = false := by cbv
  have himage : occursIn "<img" "<p>.fx: a\"b</p>\n<p>text</p>" = false := by cbv
  have hdot : occursIn "<p>." "<p>text</p>" = false := by cbv
  have hsplit : Pass.effectsPattern.split "<p>.fx: a\"b</p>\n<p>text</p>" =
      .inr ⟨" ", "a\"b", ['\n']⟩ :: ("<p>text</p>" : Text).map .inl := by
    rw [Pattern.split_eq_splitWithin _ 60 (by cbv)]
    cbv
  have hcode := run_code_of_not_occursIn hpre ⟨quotedStore, some "talk.rst"⟩
  have hlink := run_linkImages_of_not_occursIn himage false ⟨quotedStore, some "talk.rst"⟩
  have heffects : Pass.effects.run ⟨quotedStore, some "talk.rst"⟩ "<p>.fx: a\"b</p>\n<p>text</p>" =
      pure ⟨"<p>text</p>", ["a\"b"]⟩ := by
    simp only [Pass.effects, Pattern.replace, Pattern.parts, hsplit]
    cbv
  have hembed : (Pass.embedImages false).run ⟨quotedStore, some "talk.rst"⟩
      "<p>.fx: a\"b</p>\n<p>text</p>" = pure ⟨"<p>.fx: a\"b</p>\n<p>text</p>", []⟩ := rfl
  have hrest := run_directives hdot ⟨quotedStore, some "talk.rst"⟩
  rw [process, Pipeline.process, show quotedTalk.pipeline = Pipeline.standard {} from rfl,
    Pipeline.passes_standard, Pipeline.foldlM_step_of_run hcode, Pipeline.foldlM_step_of_run hembed,
    Pipeline.foldlM_step_of_run hlink, Pipeline.foldlM_step_of_run heffects]
  exact Pipeline.foldlM_step fun pass hpass => hrest pass (List.mem_cons_of_mem _ hpass)

theorem slides_quotedTalk : quotedTalk.slides quotedStore = pure [quotedSlide] := by
  have hsplit : Fragment.split "<p>.fx: a\"b</p>\n<p>text</p>\n" 1 =
      [("<p>.fx: a\"b</p>\n<p>text</p>" : Text)] := by decide +kernel
  have hparts : Slide.ofFragment "<p>.fx: a\"b</p>\n<p>text</p>" quotedTalk.settings.presenterNotes =
      { content := "<p>.fx: a\"b</p>\n<p>text</p>" } := by cbv
  have hmade : quotedTalk.slideOf quotedStore (some "talk.rst") "<p>.fx: a\"b</p>\n<p>text</p>" =
      pure { quotedSlide with number := 0 } := by
    have hpassed : quotedTalk.passContent quotedStore (some "talk.rst")
        { content := "<p>.fx: a\"b</p>\n<p>text</p>" } =
          pure { content := "<p>text</p>", classes := ["a\"b"] } := by
      rw [passContent, if_neg (by simp), process_quotedTalk, pure_bind]
      cbv
    rw [slideOf, hparts]
    exact congrArg (· >>= fun s : Slide =>
      (pure { s with source := facts quotedStore "talk.rst" } : Outcome Slide)) hpassed
  rw [slides, html_quotedTalk]
  have hlist : Fragment.split "<p>.fx: a\"b</p>\n<p>text</p>\n" quotedTalk.settings.splitLevel =
      [("<p>.fx: a\"b</p>\n<p>text</p>" : Text)] := hsplit
  rw [hlist, List.foldlM_cons, show quotedTalk.source = "talk.rst" from rfl, hmade]
  cbv

theorem classes_of_render_quotedTalk : (quotedTalk.slides quotedStore).result = .ok [quotedSlide] ∧
    ∃ before after, (quotedTalk.render quotedStore).result = .ok
        (before ++ ([quotedSlide].flatMap fun s => spelled (Page.sectionOf 1 s)) ++ after) ∧
      ∃ value rest, Page.readClass? (spelled (Page.sectionOf 1 quotedSlide)) = some (value, rest) ∧
        (words value = ("slide" : Text) :: quotedSlide.classes ↔ ∀ c ∈ quotedSlide.classes, '"' ∉ c) := by
  have hslides : (quotedTalk.slides quotedStore).result = .ok [quotedSlide] := by
    rw [slides_quotedTalk]
    rfl
  obtain ⟨before, after, hrender, hall⟩ := classes_of_render rfl rfl (by simp [quotedTalk]) hslides
  obtain ⟨value, rest, hread, hiff, -⟩ := hall quotedSlide (List.mem_singleton_self _)
  exact ⟨hslides, before, after, hrender, value, rest, hread, hiff⟩

/-- The quote of a class ends the attribute, and the rest of the class is none of it. -/
theorem class_cut_at_quote : (quotedTalk.slides quotedStore).result = .ok [quotedSlide] ∧
    ∃ value rest, Page.readClass? (spelled (Page.sectionOf 1 quotedSlide)) = some (value, rest) ∧
      words value ≠ ("slide" : Text) :: quotedSlide.classes := by
  refine ⟨by rw [slides_quotedTalk]; rfl, "slide a",
    "\"b\" id=\"slide-1\">" ++ spelled (Page.sectionBody 1 quotedSlide), ?_, ?_⟩
  · rw [Page.spelled_sectionOf, Page.readClass?_append]
    cbv
  · have hwords : words "slide a" = [("slide" : Text), "a"] := by decide +kernel
    rw [hwords]
    decide +kernel

end Deck

end Slideshow
