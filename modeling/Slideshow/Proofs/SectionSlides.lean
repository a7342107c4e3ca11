import Slideshow.Deck.Render
import Slideshow.Proofs.SectionContent

/-!
# The slides of a document of sections

From the file to the outline: the document is read, split into the fragments of its slides, each
fragment is taken apart into heading and content, no pass changes either, and the slides are numbered
in the order of the document.
-/
namespace Slideshow
open Text Restructured Forest

/-- The slide of a section and the deeper ones behind it. -/
def sectionSlide (settings : Settings) (facts : List (Text × Text)) (adornments : List Char)
    (number : Nat) (p : Section × List Section) : Slide where
  number
  title := some (escaped p.1.title)
  level := some (p.1.level adornments)
  header := some (p.1.heading adornments)
  content := unlines (contentLines adornments p)
  classes := (settings.defaultClasses.filter (· ≠ [])).eraseDups
  source := facts

/-- The slides of a document of sections, numbered from one. -/
def sectionSlides (settings : Settings) (facts : List (Text × Text)) (ss : List Section) :
    List Slide :=
  (slideSections (adornmentsOf ss) settings.splitLevel ss).mapIdx fun i p =>
    sectionSlide settings facts (adornmentsOf ss) (i + 1) p

/-- The entry of a section in the outline, a dash if the section is too deep. -/
def sectionEntry (deepest : Nat) (adornments : List Char) (number : Nat) (s : Section) :
    Outline.Entry :=
  if s.level adornments ≤ deepest then ⟨escaped s.title, s.level adornments, number⟩
  else ⟨"-", 1, number⟩

def sectionEntries (settings : Settings) (ss : List Section) : List Outline.Entry :=
  (slideSections (adornmentsOf ss) settings.splitLevel ss).mapIdx fun i p =>
    sectionEntry settings.maxTocLevel (adornmentsOf ss) (i + 1) p.1

/-! ## The slide of a fragment -/

/-- Classes are joined as they are met, without the empty one. -/
theorem Slide.foldl_insertClass_met (names classes : List Text) :
    names.foldl Slide.insertClass classes = (names.filter (· ≠ [])).foldl met classes := by
  induction names generalizing classes with
  | nil => simp
  | cons name names ih =>
    by_cases hname : name = []
    · rw [List.foldl_cons, Slide.insertClass, if_pos (.inl hname), ih,
        List.filter_cons_of_neg (by simpa using hname)]
    · have hstep : Slide.insertClass classes name = met classes name := by
        unfold Slide.insertClass met
        split <;> split <;> simp_all
      rw [List.foldl_cons, hstep, ih, List.filter_cons_of_pos (by simpa using hname),
        List.foldl_cons]

theorem Slide.foldl_insertClass (names : List Text) :
    names.foldl Slide.insertClass [] = (names.filter (· ≠ [])).eraseDups := by
  rw [foldl_insertClass_met, foldl_met, List.nil_append, List.filter_eq_self.2 (by simp)]

namespace Deck
variable {d : Deck} {store : Store} {source : Text}

/-- A deck with the standard passes, and with images left where they are. -/
structure IsStandard (d : Deck) : Prop where
  pipeline : d.pipeline = Pipeline.standard d.settings
  embed : d.settings.embed = false

theorem process_untouched (hd : d.IsStandard) {content : Text} (h : IsUntouched content) :
    d.process store (some source) content = pure ⟨content, []⟩ := by
  rw [process, hd.pipeline]
  exact process_standard h hd.embed _

theorem slideOf_slideLines (hd : d.IsStandard) {adornments : List Char}
    {p : Section × List Section} (h : ∀ s ∈ p.1 :: p.2, s.isWellFormed) :
    d.slideOf store (some source) (unlines (slideLines adornments p)) =
      pure (sectionSlide d.settings (facts store source) adornments 0 p) := by
  have hlines : ∀ l ∈ slideLines adornments p, AtBrackets IsInert l :=
    fun l hl => atBrackets_slideLines h hl
  have hheader := @process_untouched d store source hd _
    (isUntouched_of_atBrackets (hlines (p.1.heading adornments) (by simp [slideLines])))
  have hcontent := @process_untouched d store source hd _
    (isUntouched_of_atBrackets (atBrackets_unlines fun l (hl : l ∈ contentLines adornments p) =>
      hlines l (List.mem_cons_of_mem _ hl)))
  have hpass : ∀ s : Slide, s.content = unlines (contentLines adornments p) →
      d.passContent store (some source) s = pure s := by
    intro s hs
    rw [passContent, hs, hcontent]
    split
    · rfl
    · rw [pure_bind, Slide.addClasses, List.foldl_nil, ← hs]
  rw [slideOf, ofFragment_slideLines h]
  simp only [passHeader, hheader, pure_bind]
  rw [hpass _ rfl, pure_bind, Slide.addClasses, Slide.foldl_insertClass]
  rfl

/-- The slides of sections get the numbers behind those that are placed. -/
theorem foldlM_place (hd : d.IsStandard) (adornments : List Char)
    {parts : List (Section × List Section)}
    (h : ∀ p ∈ parts, ∀ s ∈ p.1 :: p.2, s.isWellFormed) (slides : List Slide) :
    (parts.map fun p => unlines (slideLines adornments p)).foldlM
        (fun slides fragment => place slides <$> d.slideOf store (some source) fragment) slides =
      pure (slides ++ parts.mapIdx fun i p =>
        sectionSlide d.settings (facts store source) adornments (slides.length + i + 1) p) := by
  induction parts generalizing slides with
  | nil => simp
  | cons p parts ih =>
    have hplace : place slides (sectionSlide d.settings (facts store source) adornments 0 p) =
        slides ++ [sectionSlide d.settings (facts store source) adornments (slides.length + 1) p] := by
      simp [place, sectionSlide]
    rw [List.map_cons, List.foldlM_cons, slideOf_slideLines hd (h p (by simp)), map_pure, pure_bind,
      hplace, ih fun q hq => h q (List.mem_cons_of_mem p hq)]
    simp [List.mapIdx_cons, Nat.add_assoc, Nat.add_comm 1]

/-- The slides of a deck with the HTML of a document of sections; nothing is reported. -/
theorem slides_of_sections (hd : d.IsStandard) {ss : List Section} (hne : ss ≠ [])
    (h : ∀ s ∈ ss, s.isWellFormed) (hsplit : 1 ≤ d.settings.splitLevel)
    (hhtml : d.html = toHtml (printedSections ss)) :
    d.slides store = pure (sectionSlides d.settings (facts store d.source) ss) := by
  have hslides := @foldlM_place d store d.source hd (adornmentsOf ss)
    (slideSections (adornmentsOf ss) d.settings.splitLevel ss)
    (fun p hp => isWellFormed_of_mem_slideSections h hp) []
  have hfull : (sectionSlides d.settings (facts store d.source) ss).isEmpty = false := by
    simpa [sectionSlides] using slideSections_ne_nil hne hsplit
  simp only [List.nil_append, List.length_nil, Nat.zero_add] at hslides
  rw [slides, hhtml, split_sections hne h hsplit, hslides, pure_bind, ← sectionSlides, hfull]
  rfl

theorem entryOf_sectionSlide (settings : Settings) (facts : List (Text × Text))
    (adornments : List Char) (number : Nat) {p : Section × List Section} (h : p.1.isWellFormed)
    (deepest : Nat) :
    Outline.entryOf deepest (sectionSlide settings facts adornments number p) =
      sectionEntry deepest adornments number p.1 := by
  obtain ⟨c, s, hs, hc⟩ := head_escaped (Section.isWellFormed_iff.1 h).1
  have htitle : (sectionSlide settings facts adornments number p).displayTitle =
      some (escaped p.1.title) := by
    have hshown : isAllBlank (escaped p.1.title) = false := by
      rw [hs]
      simp [isAllBlank, isBlank_of_isLetter hc]
    simp [Slide.displayTitle, sectionSlide, hshown]
  simp only [Outline.entryOf, htitle]
  rfl

theorem outline_sectionSlides {ss : List Section} (h : ∀ s ∈ ss, s.isWellFormed)
    (facts : List (Text × Text)) :
    d.outline (sectionSlides d.settings facts ss) =
      Outline.ofEntries (sectionEntries d.settings ss) := by
  rw [outline, Outline.ofSlides]
  congr 1
  refine List.ext_getElem? fun i => ?_
  rw [sectionSlides, sectionEntries, List.getElem?_map, List.getElem?_mapIdx, List.getElem?_mapIdx]
  cases hp : (slideSections (adornmentsOf ss) d.settings.splitLevel ss)[i]? with
  | none => rfl
  | some p =>
    have hwell := isWellFormed_of_mem_slideSections h (List.mem_of_getElem? hp)
    exact congrArg some (entryOf_sectionSlide _ _ _ _ (hwell p.1 (by simp)) _)

/-! ## Loading -/

private theorem result_bind {α β : Type} {x : Outcome α} {a : α} (h : x.result = .ok a)
    (f : α → Outcome β) : (x >>= f).result = (f a).result := by
  obtain ⟨messages, result⟩ := x
  obtain rfl : result = .ok a := h
  rfl

private theorem result_ofExcept {α β : Type} {r : Except Failure α} {a : α} (h : r = .ok a)
    (f : α → Outcome β) : (Outcome.ofExcept r >>= f).result = (f a).result :=
  @result_bind _ _ (Outcome.ofExcept r) a h f

/-- A file that can be read is found. -/
theorem requireFile_of_read {bytes : Bytes} (h : store.read source = .ok bytes) :
    store.requireFile source = .ok () := by
  obtain ⟨names, hnames⟩ : ∃ names, store.locate source = .ok names := by
    rw [Store.read] at h
    cases hl : store.locate source with
    | error fault => simp [hl, bind, Except.bind] at h
    | ok names => exact ⟨names, rfl⟩
  have hne : source ≠ [] := by
    rintro rfl
    simp [Store.locate] at hnames
  have hexists : store.pathExists source := by
    rw [Store.pathExists, hnames]
    rfl
  simp [Store.requireFile, hne, hexists, h]

/-- A deck is loaded when its settings are sound and its document can be read. -/
theorem load_of_read {settings : Settings} {dialect : Dialect} {encoding : Option Encoding}
    {pipeline : Pipeline} {bytes : Bytes} (hdialect : Dialect.ofPath source = .ok dialect)
    (hencoding : settings.encoding.mapM Encoding.resolve = .ok encoding)
    (hpipeline : Pipeline.ofSettings settings = .ok pipeline)
    (hread : store.read source = .ok bytes) :
    (load store settings source).result = .ok {
      source
      settings
      dialect
      text := (Encoding.decodeSource bytes encoding).text
      pipeline } := by
  have hwarnings : ∀ names : List Text, (names.forM fun name =>
      Outcome.report .warning ("Ignoring unknown markdown extension '" ++ name ++ "'")).result =
        .ok () := by
    intro names
    induction names with
    | nil => rfl
    | cons name names ih =>
      exact ih
  have hbytes : (store.read source).mapError Failure.read = .ok bytes := by
    rw [hread]
    rfl
  rw [load, result_ofExcept (requireFile_of_read hread), result_ofExcept hdialect,
    result_ofExcept hencoding, result_ofExcept hpipeline, result_bind (hwarnings _),
    result_ofExcept hbytes]
  dsimp only
  split
  · rfl
  · rfl

/-! ## From the file to the outline -/

/-- The deck of a document of sections is loaded. With the standard passes and without embedding its
slides are those of the sections up to the split level, and its outline lists them. -/
theorem load_slides_outline {settings : Settings} {bytes : Bytes} {encoding : Option Encoding}
    {ss : List Section} (hne : ss ≠ []) (h : ∀ s ∈ ss, s.isWellFormed)
    (hpasses : settings.passes = none) (hembed : settings.embed = false)
    (hsplit : 1 ≤ settings.splitLevel) (hdialect : Dialect.ofPath source = .ok .restructuredText)
    (hencoding : settings.encoding.mapM Encoding.resolve = .ok encoding)
    (hread : store.read source = .ok bytes)
    (htext : (Encoding.decodeSource bytes encoding).text = printedSections ss) :
    let slides := sectionSlides settings (facts store source) ss
    ∃ d, (load store settings source).result = .ok d ∧ d.slides store = pure slides ∧
      d.outline slides = Outline.ofEntries (sectionEntries settings ss) := by
  have hpipeline : Pipeline.ofSettings settings = .ok (Pipeline.standard settings) := by
    rw [Pipeline.ofSettings, hpasses]
  have hload := load_of_read hdialect hencoding hpipeline hread
  rw [htext] at hload
  exact ⟨_, hload, slides_of_sections ⟨rfl, hembed⟩ hne h hsplit rfl, outline_sectionSlides h _⟩

/-- Three levels, one of them below the split level, and a section without paragraphs. -/
def sampleSections : List Section :=
  [⟨"A & B", '=', ["One.", "Two"]⟩, ⟨"C", '-', []⟩, ⟨"D", '~', ["Three"]⟩, ⟨"E", '=', []⟩]

def sampleSettings : Settings where
  splitLevel := 2
  maxTocLevel := 1
  defaultClasses := ["x", "", "x"]

def sampleStore : Store where
  home := ["w"]
  entries := [(["w"], .directory),
    (["w", "deck.rst"], .file (Utf8.encode (printedSections sampleSections)))]

/-- The slides of the sample; the title and the header of each are escaped. -/
def sampleSlides : List Slide :=
  let source : List (Text × Text) := [("abs_path", "/w/deck.rst"), ("rel_path", "deck.rst")]
  [{ number := 1, title := some "A &amp; B", level := some 1, header := some "<h1>A &amp; B</h1>"
     content := "<p>One.</p>\n<p>Two</p>", classes := ["x"], source },
   { number := 2, title := some "C", level := some 2, header := some "<h2>C</h2>"
     content := "<h3>D</h3>\n<p>Three</p>", classes := ["x"], source },
   { number := 3, title := some "E", level := some 1, header := some "<h1>E</h1>"
     classes := ["x"], source }]

theorem slides_sampleSections :
    (∀ s ∈ sampleSections, s.isWellFormed) ∧
    ∃ d, (load sampleStore sampleSettings "deck.rst").result = .ok d ∧
      d.slides sampleStore = pure sampleSlides ∧
      d.outline sampleSlides = Outline.ofEntries [⟨"A &amp; B", 1, 1⟩, ⟨"-", 1, 2⟩, ⟨"E", 1, 3⟩] := by
  have h : ∀ s ∈ sampleSections, s.isWellFormed := List.all_eq_true.1 (by cbv)
  have hslides := @load_slides_outline sampleStore "deck.rst" sampleSettings
    (Utf8.encode (printedSections sampleSections)) none sampleSections (by simp [sampleSections]) h
    rfl rfl (by decide) (by cbv) rfl (by cbv) (by cbv)
  have hsample : sectionSlides sampleSettings (facts sampleStore "deck.rst") sampleSections =
      sampleSlides := by cbv
  have hentries : sectionEntries sampleSettings sampleSections =
      [⟨"A &amp; B", 1, 1⟩, ⟨"-", 1, 2⟩, ⟨"E", 1, 3⟩] := by cbv
  simp only [hsample, hentries] at hslides
  exact ⟨h, hslides⟩

/-- The deck of the sample, whose second slide is too deep for its outline. -/
def sampleDeck : Deck where
  source := "deck.rst"
  settings := sampleSettings
  dialect := .restructuredText
  text := Restructured.printedSections sampleSections
  pipeline := Pipeline.standard sampleSettings

theorem slides_sampleDeck : sampleDeck.slides sampleStore = pure sampleSlides := by
  have hwell : ∀ s ∈ sampleSections, s.isWellFormed := List.all_eq_true.1 (by cbv)
  have hstandard : sampleDeck.IsStandard := ⟨rfl, rfl⟩
  rw [slides_of_sections hstandard (by simp [sampleSections]) hwell (by decide) rfl]
  cbv

end Deck

end Slideshow
