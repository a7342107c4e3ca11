import Slideshow.Deck.Slides
import Slideshow.Proofs.DocumentPieces
import Slideshow.Proofs.ForestSplitting
import Slideshow.Proofs.HeadingMarks
import Slideshow.Proofs.HiddenNotes
import Slideshow.Proofs.PassCalls
import Slideshow.Proofs.SelfContainedPasses
import Slideshow.Proofs.WrittenImages

/-!
# The images of an embedded deck

With embedding on, the headers and the contents of the slides hold no image that needs a file. Titles
and presenter notes go through no pass and hold images of the document as they are.
-/
namespace Slideshow
open Text Markup

/-! ## The parts of a document -/

section Parts
variable {Q : Pass.Image → Prop}

/-- Documents are cut at tags. -/
theorem Fragment.settlesImages_cut (level depth : Nat) {pending : Text} {ts : List Token}
    (h : Pass.SettlesImages Q (pending ++ spell ts)) :
    ∀ f ∈ cut level depth pending ts, Pass.SettlesImages Q f := by
  induction ts generalizing depth pending with
  | nil => simpa [cut] using h
  | cons t ts ih =>
    rw [spell_cons] at h
    have hbefore : ∀ tag, t = .tag tag → Pass.SettlesImages Q pending := by
      rintro tag rfl
      exact Pass.SettlesImages.before_bracket
        (t := (if tag.closing then ['/'] else []) ++ tag.name ++ tag.attributes
          ++ (if tag.selfClosing then ['/'] else []) ++ ['>'] ++ spell ts)
        (by simpa [Token.source, Tag.source] using h)
    have hbehind := h.of_isSuffix (List.suffix_append pending _)
    rw [cut_cons]
    split
    · next hrule =>
      obtain ⟨tag, htag⟩ := exists_tag_of_isRule hrule
      exact List.forall_mem_cons.2 ⟨hbefore tag htag,
        ih (depthBehind depth t) (hbehind.of_isSuffix (List.suffix_append t.source _))⟩
    · split
      · next hstart =>
        rw [Bool.and_eq_true] at hstart
        obtain ⟨tag, more, hpiece, -⟩ := startsWithHeading_of_startsSlide hstart.1 (List.append_nil ts).symm
        exact List.forall_mem_cons.2 ⟨hbefore tag (List.cons.inj hpiece).1,
          ih (depthBehind depth t) hbehind⟩
      · exact ih (depthBehind depth t) (by rwa [List.append_assoc])

theorem Fragment.settlesImages_split {html : Text} (h : Pass.SettlesImages Q html) (level : Nat) :
    ∀ f ∈ split html level, Pass.SettlesImages Q f := by
  intro f hf
  obtain ⟨g, hg, rfl⟩ := List.mem_map.1 hf
  exact (settlesImages_cut level 0 (by rwa [List.nil_append, spell_tokens]) g (List.mem_filter.1 hg).1).trim

/-- The fragments of a document are parts of it. -/
theorem Fragment.isInfix_of_mem_split {html : Text} {level : Nat} {f : Text} (h : f ∈ split html level) :
    f <:+: html := by
  obtain ⟨first, parts, -, hhtml, hsplit⟩ := exists_pieces_of_split html level
  rw [hsplit] at h
  obtain ⟨g, hg, rfl⟩ := List.mem_map.1 h
  obtain ⟨w, v, htrim, -, -⟩ := exists_eq_append_trim g
  refine (show trim g <:+: g from ⟨w, v, htrim.symm⟩).trans ?_
  obtain ⟨piece, hpiece, rfl⟩ := List.mem_map.1 (List.mem_filter.1 hg).1
  rcases List.mem_cons.1 hpiece with rfl | hpiece
  · exact List.IsPrefix.isInfix ⟨_, hhtml.symm⟩
  · obtain ⟨part, hpart, rfl⟩ := List.mem_map.1 hpiece
    obtain ⟨front, back, rfl⟩ := List.append_of_mem hpart
    refine ⟨spell first ++ front.flatMap (fun p => p.separator ++ spell p.piece) ++ part.separator,
      back.flatMap fun p => p.separator ++ spell p.piece, ?_⟩
    simp [hhtml]

theorem Pass.Image.standsIn_of_trim {i : Pass.Image} {s : Text} (h : i.StandsIn (trim s)) : i.StandsIn s := by
  obtain ⟨w, v, hs, -, -⟩ := exists_eq_append_trim s
  exact h.of_isInfix ⟨w, v, hs.symm⟩

end Parts

/-! ## The parts of a slide -/

namespace Slide
variable {Q : Pass.Image → Prop}

theorem settlesImages_joinContent {before after : Text} (hbefore : Pass.SettlesImages Q before)
    (hafter : Pass.SettlesImages Q after) : Pass.SettlesImages Q (joinContent before after) := by
  rw [joinContent]
  split
  · exact hafter.trim
  split
  · exact hbefore.trim
  · exact (hbefore.trim.append (.of_not_mem (by simp))).append hafter.trim

/-- What stands in front of the notes of a fragment, and the images of the notes. -/
theorem of_cutAtNotes? {fragment before after : Text} (h : Pass.SettlesImages Q fragment)
    (hcut : cutAtNotes? fragment = some (before, after)) :
    Pass.SettlesImages Q before ∧ ∀ i : Pass.Image, i.StandsIn (trim after) → i.StandsIn fragment := by
  obtain ⟨m, rfl, -, hread⟩ := exists_of_cutAtNotes? hcut
  refine ⟨?_, fun i hi => (Pass.Image.standsIn_of_trim hi).of_isInfix ⟨before ++ (m ++ ['>']), [], by simp⟩⟩
  have hmark := readsMarks_notesHeading?.startsMark (hread after)
  cases m with
  | nil => simp [startsMark_of_ne] at hmark
  | cons c m =>
    by_cases hc : c = '<'
    · subst hc
      exact h.before_bracket
    · simp [startsMark_of_ne hc] at hmark

/-- The parts of a slide around its heading. -/
theorem of_find? {body before after : Text} {heading : Heading} (h : Pass.SettlesImages Q body)
    (hfind : Heading.find? body = some (before, heading, after)) :
    Pass.SettlesImages Q heading.source ∧ Pass.SettlesImages Q (joinContent before after) ∧
      ∀ i : Pass.Image, i.StandsIn heading.title → i.StandsIn body := by
  obtain rfl := Heading.eq_of_find? hfind
  have hsource : ∃ s, heading.source = '<' :: (s ++ ['>']) :=
    ⟨'h' :: heading.digit :: heading.attributes ++ ['>'] ++ heading.inner ++ "</h" ++ [heading.closingDigit],
      by simp [Heading.source]⟩
  obtain ⟨s, hs⟩ := hsource
  refine ⟨?_, settlesImages_joinContent ?_ (h.of_isSuffix (List.suffix_append _ after)), fun i hi => ?_⟩
  · rw [hs, ← List.cons_append]
    rw [hs, List.append_assoc, ← List.cons_append, List.append_assoc, List.singleton_append] at h
    exact (h.of_isSuffix (List.suffix_append before _)).behind_tag
  · rw [hs, List.append_assoc, List.cons_append] at h
    exact h.before_bracket
  · refine (Pass.Image.standsIn_of_trim hi).of_isInfix
      ⟨before ++ ("<h" ++ heading.digit :: heading.attributes ++ ['>']),
        "</h" ++ [heading.closingDigit, '>'] ++ after, by simp [Heading.source]⟩

/-- A slide before the passes: their tags settle the images of its header and content, and the images of
its title and notes stand in the fragment it comes from. -/
structure HasImagesOf (Q : Pass.Image → Prop) (fragment : Text) (s : Slide) : Prop where
  header : ∀ t ∈ s.header, Pass.SettlesImages Q t
  content : Pass.SettlesImages Q s.content
  unpassed : ∀ t ∈ s.title.toList ++ s.presenterNotes.toList, ∀ i : Pass.Image,
    i.StandsIn t → i.StandsIn fragment

theorem hasImagesOf_ofShown {shown : Text} (h : Pass.SettlesImages Q shown) :
    (ofShown shown).HasImagesOf Q shown := by
  rw [ofShown]
  cases hfind : Heading.find? shown with
  | none => exact ⟨by simp, h.trim, by simp⟩
  | some p =>
    obtain ⟨before, heading, after⟩ := p
    obtain ⟨hheader, hcontent, htitle⟩ := of_find? h hfind
    exact ⟨by simpa using hheader, hcontent, by simpa using htitle⟩

theorem hasImagesOf_ofFragment {fragment : Text} (h : Pass.SettlesImages Q fragment) (showNotes : Bool) :
    (ofFragment fragment showNotes).HasImagesOf Q fragment := by
  have hshown : Pass.SettlesImages Q (Fragment.shown fragment) ∧ Fragment.shown fragment <:+: fragment ∧
      ∀ n ∈ Fragment.notes fragment, ∀ i : Pass.Image, i.StandsIn n → i.StandsIn fragment := by
    rw [Fragment.shown, Fragment.notes]
    cases hcut : cutAtNotes? fragment with
    | none => exact ⟨h, List.infix_refl fragment, by simp⟩
    | some p =>
      obtain ⟨before, after⟩ := p
      obtain ⟨hbefore, hnotes⟩ := of_cutAtNotes? h hcut
      obtain ⟨m, hfragment, -⟩ := exists_of_cutAtNotes? hcut
      exact ⟨hbefore, List.IsPrefix.isInfix ⟨_, hfragment.symm⟩, by simpa using hnotes⟩
  obtain ⟨hsettles, hinfix, hnotes⟩ := hshown
  obtain ⟨hheader, hcontent, htitle⟩ := hasImagesOf_ofShown hsettles
  rw [ofFragment_eq]
  refine ⟨hheader, hcontent, fun t ht i hi => ?_⟩
  rcases List.mem_append.1 ht with ht | ht
  · exact (htitle t (List.mem_append_left _ ht) i hi).of_isInfix hinfix
  · cases showNotes with
    | true => exact hnotes t (by simpa [withNotes] using ht) i hi
    | false => simp [withNotes] at ht

end Slide

/-! ## The slides of a deck -/

namespace Slide

/-- The texts of a slide that the page shows. -/
def shownTexts (s : Slide) : List Text :=
  s.title.toList ++ s.header.toList ++ [s.content] ++ s.presenterNotes.toList

/-- No image of a slide needs a file. -/
def IsSelfContained (s : Slide) : Prop :=
  ∀ t ∈ s.shownTexts, ∀ i : Pass.Image, i.StandsIn t → i.IsSelfContained

/-- A slide that the passes have made of one, which leave its title and its notes as they are. -/
structure IsEmbedded (s before : Slide) : Prop where
  header : ∀ t ∈ s.header, Pass.SettlesImages Pass.Image.IsSelfContained t
  content : Pass.SettlesImages Pass.Image.IsSelfContained s.content
  hasHeader : s.header.isSome = before.header.isSome
  title : s.title = before.title
  presenterNotes : s.presenterNotes = before.presenterNotes

end Slide

namespace Deck
variable {d : Deck} {store : Store}

section Embedding
variable (hembed : d.settings.embed) (hpipeline : d.pipeline = Pipeline.standard d.settings)
include hembed hpipeline

theorem exists_process {t : Text} (h : Pass.SettlesImages (Pass.Image.CanEmbed (d.origin store)) t) :
    ∃ passed, d.process store (some d.source) t = pure passed ∧
      Pass.SettlesImages Pass.Image.IsSelfContained passed.content := by
  rw [process, hpipeline]
  exact Pass.exists_process_standard hembed h

theorem exists_passHeader {s : Slide}
    (h : ∀ t ∈ s.header, Pass.SettlesImages (Pass.Image.CanEmbed (d.origin store)) t) :
    ∃ t, d.passHeader store (some d.source) s = pure t ∧
      (∀ header ∈ t.header, Pass.SettlesImages Pass.Image.IsSelfContained header) ∧
      t.header.isSome = s.header.isSome ∧ t.content = s.content ∧
      t.title = s.title ∧ t.presenterNotes = s.presenterNotes := by
  rw [passHeader]
  split
  · next hnone => exact ⟨s, rfl, by simp [hnone], rfl, rfl, rfl, rfl⟩
  · next header hheader =>
    obtain ⟨passed, hpassed, hsettles⟩ := exists_process hembed hpipeline (h header hheader)
    rw [hpassed, pure_bind]
    exact ⟨_, rfl, by simpa using hsettles, by rw [hheader]; rfl, rfl, rfl, rfl⟩

theorem exists_passContent {s : Slide}
    (h : Pass.SettlesImages (Pass.Image.CanEmbed (d.origin store)) s.content) :
    ∃ t, d.passContent store (some d.source) s = pure t ∧
      Pass.SettlesImages Pass.Image.IsSelfContained t.content ∧
      t.header = s.header ∧ t.title = s.title ∧ t.presenterNotes = s.presenterNotes := by
  rw [passContent]
  split
  · next hempty => exact ⟨s, rfl, hempty ▸ .of_not_mem (by simp), rfl, rfl, rfl⟩
  · obtain ⟨passed, hpassed, hsettles⟩ := exists_process hembed hpipeline h
    rw [hpassed, pure_bind]
    exact ⟨_, rfl, hsettles, rfl, rfl, rfl⟩

theorem exists_slideOf {fragment : Text}
    (h : Pass.SettlesImages (Pass.Image.CanEmbed (d.origin store)) fragment) :
    ∃ s, d.slideOf store (some d.source) fragment = pure s ∧
      s.IsEmbedded (Slide.ofFragment fragment d.settings.presenterNotes) := by
  obtain ⟨hheader, hcontent, -⟩ := Slide.hasImagesOf_ofFragment h d.settings.presenterNotes
  rw [slideOf]
  generalize Slide.ofFragment fragment d.settings.presenterNotes = s at hheader hcontent ⊢
  obtain ⟨t, ht, htheader, htsome, htcontent, httitle, htnotes⟩ :=
    exists_passHeader hembed hpipeline hheader
  rw [← htcontent] at hcontent
  obtain ⟨u, hu, hucontent, huheader, hutitle, hunotes⟩ := exists_passContent hembed hpipeline
    (s := t.addClasses d.settings.defaultClasses) hcontent
  have huheader : u.header = t.header := huheader
  rw [ht, pure_bind, hu, pure_bind]
  exact ⟨_, rfl, by rw [huheader]; exact htheader, hucontent, by rw [huheader]; exact htsome,
    hutitle.trans httitle, hunotes.trans htnotes⟩

end Embedding

/-- What holds of the slide of every fragment, placed anywhere, holds of every slide. -/
theorem exists_foldlM_place {P : Slide → Prop} (hplaced : ∀ s n, P s → P { s with number := n })
    {fragments : List Text} (h : ∀ f ∈ fragments, ∃ s, d.slideOf store (some d.source) f = pure s ∧ P s)
    {slides : List Slide} (hslides : ∀ s ∈ slides, P s) : ∃ all,
      fragments.foldlM (fun slides f => place slides <$> d.slideOf store (some d.source) f) slides =
        pure all ∧ ∀ s ∈ all, P s := by
  induction fragments generalizing slides with
  | nil => exact ⟨slides, rfl, hslides⟩
  | cons f fragments ih =>
    obtain ⟨s, hs, hP⟩ := h f (by simp)
    rw [List.foldlM_cons, hs, map_pure, pure_bind]
    refine ih (fun g hg => h g (List.mem_cons_of_mem f hg)) fun t ht => ?_
    rw [place] at ht
    split at ht
    · exact hslides t ht
    · rcases List.mem_append.1 ht with ht | ht
      · exact hslides t ht
      · exact List.mem_singleton.1 ht ▸ hplaced s _ hP

/-- A deck with embedding whose document has a file for each local image, and whose raw HTML, if any,
settles its images: no header and no content of its slides holds an image that needs a file. Titles and
presenter notes are those of the fragments of the document, with the images as they stand in the
document; so a slide needs no file if and only if none of these does. -/
theorem slides_of_embed (hembed : d.settings.embed)
    (hpipeline : d.pipeline = Pipeline.standard d.settings)
    (hraw : ∀ t ∈ d.rawHtml, Pass.IsSettled t)
    (hfiles : ∀ i : Pass.Image, i.StandsIn d.html →
      i.IsSelfContained ∨ ∃ type contents, i.HasFile (d.origin store) type contents) :
    ∃ slides, (d.slides store).result = .ok slides ∧ ∀ s ∈ slides,
      (∀ t ∈ s.header.toList ++ [s.content], ∀ i : Pass.Image, i.StandsIn t → i.IsSelfContained) ∧
      (∃ f ∈ Fragment.split d.html d.settings.splitLevel,
        s.title = (Slide.ofFragment f d.settings.presenterNotes).title ∧
        s.presenterNotes = (Slide.ofFragment f d.settings.presenterNotes).presenterNotes) ∧
      (∀ t ∈ s.title.toList ++ s.presenterNotes.toList, ∀ i : Pass.Image,
        i.StandsIn t → i.StandsIn d.html) ∧
      (s.IsSelfContained ↔ ∀ t ∈ s.title.toList ++ s.presenterNotes.toList, ∀ i : Pass.Image,
        i.StandsIn t → i.IsSelfContained) := by
  have hdocument : Pass.SettlesImages (Pass.Image.CanEmbed (d.origin store)) d.html :=
    (isSettled_html hraw).imp hfiles
  have hsplit := Fragment.settlesImages_split hdocument d.settings.splitLevel
  have hfragments : ∀ f ∈ Fragment.split d.html d.settings.splitLevel,
      ∃ s, d.slideOf store (some d.source) f = pure s ∧
        ∃ f ∈ Fragment.split d.html d.settings.splitLevel,
          s.IsEmbedded (Slide.ofFragment f d.settings.presenterNotes) := by
    intro f hf
    obtain ⟨s, hs, hembedded⟩ := exists_slideOf hembed hpipeline (hsplit f hf)
    exact ⟨s, hs, f, hf, hembedded⟩
  have hplaced : ∀ (s : Slide) (n : Nat), (∃ f ∈ Fragment.split d.html d.settings.splitLevel,
        s.IsEmbedded (Slide.ofFragment f d.settings.presenterNotes)) →
      ∃ f ∈ Fragment.split d.html d.settings.splitLevel,
        { s with number := n }.IsEmbedded (Slide.ofFragment f d.settings.presenterNotes) :=
    fun s n ⟨f, hf, h⟩ => ⟨f, hf, h.header, h.content, h.hasHeader, h.title, h.presenterNotes⟩
  obtain ⟨slides, hslides, hembedded⟩ := exists_foldlM_place hplaced hfragments (List.forall_mem_nil _)
  refine ⟨slides, ?_, fun s hs => ?_⟩
  · rw [Deck.slides, hslides, pure_bind]
    split <;> rfl
  · obtain ⟨f, hf, h⟩ := hembedded s hs
    have hpassed : ∀ t ∈ s.header.toList ++ [s.content], ∀ i : Pass.Image,
        i.StandsIn t → i.IsSelfContained := by
      intro t ht i hi
      rcases List.mem_append.1 ht with ht | ht
      · exact (h.header t (by simpa using ht)).kind_of_standsIn hi
      · exact h.content.kind_of_standsIn (List.mem_singleton.1 ht ▸ hi)
    have hunpassed : ∀ t ∈ s.title.toList ++ s.presenterNotes.toList, ∀ i : Pass.Image,
        i.StandsIn t → i.StandsIn d.html := by
      rw [h.title, h.presenterNotes]
      exact fun t ht i hi => ((Slide.hasImagesOf_ofFragment (hsplit f hf) _).unpassed t ht i hi).of_isInfix
        (Fragment.isInfix_of_mem_split hf)
    refine ⟨hpassed, ⟨f, hf, h.title, h.presenterNotes⟩, hunpassed, fun hself t ht => hself t ?_,
      fun hself t ht => ?_⟩
    · simp only [Slide.shownTexts, List.mem_append] at ht ⊢
      tauto
    · simp only [Slide.shownTexts, List.mem_append] at ht hself hpassed
      obtain ((ht | ht) | ht) | ht := ht
      · exact hself t (.inl ht)
      · exact hpassed t (.inl ht)
      · exact hpassed t (.inr ht)
      · exact hself t (.inr ht)

/-- A deck beside an image, with embedding. -/
def illustratedTalk (text : Text) : Deck where
  source := "talk.md"
  settings := { embed := true }
  dialect := .markdown
  text := text
  pipeline := Pipeline.standard { embed := true }

/-- One image between other markup. -/
theorem settlesImages_illustrated {before after : Text} (hbefore : Pass.opensNoImage before)
    (hafter : Pass.opensNoImage after) :
    Pass.SettlesImages (fun i => i = ⟨" ", "dot.png"⟩)
      (before ++ (⟨" ", "dot.png"⟩ : Pass.Image).spell ++ after) := by
  have himage : Pass.SettlesImages (fun i => i = ⟨" ", "dot.png"⟩) (⟨" ", "dot.png"⟩ : Pass.Image).spell :=
    Pass.settlesImages_source (by simp) rfl
  exact himage.between hbefore hafter

theorem hasFile_illustrated {i : Pass.Image} (h : i = ⟨" ", "dot.png"⟩) :
    i.HasFile (Pass.illustrated "dot.png") "image/png" [120] := by
  subst h
  exact ⟨by cbv, by cbv⟩

theorem slides_of_embed_illustratedTalk :
    let d := illustratedTalk "# A\n\n![d](dot.png)<br>\n"
    let store := (Pass.illustrated "dot.png").store
    d.settings.embed ∧ d.pipeline = Pipeline.standard d.settings ∧
      d.rawHtml = [("<br>" : Text)] ∧ (∀ t ∈ d.rawHtml, Pass.IsSettled t) ∧
      (∀ i : Pass.Image, i.StandsIn d.html →
        i.IsSelfContained ∨ ∃ type contents, i.HasFile (d.origin store) type contents) ∧
      ∃ slides, (d.slides store).result = .ok slides ∧ ∀ s ∈ slides,
        ∀ t ∈ s.header.toList ++ [s.content], ∀ i : Pass.Image, i.StandsIn t → i.IsSelfContained := by
  have hhtml : (illustratedTalk "# A\n\n![d](dot.png)<br>\n").html =
      "<h1>A</h1>\n<p>" ++ (⟨" ", "dot.png"⟩ : Pass.Image).spell ++ " alt=\"d\" /><br></p>\n" := by cbv
  have himages :=
    @settlesImages_illustrated "<h1>A</h1>\n<p>" " alt=\"d\" /><br></p>\n" (by cbv) (by cbv)
  rw [← hhtml] at himages
  have hbreak : (illustratedTalk "# A\n\n![d](dot.png)<br>\n").rawHtml = [("<br>" : Text)] := by cbv
  have hraw : ∀ t ∈ (illustratedTalk "# A\n\n![d](dot.png)<br>\n").rawHtml, Pass.IsSettled t := by
    rw [hbreak]
    exact List.forall_mem_singleton.2 (Pass.settlesImages_of_opensNoImage (by cbv))
  have hfiles : ∀ i : Pass.Image, i.StandsIn (illustratedTalk "# A\n\n![d](dot.png)<br>\n").html →
      i.IsSelfContained ∨ ∃ type contents, i.HasFile (Pass.illustrated "dot.png") type contents :=
    fun i hi => .inr ⟨_, _, hasFile_illustrated (himages.kind_of_standsIn hi)⟩
  obtain ⟨slides, hslides, hall⟩ := @slides_of_embed (illustratedTalk "# A\n\n![d](dot.png)<br>\n")
    (Pass.illustrated "dot.png").store rfl rfl hraw hfiles
  exact ⟨rfl, rfl, hbreak, hraw, hfiles, slides, hslides, fun s hs => (hall s hs).1⟩

/-- A title with an image. -/
def illustratedTitle : Text := "A <img src=\"dot.png\" alt=\"d\" />"

/-- The markup of a heading with an image. -/
def illustratedHeading : List Forest.Node :=
  [.element "h1" "" [.text "A ", .void "img" " src=\"dot.png\" alt=\"d\" /"], .text "\n"]

theorem split_illustratedHeading : Fragment.split (Forest.html illustratedHeading) 1 =
    [trim (Forest.html illustratedHeading)] := by
  have hwell : Forest.isWellFormed illustratedHeading := by cbv
  have hgroups : Forest.groups 1 [] illustratedHeading = [illustratedHeading] := by cbv
  have hvacant : Fragment.isVacant (Forest.html illustratedHeading) = false := by
    rw [Forest.isVacant_html hwell]
    cbv
  have hcut := @Forest.cut_html 1 [] illustratedHeading rfl hwell
  rw [hgroups] at hcut
  have hpieces : Fragment.cut 1 0 [] (tokens (Forest.html illustratedHeading)) =
      [Forest.html illustratedHeading] := hcut
  rw [Fragment.split, hpieces, List.filter_cons, if_pos (by simp [hvacant])]
  rfl

/-- The title of that heading needs a file. -/
theorem exists_standsIn_illustratedTitle :
    ∃ i : Pass.Image, i.StandsIn illustratedTitle ∧ ¬i.IsSelfContained := by
  have hread : Pass.Image.pattern.read? "<img src=\"dot.png\" alt=\"d\" />" =
      some ((⟨" ", "dot.png"⟩ : Pass.Image), (" alt=\"d\" />" : Text)) := by cbv
  have hlocal : Url.isAbsolute "dot.png" = false := by cbv
  refine ⟨_, ⟨"A ", "<img src=\"dot.png\" alt=\"d\" />", " alt=\"d\" />", ?_, hread⟩, ?_⟩
  · simp [illustratedTitle]
  · rintro (hempty | habsolute)
    · simp at hempty
    · exact absurd habsolute (by rw [hlocal]; decide)

/-- The image of a heading is embedded in the header of the slide and needs its file in the title. -/
theorem not_isSelfContained_of_illustratedHeading :
    let d := illustratedTalk "# A ![d](dot.png)\n"
    let store := (Pass.illustrated "dot.png").store
    (∀ i : Pass.Image, i.StandsIn d.html →
        ∃ type contents, i.HasFile (d.origin store) type contents) ∧
      ∃ s, (d.slides store).result = .ok [s] ∧
        s.title = some illustratedTitle ∧ ¬s.IsSelfContained := by
  have hhtml : (illustratedTalk "# A ![d](dot.png)\n").html =
      "<h1>A " ++ (⟨" ", "dot.png"⟩ : Pass.Image).spell ++ " alt=\"d\" /></h1>\n" := by cbv
  have himages := @settlesImages_illustrated "<h1>A " " alt=\"d\" /></h1>\n" (by cbv) (by cbv)
  rw [← hhtml] at himages
  have hfiles : ∀ i : Pass.Image, i.StandsIn (illustratedTalk "# A ![d](dot.png)\n").html →
      ∃ type contents, i.HasFile (Pass.illustrated "dot.png") type contents :=
    fun i hi => ⟨_, _, hasFile_illustrated (himages.kind_of_standsIn hi)⟩
  have hforest : (illustratedTalk "# A ![d](dot.png)\n").html = Forest.html illustratedHeading := by cbv
  have hsplit : Fragment.split (illustratedTalk "# A ![d](dot.png)\n").html 1 =
      [trim (Forest.html illustratedHeading)] := by rw [hforest, split_illustratedHeading]
  have hfragment := Fragment.settlesImages_split (himages.imp fun i hi =>
    (.inr (hfiles i hi) : i.CanEmbed (Pass.illustrated "dot.png"))) 1
  rw [hsplit] at hfragment
  obtain ⟨s, hs, hembedded⟩ := @exists_slideOf (illustratedTalk "# A ![d](dot.png)\n")
    (Pass.illustrated "dot.png").store rfl rfl (trim (Forest.html illustratedHeading))
    (hfragment _ (List.mem_singleton_self _))
  have htitle : s.title = some illustratedTitle := hembedded.title.trans (by cbv)
  have hheader : (Slide.ofFragment (trim (Forest.html illustratedHeading)) true).header.isSome := by cbv
  refine ⟨hfiles, { s with number := 1 }, ?_, htitle, fun hself => ?_⟩
  · have hplaced : place [] s = [{ s with number := 1 }] := by
      have hsome : s.header.isNone = false := by
        rw [← Option.not_isSome, hembedded.hasHeader]
        exact congrArg (!·) hheader
      simp [place, hsome]
    have hlevel : (illustratedTalk "# A ![d](dot.png)\n").settings.splitLevel = 1 := rfl
    rw [slides, hlevel, hsplit, List.foldlM_cons, hs, map_pure, pure_bind, hplaced]
    rfl
  · obtain ⟨i, hi, hneeds⟩ := exists_standsIn_illustratedTitle
    exact hneeds (hself illustratedTitle (by simp [Slide.shownTexts, htitle]) i hi)

end Deck

end Slideshow
