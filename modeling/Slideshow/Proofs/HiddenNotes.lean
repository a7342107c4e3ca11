import Slideshow.Deck.Render
import Slideshow.Proofs.NotesBoundary
import Slideshow.Proofs.SlideNumbers
import Mathlib

/-!
# Hidden notes

With notes switched off, a page does not depend on the notes of its fragments. Two runs are compared:
they report the same and either fail in the same way or have slides that differ in their raw notes
only. Of these nothing but their presence is looked at, and templates do not see them.
-/
namespace Slideshow
open Text Markup

/-! ## Two runs -/

/-- Two actions that report the same, and fail in the same way or have values in relation. -/
inductive Outcome.Alike {α β : Type} (R : α → β → Prop) : Outcome α → Outcome β → Prop
  | ok {messages : List Message} {a : α} {b : β} (h : R a b) :
    Alike R ⟨messages, .ok a⟩ ⟨messages, .ok b⟩
  | error {messages : List Message} {e : Failure} :
    Alike R ⟨messages, .error e⟩ ⟨messages, .error e⟩

namespace Outcome.Alike
variable {α β γ δ : Type} {R : α → β → Prop} {S : γ → δ → Prop} {x : Outcome α} {y : Outcome β}

theorem pure {a : α} {b : β} (h : R a b) : Alike R (Pure.pure a) (Pure.pure b) := .ok h

theorem bind (h : Alike R x y) {f : α → Outcome γ} {g : β → Outcome δ}
    (hfg : ∀ a b, R a b → Alike S (f a) (g b)) : Alike S (x >>= f) (y >>= g) := by
  cases h with
  | error => exact .error
  | @ok messages a b hab =>
    have hnext := hfg a b hab
    simp only [Bind.bind]
    generalize f a = u at hnext
    generalize g b = v at hnext
    cases hnext with
    | ok h => exact .ok h
    | error => exact .error

theorem map (h : Alike R x y) {f : α → γ} {g : β → δ} (hfg : ∀ a b, R a b → S (f a) (g b)) :
    Alike S (f <$> x) (g <$> y) := by
  rw [map_eq_pure_bind, map_eq_pure_bind]
  exact h.bind fun a b hab => .pure (hfg a b hab)

theorem same {α : Type} (x : Outcome α) : Alike Eq x x := by
  obtain ⟨messages, e | a⟩ := x
  · exact .error
  · exact .ok rfl

theorem mono {R' : α → β → Prop} (h : Alike R x y) (hR : ∀ a b, R a b → R' a b) :
    Alike R' x y := by
  cases h with
  | ok h => exact .ok (hR _ _ h)
  | error => exact .error

/-- Related values after each step of two folds. -/
theorem foldlM {ι κ : Type} {T : ι → κ → Prop} {f : α → ι → Outcome α} {g : β → κ → Outcome β}
    {xs : List ι} {ys : List κ} (hxs : List.Forall₂ T xs ys)
    (hfg : ∀ a b x y, R a b → T x y → Alike R (f a x) (g b y)) {a : α} {b : β} (hab : R a b) :
    Alike R (xs.foldlM f a) (ys.foldlM g b) := by
  induction hxs generalizing a b with
  | nil => exact .pure hab
  | cons hxy _ ih =>
    rw [List.foldlM_cons, List.foldlM_cons]
    exact (hfg _ _ _ _ hab hxy).bind fun _ _ => ih

end Outcome.Alike

open Outcome (Alike)

/-! ## The shown part of a fragment -/

namespace Fragment

/-- What stands before the notes heading of a fragment, or all of it. -/
def shown (fragment : Text) : Text := ((cutAtNotes? fragment).map Prod.fst).getD fragment

def notes (fragment : Text) : Option Text := (cutAtNotes? fragment).map fun p => trim p.2

/-- Two fragments are the same up to the end of the first notes heading of one of them. -/
def SameUpToNotes (f g : Text) : Prop := ∃ shown heading notes notes',
  f = shown ++ heading ++ notes ∧ g = shown ++ heading ++ notes' ∧
    cutAtNotes? f = some (shown, notes)

theorem SameUpToNotes.cutAtNotes? {f g : Text} (h : SameUpToNotes f g) : ∃ before notes notes',
    Markup.cutAtNotes? f = some (before, notes) ∧ Markup.cutAtNotes? g = some (before, notes') := by
  obtain ⟨before, heading, notes, notes', rfl, rfl, hcut⟩ := h
  rw [List.append_assoc] at hcut ⊢
  rw [List.append_assoc]
  exact ⟨before, notes, notes', hcut, cutAtNotes?_append hcut notes'⟩

end Fragment

namespace Slide

/-- The slide of a fragment without notes. -/
def ofShown (shown : Text) : Slide :=
  match Heading.find? shown with
  | some (before, heading, after) =>
    { title := some heading.title
      level := some heading.level
      header := some heading.source
      content := joinContent before after }
  | none => { content := trim shown }

def withNotes (presenter raw : Option Text) (s : Slide) : Slide :=
  { s with presenterNotes := presenter, rawNotes := raw }

theorem ofFragment_eq (fragment : Text) (showNotes : Bool) :
    ofFragment fragment showNotes = (ofShown (Fragment.shown fragment)).withNotes
      (if showNotes then Fragment.notes fragment else none) (Fragment.notes fragment) := by
  simp only [ofFragment, ofShown, Fragment.shown, Fragment.notes]
  cases cutAtNotes? fragment with
  | none => cases h : Heading.find? fragment <;> simp [withNotes, h]
  | some p => cases h : Heading.find? p.1 <;> simp [withNotes, h]

end Slide

/-! ## Passes do not see notes -/

namespace Deck
variable (d : Deck) (store : Store) (source : Option Text)

theorem passHeader_withNotes (presenter raw : Option Text) (s : Slide) :
    d.passHeader store source (s.withNotes presenter raw) =
      Slide.withNotes presenter raw <$> d.passHeader store source s := by
  have hheader : (s.withNotes presenter raw).header = s.header := rfl
  rw [passHeader, passHeader, hheader]
  cases s.header with
  | none => rw [map_pure]
  | some header =>
    simp only [map_bind, map_pure]
    rfl

theorem passContent_withNotes (presenter raw : Option Text) (s : Slide) :
    d.passContent store source (s.withNotes presenter raw) =
      Slide.withNotes presenter raw <$> d.passContent store source s := by
  have hcontent : (s.withNotes presenter raw).content = s.content := rfl
  rw [passContent, passContent, hcontent]
  split
  · rw [map_pure]
  · simp only [map_bind, map_pure]
    rfl

/-- The slide that the shown part of a fragment makes. -/
def slideOfShown (shown : Text) : Outcome Slide := do
  let s ← d.passHeader store source (Slide.ofShown shown)
  let s ← d.passContent store source (s.addClasses d.settings.defaultClasses)
  pure { s with source := (source.map (facts store)).getD s.source }

/-- The notes of a fragment are put into a slide that is made without them. -/
theorem slideOf_eq (fragment : Text) : d.slideOf store source fragment =
    Slide.withNotes (if d.settings.presenterNotes then Fragment.notes fragment else none)
      (Fragment.notes fragment) <$> d.slideOfShown store source (Fragment.shown fragment) := by
  rw [slideOf, slideOfShown, Slide.ofFragment_eq, passHeader_withNotes]
  simp only [map_bind, bind_map_left, map_pure]
  congr 1
  funext s
  have hclasses : ∀ presenter raw, (s.withNotes presenter raw).addClasses d.settings.defaultClasses =
      (s.addClasses d.settings.defaultClasses).withNotes presenter raw := fun _ _ => rfl
  rw [hclasses, passContent_withNotes]
  simp only [bind_map_left]
  rfl

/-! ## Placing related slides -/

/-- A relation of slides that are placed alike: both are left out, or both get their numbers. -/
structure IsPlaced (R : Slide → Slide → Prop) : Prop where
  isLeftOut : ∀ {s t}, R s t → s.isLeftOut = t.isLeftOut
  number : ∀ {s t} n, R s t → R { s with number := n } { t with number := n }

section Placed
variable {d store} {R : Slide → Slide → Prop} (hR : IsPlaced R)
include hR

theorem forall₂_place {ss ts : List Slide} {s t : Slide} (hst : R s t)
    (h : List.Forall₂ R ss ts) : List.Forall₂ R (place ss s) (place ts t) := by
  rw [place_eq, place_eq, hR.isLeftOut hst, h.length_eq]
  split
  · exact h
  · exact List.rel_append h (.cons (hR.number _ hst) .nil)

/-- Decks that make related slides of related fragments make related slides of all of them. -/
theorem alike_slidesOf {d' : Deck} (hsource : d'.source = d.source) {T : Text → Text → Prop}
    (hslide : ∀ f g, T f g → Alike R (d.slideOf store (some d.source) f)
      (d'.slideOf store (some d.source) g))
    {fs gs : List Text} (h : List.Forall₂ T fs gs) :
    Alike (List.Forall₂ R) (d.slidesOf store fs) (d'.slidesOf store gs) := by
  rw [slidesOf, slidesOf, hsource]
  refine (Alike.foldlM h (fun ss ts f g hslides hfg => (hslide f g hfg).map fun s t hst =>
    forall₂_place hR hst hslides) .nil).bind fun ss ts hslides => ?_
  have hempty : ss.isEmpty = ts.isEmpty := by cases hslides <;> rfl
  rw [hempty]
  split
  · exact (Alike.same _).bind fun _ _ _ => .pure hslides
  · exact .pure hslides

end Placed

end Deck

/-! ## What differs when notes do -/

namespace Slide

/-- Two slides are equal in every field but their raw notes, which both have or both lack. -/
def SameButRawNotes (s t : Slide) : Prop :=
  t = { s with rawNotes := t.rawNotes } ∧ t.rawNotes.isSome = s.rawNotes.isSome

theorem SameButRawNotes.refl (s : Slide) : s.SameButRawNotes s := ⟨rfl, rfl⟩

theorem isPlaced_sameButRawNotes : Deck.IsPlaced SameButRawNotes where
  isLeftOut {s t} h := by
    rw [h.1]
    simp [isLeftOut, ← Option.not_isSome, h.2]
  number {s t} n h := by
    refine ⟨?_, h.2⟩
    conv => lhs; rw [h.1]

/-- The slide with its presenter notes shown or hidden. -/
def showingNotes (show? : Bool) (s : Slide) : Slide :=
  { s with presenterNotes := if show? then s.rawNotes else none }

theorem isPlaced_showingNotes (show? : Bool) :
    Deck.IsPlaced fun s t => t = s.showingNotes show? where
  isLeftOut h := by rw [h]; rfl
  number n h := by rw [h]; rfl

section Seen
variable {s t : Slide} (h : s.SameButRawNotes t)
include h

theorem SameButRawNotes.displayTitle : s.displayTitle = t.displayTitle := by
  rw [h.1]
  rfl

theorem SameButRawNotes.entryOf (deepest : Nat) :
    Outline.entryOf deepest s = Outline.entryOf deepest t := by
  rw [h.1]
  rfl

theorem SameButRawNotes.value : s.value = t.value := by
  rw [h.1]
  rfl

end Seen

end Slide

/-- What is the same of two slides is the same along two lists of such slides. -/
private theorem map_eq_of_forall₂ {α β γ : Type} {R : α → β → Prop} {f : α → γ} {g : β → γ}
    (hfg : ∀ a b, R a b → f a = g b) {as : List α} {bs : List β} (h : List.Forall₂ R as bs) :
    as.map f = bs.map g := by
  induction h with
  | nil => rfl
  | cons hab _ ih => rw [List.map_cons, List.map_cons, hfg _ _ hab, ih]

namespace Deck
variable (d : Deck) {ss ts : List Slide} (h : List.Forall₂ Slide.SameButRawNotes ss ts)
include h

theorem outline_of_forall₂ : d.outline ss = d.outline ts := by
  rw [outline, outline, Outline.ofSlides, Outline.ofSlides,
    map_eq_of_forall₂ (fun _ _ hst => hst.entryOf d.settings.maxTocLevel) h]

omit d in
theorem deckTitle?_of_forall₂ : Slide.deckTitle? ss = Slide.deckTitle? ts := by
  have htitles := map_eq_of_forall₂ (fun _ _ hst => Slide.SameButRawNotes.displayTitle hst) h
  have hfind : ∀ slides : List Slide,
      Slide.deckTitle? slides = (slides.map Slide.displayTitle).findSome? id := by
    intro slides
    rw [List.findSome?_map]
    rfl
  rw [hfind, hfind, htitles]

/-- No template tells the slides apart. -/
theorem render_page_of_forall₂ (template : Option Text) :
    (d.page ss).render template = (d.page ts).render template := by
  have hvalues : (d.page ss).values = (d.page ts).values := by
    simp only [Page.values, page, d.outline_of_forall₂ h, deckTitle?_of_forall₂ h, h.length_eq,
      map_eq_of_forall₂ (fun _ _ hst => Slide.SameButRawNotes.value hst) h]
  have hfill : ∀ t : Template, (d.page ss).fill t = (d.page ts).fill t := by
    intro t
    rw [Page.fill, Page.fill, hvalues]
  cases template with
  | none => exact hfill Page.standard
  | some source =>
    simp only [Page.render]
    split
    · exact hfill _
    · rfl

end Deck

/-! ## Notes switched off and on -/

def Settings.showingNotes (show? : Bool) (s : Settings) : Settings :=
  { s with presenterNotes := show? }

namespace Deck
variable (d : Deck) (store : Store)

def showingNotes (show? : Bool) : Deck := { d with settings := d.settings.showingNotes show? }

variable {d} in
/-- Fragments that differ in their hidden notes only make slides that differ in their raw notes
only. -/
theorem alike_slideOf (hoff : d.settings.presenterNotes = false) (source : Option Text) {f g : Text}
    (h : Fragment.SameUpToNotes f g) :
    Alike Slide.SameButRawNotes (d.slideOf store source f) (d.slideOf store source g) := by
  obtain ⟨before, notes, notes', hf, hg⟩ := h.cutAtNotes?
  rw [slideOf_eq, slideOf_eq, hoff]
  simp only [Fragment.shown, Fragment.notes, hf, hg, Option.map_some, Option.getD_some,
    Bool.false_eq_true, if_false]
  exact (Alike.same _).map fun s t hst => ⟨by rw [hst]; rfl, rfl⟩

theorem alike_slideOf_showingNotes (show? : Bool) (source : Option Text) (fragment : Text) :
    Alike (fun s t => t = s.showingNotes show?) (d.slideOf store source fragment)
      ((d.showingNotes show?).slideOf store source fragment) := by
  rw [slideOf_eq, slideOf_eq]
  exact (Alike.same _).map fun s t hst => by
    rw [hst]
    rfl

/-- Nothing that is read or decided when a deck is loaded depends on whether notes are shown. -/
theorem load_showingNotes (show? : Bool) (settings : Settings) (source : Text) :
    load store (settings.showingNotes show?) source =
      (fun d => d.showingNotes show?) <$> load store settings source := by
  have hpipeline : Pipeline.ofSettings (settings.showingNotes show?) =
      Pipeline.ofSettings settings := rfl
  simp only [load, map_bind, hpipeline]
  refine bind_congr fun _ => bind_congr fun dialect => bind_congr fun encoding =>
    bind_congr fun pipeline => bind_congr fun _ => bind_congr fun bytes => ?_
  split
  · simp only [map_bind, map_pure]
    rfl
  · simp only [map_bind, map_pure]
    rfl

/-- With notes switched off, fragments that are the same up to their notes make slides that differ in
raw notes only, and lists of such fragments make decks with the same outline, title and page, whatever
the template. Switching notes on or off changes nothing but the presenter notes of slides. -/
theorem notes_hidden_or_shown :
    (d.settings.presenterNotes = false →
      (∀ source f g, Fragment.SameUpToNotes f g →
        Alike Slide.SameButRawNotes (d.slideOf store source f) (d.slideOf store source g)) ∧
      ∀ fs gs, List.Forall₂ (fun f g => f = g ∨ Fragment.SameUpToNotes f g) fs gs →
        Alike (fun ss ts => List.Forall₂ Slide.SameButRawNotes ss ts ∧
            d.outline ss = d.outline ts ∧ Slide.deckTitle? ss = Slide.deckTitle? ts ∧
            ∀ template, (d.page ss).render template = (d.page ts).render template)
          (d.slidesOf store fs) (d.slidesOf store gs)) ∧
    ∀ show?,
      (∀ source fragment, Alike (fun s t => t = s.showingNotes show?)
        (d.slideOf store source fragment)
        ((d.showingNotes show?).slideOf store source fragment)) ∧
      Alike (List.Forall₂ fun s t => t = s.showingNotes show?)
        (d.slides store) ((d.showingNotes show?).slides store) ∧
      ∀ settings source, load store (settings.showingNotes show?) source =
        (fun d => d.showingNotes show?) <$> load store settings source := by
  refine ⟨fun hoff => ⟨fun source f g h => alike_slideOf store hoff source h, fun fs gs h => ?_⟩,
    fun show? => ⟨d.alike_slideOf_showingNotes store show?, ?_, load_showingNotes store show?⟩⟩
  · refine (alike_slidesOf Slide.isPlaced_sameButRawNotes rfl (fun f g hfg => ?_) h).mono
      fun ss ts hslides => ⟨hslides, d.outline_of_forall₂ hslides, deckTitle?_of_forall₂ hslides,
        d.render_page_of_forall₂ hslides⟩
    rcases hfg with rfl | hfg
    · exact (Alike.same _).mono fun s t hst => hst ▸ .refl s
    · exact alike_slideOf store hoff (some d.source) hfg
  · rw [slides_eq_slidesOf, slides_eq_slidesOf]
    refine @alike_slidesOf d store _ (Slide.isPlaced_showingNotes show?) (d.showingNotes show?) rfl
      (· = ·) (fun f g hfg => ?_) _ _ (List.forall₂_refl _)
    rw [hfg]
    exact d.alike_slideOf_showingNotes store show? _ g

/-- A fragment with some notes. -/
def notedFragment (notes : Text) : Text :=
  "<h2>Plan</h2>\n<p>For all</p>\n<h3 id=\"n\">\nPRESENTER notes</H1>" ++ notes

/-- A deck that hides notes. -/
def quietDeck : Deck where
  source := "deck.md"
  settings := { presenterNotes := false }
  dialect := .markdown
  text := []
  pipeline := Pipeline.standard {}

theorem alike_notedFragments :
    let store : Store := ⟨["w"], []⟩
    let f := notedFragment "<p>hush</p>"
    let g := notedFragment "<h1>Presenter Notes</h1>"
    quietDeck.settings.presenterNotes = false ∧ Fragment.SameUpToNotes f g ∧
      Alike Slide.SameButRawNotes (quietDeck.slideOf store none f) (quietDeck.slideOf store none g) ∧
      Alike (fun ss ts => List.Forall₂ Slide.SameButRawNotes ss ts ∧
          quietDeck.outline ss = quietDeck.outline ts ∧
          Slide.deckTitle? ss = Slide.deckTitle? ts ∧
          ∀ template, (quietDeck.page ss).render template = (quietDeck.page ts).render template)
        (quietDeck.slidesOf store [f, "<p>more</p>"]) (quietDeck.slidesOf store [g, "<p>more</p>"]) := by
  have hsame : Fragment.SameUpToNotes (notedFragment "<p>hush</p>")
      (notedFragment "<h1>Presenter Notes</h1>") :=
    ⟨"<h2>Plan</h2>\n<p>For all</p>\n", "<h3 id=\"n\">\nPRESENTER notes</H1>", "<p>hush</p>",
      "<h1>Presenter Notes</h1>", by cbv, by cbv, by cbv⟩
  obtain ⟨hslide, hslides⟩ := (notes_hidden_or_shown quietDeck ⟨["w"], []⟩).1 rfl
  exact ⟨rfl, hsame, hslide none _ _ hsame,
    hslides _ _ (.cons (.inr hsame) (.cons (.inl rfl) .nil))⟩

end Deck

end Slideshow
