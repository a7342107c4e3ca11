import Slideshow.Deck.Slides
import Slideshow.Proofs.PassCalls

/-!
# The numbers of slides

A deck first makes one slide of each fragment. Those of which something is left are its slides, in
the order of the fragments, and their places are their numbers.
-/
namespace Slideshow
open Text Markup

/-- Neither heading nor content nor notes are left of a slide. -/
def Slide.isLeftOut (s : Slide) : Bool :=
  s.header.isNone && s.content.isEmpty && s.rawNotes.isNone

theorem Slide.isLeftOut_eq_false_iff {s : Slide} :
    s.isLeftOut = false ↔ s.header.isSome ∨ s.content ≠ [] ∨ s.rawNotes.isSome := by
  rw [isLeftOut]
  cases s.header <;> cases s.rawNotes <;> simp

/-- Slides in a row, with their numbers from one. -/
def Slide.numbered (slides : List Slide) : List Slide :=
  slides.mapIdx fun i s => { s with number := i + 1 }

theorem Slide.exists_of_mem_numbered {slides : List Slide} {s : Slide}
    (h : s ∈ Slide.numbered slides) : ∃ t ∈ slides, s = { t with number := s.number } := by
  obtain ⟨i, hi, rfl⟩ := List.mem_mapIdx.1 h
  exact ⟨slides[i], List.getElem_mem hi, rfl⟩

/-- A fold over the values of some actions runs all of them first. -/
private theorem foldlM_map_eq {m : Type → Type} [Monad m] [LawfulMonad m] {α β γ : Type}
    (f : α → m β) (g : γ → β → γ) (xs : List α) (c : γ) :
    xs.foldlM (fun c x => g c <$> f x) c = (fun ys => ys.foldl g c) <$> xs.mapM f := by
  induction xs generalizing c with
  | nil => simp
  | cons x xs ih => simp [ih]

namespace Deck
variable (d : Deck) (store : Store)

/-- The slides of some fragments. -/
def slidesOf (fragments : List Text) : Outcome (List Slide) := do
  let slides ← fragments.foldlM
    (fun slides fragment => place slides <$> d.slideOf store (some d.source) fragment) []
  if slides.isEmpty then
    Outcome.report .warning ("No slides found in " ++ Text.quoted d.source)
  pure slides

theorem slides_eq_slidesOf :
    d.slides store = d.slidesOf store (Fragment.split d.html d.settings.splitLevel) := rfl

theorem place_eq (slides : List Slide) (s : Slide) : place slides s =
    if s.isLeftOut then slides else slides ++ [{ s with number := slides.length + 1 }] := rfl

/-- Slides that are placed behind others go on with their numbers. -/
theorem foldl_place (made before : List Slide) :
    made.foldl place before = before ++ (made.filter (!·.isLeftOut)).mapIdx
      fun i s => { s with number := before.length + i + 1 } := by
  induction made generalizing before with
  | nil => simp
  | cons s made ih =>
    rw [List.foldl_cons, ih, place_eq]
    by_cases h : s.isLeftOut
    · simp [h]
    · simp [h, List.mapIdx_cons, Nat.add_assoc, Nat.add_comm 1]

/-- The slides of a deck are those that its fragments make, without the ones that are left out. -/
theorem of_slides {d : Deck} {store : Store} {slides : List Slide}
    (h : (d.slides store).result = .ok slides) :
    ∃ made, ((Fragment.split d.html d.settings.splitLevel).mapM
        (d.slideOf store (some d.source))).result = .ok made ∧
      slides = Slide.numbered (made.filter (!·.isLeftOut)) := by
  rw [slides_eq_slidesOf, slidesOf, foldlM_map_eq, bind_map_left] at h
  obtain ⟨made, hmade, h⟩ := Outcome.bind_eq_ok_iff.1 h
  have hslides : slides = made.foldl place [] := by
    dsimp only at h
    split at h
    · obtain ⟨_, -, h⟩ := Outcome.bind_eq_ok_iff.1 h
      exact (Except.ok.inj h).symm
    · exact (Except.ok.inj h).symm
  exact ⟨made, hmade, by simp [hslides, foldl_place, Slide.numbered]⟩

/-! ## Levels -/

variable {d store} {source : Option Text} {s t : Slide}

theorem level_of_passHeader (h : (d.passHeader store source s).result = .ok t) :
    t.level = s.level := by
  rw [passHeader] at h
  split at h
  · rw [← Except.ok.inj h]
  · obtain ⟨passed, -, h⟩ := Outcome.bind_eq_ok_iff.1 h
    rw [← Except.ok.inj h]

theorem level_of_passContent (h : (d.passContent store source s).result = .ok t) :
    t.level = s.level := by
  rw [passContent] at h
  split at h
  · rw [← Except.ok.inj h]
  · obtain ⟨passed, -, h⟩ := Outcome.bind_eq_ok_iff.1 h
    rw [← Except.ok.inj h]
    rfl

/-- No pass changes the level of a slide. -/
theorem level_of_slideOf {fragment : Text} (h : (d.slideOf store source fragment).result = .ok s) :
    s.level = (Slide.ofFragment fragment d.settings.presenterNotes).level := by
  rw [slideOf] at h
  obtain ⟨headed, hheaded, h⟩ := Outcome.bind_eq_ok_iff.1 h
  obtain ⟨filled, hfilled, h⟩ := Outcome.bind_eq_ok_iff.1 h
  have hlevel := level_of_passContent hfilled
  rw [← Except.ok.inj h, ← level_of_passHeader hheaded]
  exact hlevel

end Deck

end Slideshow
