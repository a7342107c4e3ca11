import Slideshow.Pass.Image

/-!
# What embedding makes of content

Each image is embedded by itself, and none of them makes the pass fail.
-/
namespace Slideshow
open Text

theorem Outcome.mapM_of_ok {α β : Type} {f : α → Outcome β} {g : α → β} {as : List α}
    (h : ∀ a ∈ as, (f a).result = .ok (g a)) :
    as.mapM f = ⟨as.flatMap fun a => (f a).messages, .ok (as.map g)⟩ := by
  induction as with
  | nil => rfl
  | cons a as ih =>
    have hrest := ih fun b hb => h b (List.mem_cons_of_mem a hb)
    rw [List.mapM_cons, hrest]
    simp [bind, pure, h a]

namespace Pass

/-- An image after embedding, which leaves it as it is if its file cannot be put into the page. -/
def Image.settled (origin : Origin) (i : Image) : Image :=
  (i.embedded origin).result.toOption.getD i

theorem Image.result_embedded (origin : Origin) (i : Image) :
    (i.embedded origin).result = .ok (i.settled origin) := by
  have hok : ∃ j, (i.embedded origin).result = .ok j := by
    rw [Image.embedded]
    split
    · exact ⟨i, rfl⟩
    dsimp only
    split
    · exact ⟨i, rfl⟩
    split
    · exact ⟨i, rfl⟩
    · exact ⟨_, rfl⟩
  obtain ⟨j, hj⟩ := hok
  rw [Image.settled, hj]
  rfl

/-- An image with no address, or with one that is a URL by itself. -/
def Image.IsSelfContained (i : Image) : Prop := i.address = [] ∨ Url.isAbsolute i.address

/-- An image with some contents for an address. -/
def Image.inlined (type : Text) (contents : Bytes) (i : Image) : Image :=
  { i with address := "data:" ++ type ++ ";base64," ++ Base64.encode contents }

/-- An image whose file is of a known type and can be read. -/
def Image.HasFile (origin : Origin) (type : Text) (contents : Bytes) (i : Image) : Prop :=
  let path := Path.join (origin.directory?.getD []) i.address
  imageType? path = some type ∧ origin.store.read path = .ok contents

theorem Image.IsSelfContained.embedded_eq {i : Image} (h : i.IsSelfContained) (origin : Origin) :
    i.embedded origin = pure i := by
  rw [Image.embedded, if_pos (by simpa [Image.IsSelfContained] using h)]

theorem Image.HasFile.embedded_eq {origin : Origin} {type : Text} {contents : Bytes} {i : Image}
    (h : i.HasFile origin type contents) (hi : ¬i.IsSelfContained) :
    i.embedded origin = pure (i.inlined type contents) := by
  obtain ⟨htype, hread⟩ := h
  rw [Image.embedded, if_neg (by simpa [Image.IsSelfContained] using hi)]
  simp only [htype, hread]
  rfl

/-- What embedding makes of a part of content. -/
def embeddedPart (origin : Origin) : Char ⊕ Image → Outcome Text
  | .inl c => pure [c]
  | .inr i => Image.spell <$> i.embedded origin

theorem result_embeddedPart (origin : Origin) (part : Char ⊕ Image) :
    (embeddedPart origin part).result =
      .ok (Pattern.image (fun i => (i.settled origin).spell) part) := by
  cases part with
  | inl c => rfl
  | inr i => simp [embeddedPart, Pattern.image, Functor.map, Image.result_embedded]

theorem messages_embeddedPart (origin : Origin) (part : Char ⊕ Image) :
    (embeddedPart origin part).messages =
      (part.getRight?.map fun i => (i.embedded origin).messages).getD [] := by
  cases part with
  | inl c => rfl
  | inr i => simp [embeddedPart, Functor.map, Image.result_embedded]

theorem flatMap_messages (origin : Origin) (parts : List (Char ⊕ Image)) :
    (parts.flatMap fun part => (embeddedPart origin part).messages) =
      (parts.filterMap Sum.getRight?).flatMap fun i => (i.embedded origin).messages := by
  induction parts with
  | nil => rfl
  | cons part parts ih =>
    rw [List.flatMap_cons, messages_embeddedPart, ih]
    cases part <;> rfl

/-- Embedding settles every image, and reports what embedding each of them reports. -/
theorem run_embedImages (origin : Origin) (content : Text) :
    (embedImages true).run origin content =
      ⟨(Image.pattern.parts content).flatMap fun i => (i.embedded origin).messages,
        .ok ⟨Image.pattern.replace (fun i => (i.settled origin).spell) content, []⟩⟩ := by
  have hrun : (embedImages true).run origin content =
      (Image.pattern.split content).mapM (embeddedPart origin) >>=
        fun parts => pure ⟨parts.flatten, []⟩ := rfl
  rw [hrun, Outcome.mapM_of_ok fun part _ => result_embeddedPart origin part, flatMap_messages]
  simp [bind, pure, Pattern.parts, Pattern.replace, List.flatMap_def]

/-- A document in a directory with an image. -/
def illustrated (image : Text) : Origin where
  store := ⟨["deck"], [(["deck"], .directory), (["deck", "talk.md"], .file []),
    (["deck", image], .file [120])]⟩
  source := some "talk.md"

end Pass

end Slideshow
