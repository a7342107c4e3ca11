import Slideshow.Proofs.EmbeddedImages
import Slideshow.Proofs.Base64Decoding
import Slideshow.Proofs.RewrittenParts

/-!
# Embedding splices

What embedding makes of content is said here without the way it is made: character by character, an
image is left as it is or has nothing but its address replaced by what decodes to its file.
-/
namespace Slideshow
open Text Forest

namespace Pass

/-- The path of the file of an image. -/
def Image.path (origin : Origin) (i : Image) : Text := Path.join (origin.directory?.getD []) i.address

/-- What embedding may make of an image: its address afterwards, and what is reported. -/
inductive Image.Embeds (origin : Origin) (i : Image) : Text → List Message → Prop
  | kept (h : i.IsSelfContained) : i.Embeds origin i.address []
  | inlined {type payload : Text} {contents : Bytes} (h : ¬i.IsSelfContained)
    (htype : imageType? (i.path origin) = some type)
    (hread : origin.store.read (i.path origin) = .ok contents)
    (hpayload : Base64.decode? payload = some contents) :
    i.Embeds origin ("data:" ++ type ++ ";base64," ++ payload) []
  | unknown (h : ¬i.IsSelfContained) (htype : imageType? (i.path origin) = none) :
    i.Embeds origin i.address [⟨.warning, "Unknown image type, not embedding: " ++ i.address⟩]
  | unreadable {fault : FileFault} (h : ¬i.IsSelfContained)
    (htype : (imageType? (i.path origin)).isSome)
    (hread : origin.store.read (i.path origin) = .error fault) :
    i.Embeds origin i.address [⟨.warning, "Image not found: " ++ i.path origin⟩]

/-- Content, what stands in its place after embedding, and what is reported on the way. -/
inductive Spliced (origin : Origin) : Text → Text → List Message → Prop
  | nil : Spliced origin [] [] []
  | letter {c : Char} {s out : Text} {messages : List Message}
    (h : Image.pattern.read? (c :: s) = none) (hs : Spliced origin s out messages) :
    Spliced origin (c :: s) (c :: out) messages
  | image {i : Image} {s rest address out : Text} {messages more : List Message}
    (h : Image.pattern.read? s = some (i, rest)) (hi : i.Embeds origin address messages)
    (hrest : Spliced origin rest out more) :
    Spliced origin s ("<img" ++ i.opening ++ "src=\"" ++ address ++ "\"" ++ out) (messages ++ more)

section Embedding
variable {origin : Origin} {i : Image} {address out content : Text} {messages : List Message}

theorem Image.Embeds.embedded_eq (h : i.Embeds origin address messages) :
    i.embedded origin = ⟨messages, .ok { i with address := address }⟩ := by
  cases h with
  | kept hself => exact hself.embedded_eq origin
  | inlined hlocal htype hread hpayload =>
    obtain rfl := Base64.eq_encode_of_decode? hpayload
    exact Image.HasFile.embedded_eq ⟨htype, hread⟩ hlocal
  | unknown hlocal htype =>
    rw [Image.path] at htype
    rw [Image.embedded, if_neg (by simpa [Image.IsSelfContained] using hlocal)]
    simp only [htype]
    rfl
  | unreadable hlocal htype hread =>
    obtain ⟨type, htype⟩ := Option.isSome_iff_exists.1 htype
    rw [Image.path] at htype hread
    rw [Image.embedded, if_neg (by simpa [Image.IsSelfContained] using hlocal)]
    simp only [htype, hread]
    rfl

theorem Image.exists_embeds (origin : Origin) (i : Image) :
    ∃ address messages, i.Embeds origin address messages := by
  by_cases hself : i.IsSelfContained
  · exact ⟨_, _, .kept hself⟩
  cases htype : imageType? (i.path origin) with
  | none => exact ⟨_, _, .unknown hself htype⟩
  | some type =>
    cases hread : origin.store.read (i.path origin) with
    | error fault => exact ⟨_, _, .unreadable hself (by simp [htype]) hread⟩
    | ok contents => exact ⟨_, _, .inlined hself htype hread (Base64.decode?_encode contents)⟩

theorem Image.Embeds.settled_eq (h : i.Embeds origin address messages) :
    i.settled origin = { i with address := address } := by
  rw [Image.settled, h.embedded_eq]
  rfl

theorem Image.Embeds.messages_eq (h : i.Embeds origin address messages) :
    (i.embedded origin).messages = messages := by
  rw [h.embedded_eq]

/-- Content has one splice only. -/
theorem Spliced.eq (h : Spliced origin content out messages) :
    out = Image.pattern.replace (fun i => (i.settled origin).spell) content ∧
      messages = (Image.pattern.parts content).flatMap fun i => (i.embedded origin).messages := by
  induction h with
  | nil => simp [Pattern.replace_nil, Pattern.parts, Pattern.split]
  | letter hread hs ih =>
    rw [Pattern.replace_of_read?_eq_none hread, ← ih.1, ih.2, Pattern.parts, Pattern.parts,
      Image.pattern.split_of_read?_eq_none hread]
    exact ⟨rfl, rfl⟩
  | image hread hi hrest ih =>
    rw [Pattern.replace_of_read? hread, ← ih.1, ih.2, Pattern.parts, Pattern.parts,
      Image.pattern.split_of_read? hread, hi.settled_eq, ← hi.messages_eq]
    exact ⟨rfl, rfl⟩

theorem exists_spliced (origin : Origin) (content : Text) :
    ∃ out messages, Spliced origin content out messages := by
  induction content using Pattern.split.induct Image.pattern with
  | case1 => exact ⟨_, _, .nil⟩
  | case2 c t i rest hread ih =>
    obtain ⟨out, more, hrest⟩ := ih
    obtain ⟨address, messages, hi⟩ := Image.exists_embeds origin i
    exact ⟨_, _, .image hread hi hrest⟩
  | case3 c t hread ih =>
    obtain ⟨out, messages, hs⟩ := ih
    exact ⟨_, _, .letter hread hs⟩

theorem run_embedImages_eq_iff : (embedImages true).run origin content = ⟨messages, .ok ⟨out, []⟩⟩ ↔
    Spliced origin content out messages := by
  constructor
  · intro h
    obtain ⟨spliced, reported, hspliced⟩ := exists_spliced origin content
    rw [run_embedImages, ← hspliced.eq.1, ← hspliced.eq.2] at h
    simp only [Outcome.mk.injEq, Except.ok.injEq, Passed.mk.injEq, and_true] at h
    rwa [← h.1, ← h.2]
  · intro h
    rw [run_embedImages, ← h.eq.1, ← h.eq.2]

/-! ## What is left -/

/-- The warning for an image that stays local. -/
def Image.warning (origin : Origin) (i : Image) : Message :=
  ⟨.warning, if (imageType? (i.path origin)).isSome then "Image not found: " ++ i.path origin
    else "Unknown image type, not embedding: " ++ i.address⟩

instance : DecidablePred Image.IsSelfContained := fun i =>
  inferInstanceAs (Decidable (i.address = [] ∨ Url.isAbsolute i.address))

theorem Image.Embeds.quote_not_mem (h : i.Embeds origin address messages) (hi : '"' ∉ i.address) :
    '"' ∉ address := by
  cases h with
  | kept => exact hi
  | inlined hlocal htype hread hpayload =>
    obtain rfl := Base64.eq_encode_of_decode? hpayload
    intro hmem
    exact absurd ((Image.isSelfContained_inlined ⟨htype, hread⟩).2 _ hmem) (by decide)
  | unknown => exact hi
  | unreadable => exact hi

/-- An image is reported if it stays local, and only then. -/
theorem Image.Embeds.messages_of_settled (h : i.Embeds origin address messages) :
    messages = if (i.settled origin).IsSelfContained then []
      else [(i.settled origin).warning origin] := by
  rw [h.settled_eq]
  cases h with
  | kept hself => rw [if_pos hself]
  | inlined hlocal htype hread hpayload =>
    obtain rfl := Base64.eq_encode_of_decode? hpayload
    have hself := (Image.isSelfContained_inlined (i := i) ⟨htype, hread⟩).1
    rw [Image.inlined] at hself
    rw [if_pos hself]
  | unknown hlocal htype => rw [if_neg hlocal, Image.warning, htype]; rfl
  | unreadable hlocal htype hread => rw [if_neg hlocal, Image.warning, if_pos htype]

theorem Image.quote_not_mem_settled {s rest : Text} (h : Image.pattern.read? s = some (i, rest))
    (origin : Origin) : '"' ∉ (i.settled origin).address := by
  obtain ⟨address, reported, hi⟩ := Image.exists_embeds origin i
  rw [hi.settled_eq]
  exact hi.quote_not_mem (Image.of_read? h).2.1

theorem Image.dropWhile_settled {s rest : Text} (h : Image.pattern.read? s = some (i, rest))
    (origin : Origin) : (i.settled origin).address.dropWhile (· ≠ '"') = [] :=
  List.dropWhile_eq_nil_iff.2 (ne_of_not_mem (Image.quote_not_mem_settled h origin))

theorem Image.takeWhile_settled {s rest : Text} (h : Image.pattern.read? s = some (i, rest))
    (origin : Origin) :
    (i.settled origin).address.takeWhile (· ≠ '"') = (i.settled origin).address :=
  List.takeWhile_eq_self_iff.2 (ne_of_not_mem (Image.quote_not_mem_settled h origin))

theorem Image.settled_eq (origin : Origin) (i : Image) :
    { i with address := (i.settled origin).address } = i.settled origin := by
  obtain ⟨address, reported, hi⟩ := Image.exists_embeds origin i
  rw [hi.settled_eq]

theorem Image.spell_settled (origin : Origin) :
    (fun i : Image => (i.settled origin).spell) =
      Image.readdressed fun i => (i.settled origin).address := by
  funext i
  rw [Image.readdressed, Image.settled_eq]

theorem Image.bracket_not_mem_settled (origin : Origin) (s : Text) (i : Image) (rest : Text)
    (h : Image.pattern.read? s = some (i, rest)) :
    '<' ∉ (i.settled origin).address.dropWhile (· ≠ '"') := by
  rw [Image.dropWhile_settled h]
  simp

/-- The images of what embedding makes of content. -/
theorem parts_settled (origin : Origin) (content : Text) :
    Image.pattern.parts (Image.pattern.replace (fun i => (i.settled origin).spell) content) =
      (Image.pattern.parts content).map (Image.settled origin) := by
  rw [Image.spell_settled, Image.parts_readdressed (Image.bracket_not_mem_settled origin)]
  refine List.map_congr_left fun i hi => ?_
  obtain ⟨before, after, rest, -, hread⟩ := Image.standsIn_of_mem_parts hi
  rw [Image.takeWhile_settled hread, Image.settled_eq]

/-- What is reported is what the images that stay local give reason for. -/
theorem flatMap_messages_embedded (origin : Origin) (content : Text) :
    ((Image.pattern.parts content).flatMap fun i => (i.embedded origin).messages) =
      ((Image.pattern.parts
        (Image.pattern.replace (fun i => (i.settled origin).spell) content)).filter
          fun i => ¬i.IsSelfContained).map (Image.warning origin) := by
  rw [parts_settled]
  induction Image.pattern.parts content with
  | nil => rfl
  | cons i images ih =>
    obtain ⟨address, reported, hi⟩ := Image.exists_embeds origin i
    rw [List.flatMap_cons, ih, hi.messages_eq, hi.messages_of_settled, List.map_cons]
    by_cases hself : (i.settled origin).IsSelfContained
    · simp [hself]
    · simp [hself]

/-- Embedding never fails and makes one splice of the content. It reports one warning for every image
that is still local afterwards, in their order. -/
theorem embedding_splices (origin : Origin) (content : Text) :
    ∃ out messages, (embedImages true).run origin content = ⟨messages, .ok ⟨out, []⟩⟩ ∧
      (∀ spliced reported, Spliced origin content spliced reported ↔
        spliced = out ∧ reported = messages) ∧
      messages = ((Image.pattern.parts out).filter fun i => ¬i.IsSelfContained).map
        (Image.warning origin) := by
  obtain ⟨out, messages, h⟩ := exists_spliced origin content
  refine ⟨out, messages, run_embedImages_eq_iff.2 h, fun spliced reported => ⟨fun h' => ?_, ?_⟩, ?_⟩
  · exact ⟨h'.eq.1.trans h.eq.1.symm, h'.eq.2.trans h.eq.2.symm⟩
  · rintro ⟨rfl, rfl⟩
    exact h
  · rw [h.eq.1, h.eq.2, flatMap_messages_embedded]

end Embedding

end Pass

end Slideshow
