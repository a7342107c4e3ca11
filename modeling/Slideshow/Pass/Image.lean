import Slideshow.Text.Pattern
import Slideshow.Text.Base64
import Slideshow.Text.Case
import Slideshow.Text.Word
import Slideshow.Url.Basic
import Slideshow.Pass.Basic

/-! # Images

The address of an image is the value of the first attribute of an image tag whose name ends in the
word src, between double quotes. One pass turns addresses of local files into URLs, another puts the
files themselves into the page.
-/
namespace Slideshow.Pass
open Text

/-- The part of an image tag up to its address, and the address. -/
structure Image where
  opening : Text
  address : Text
  deriving DecidableEq, Repr

def Image.spell (i : Image) : Text := "<img" ++ i.opening ++ "src=\"" ++ i.address ++ "\""

/-- The text before the first address attribute of a tag, and the text after its opening quote;
`before` is the character in front of the text. -/
def cutAtAddress? (before : Char) : Text → Option (Text × Text)
  | [] => none
  | c :: s =>
    match if isWord before then none else dropAffix? "src=\"" (c :: s) with
    | some rest => some ([], rest)
    | none => if c = '>' then none else (cutAtAddress? c s).map fun p => (c :: p.1, p.2)

theorem eq_append_of_cutAtAddress? {before : Char} {s opening rest : Text}
    (h : cutAtAddress? before s = some (opening, rest)) : s = opening ++ "src=\"" ++ rest := by
  induction s generalizing before opening with
  | nil => simp [cutAtAddress?] at h
  | cons c s ih =>
    simp only [cutAtAddress?] at h
    split at h
    · next r hr =>
      simp only [Option.some.injEq, Prod.mk.injEq] at h
      obtain ⟨rfl, rfl⟩ := h
      split at hr
      · simp at hr
      · simpa [dropAffix?_eq_some_iff] using hr
    · split at h
      · simp at h
      · obtain ⟨⟨b, a⟩, hp, hq⟩ := Option.map_eq_some_iff.1 h
        simp only [Prod.mk.injEq] at hq
        obtain ⟨rfl, rfl⟩ := hq
        simp [ih hp]

def Image.pattern : Pattern Image where
  read? s := do
    let s ← dropAffix? "<img" s
    if s.head?.any isWord then none
    else
      let (opening, s) ← cutAtAddress? 'g' s
      let rest ← dropAffix? "\"" (s.dropWhile (· ≠ '"'))
      some (⟨opening, s.takeWhile (· ≠ '"')⟩, rest)
  spell := Image.spell
  spell_ne_nil i := by simp [Image.spell]
  eq_append_of_read? := by
    intro s i rest h
    simp only [Option.bind_eq_bind, Option.bind_eq_some_iff, dropAffix?_eq_some_iff] at h
    obtain ⟨t, rfl, h⟩ := h
    split at h
    · simp at h
    simp only [Option.bind_eq_some_iff, dropAffix?_eq_some_iff] at h
    obtain ⟨⟨opening, u⟩, hc, r, hr, h⟩ := h
    simp only [Option.some.injEq, Prod.mk.injEq] at h
    obtain ⟨rfl, rfl⟩ := h
    have e := List.takeWhile_append_dropWhile (l := u) (p := fun c => decide (c ≠ '"'))
    rw [hr] at e
    rw [eq_append_of_cutAtAddress? hc]
    conv => lhs; rw [← e]
    simp [Image.spell]

/-- An image below a directory, with a URL for an address that is none. -/
def Image.linked (directory : Text) (i : Image) : Image :=
  if i.address = [] || i.address.head? = some '#' || Url.isAbsolute i.address then i
  else { i with address := (Url.resolve? directory i.address).getD i.address }

/-- Local addresses become URLs below the directory of the document. -/
def linkImages (keep : Bool) : Pass where
  name := "fix_image_paths"
  run origin content := pure <|
    match if keep then none else origin.directory? with
    | none => ⟨content, []⟩
    | some directory =>
      ⟨Image.pattern.replace (fun i => (i.linked directory).spell) content, []⟩

/-- The media type of an image file by its extension. -/
def imageType? (path : Text) : Option Text := do
  let extension ← Path.extension? path
  let types : List (Text × Text) := [("png", "image/png"), ("jpg", "image/jpeg"),
    ("jpeg", "image/jpeg"), ("gif", "image/gif"), ("svg", "image/svg+xml"),
    ("webp", "image/webp"), ("bmp", "image/bmp"), ("ico", "image/x-icon")]
  types.lookup (lower extension)

/-- An image with the contents of its file for an address, or with a warning if that cannot be. -/
def Image.embedded (origin : Origin) (i : Image) : Outcome Image :=
  if i.address = [] || Url.isAbsolute i.address then pure i
  else
    let path := Path.join (origin.directory?.getD []) i.address
    match imageType? path with
    | none => do
      Outcome.report .warning ("Unknown image type, not embedding: " ++ i.address)
      pure i
    | some type =>
      match origin.store.read path with
      | .error _ => do
        Outcome.report .warning ("Image not found: " ++ path)
        pure i
      | .ok contents =>
        pure { i with address := "data:" ++ type ++ ";base64," ++ Base64.encode contents }

/-- Local images are put into the page. -/
def embedImages (embed : Bool) : Pass where
  name := "embed_images"
  run origin content :=
    if embed then do
      let parts ← (Image.pattern.split content).mapM fun
        | .inl c => pure [c]
        | .inr i => Image.spell <$> i.embedded origin
      pure ⟨parts.flatten, []⟩
    else pure ⟨content, []⟩

end Slideshow.Pass
