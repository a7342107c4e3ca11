import Slideshow.Pass.Standard
import Slideshow.Proofs.EmbeddedImages
import Slideshow.Proofs.ImageTags
import Slideshow.Proofs.TextPasses
import Slideshow.Proofs.UntouchedContent

/-!
# Images that need no file

Embedding puts the contents of its file in place of the address of each local image. None of the other
standard passes makes an image that needs a file, provided that the tags of the content settle whether
they are images.
-/
namespace Slideshow
open Text

/-! ## Addresses that are URLs by themselves -/

namespace Url
variable {s : Text}

theorem cleaned_eq_self (h : ∀ c ∈ s, 32 < c.toNat) : cleaned s = s := by
  have hmargin : ∀ t : Text, (∀ c ∈ t, 32 < c.toNat) → t.dropWhile (fun c => decide (c.toNat ≤ 32)) = t := by
    intro t ht
    cases t with
    | nil => rfl
    | cons c t => rw [List.dropWhile_cons, if_neg (by simpa using ht c (by simp))]
  have hkept : ∀ c ∈ s, (decide (c ≠ '\t') && decide (c ≠ '\n') && decide (c ≠ '\r')) = true := by
    intro c hc
    have := h c hc
    simp only [Bool.and_eq_true, decide_eq_true_eq]
    refine ⟨⟨?_, ?_⟩, ?_⟩ <;> rintro rfl <;> revert this <;> decide
  rw [cleaned, hmargin s h, hmargin s.reverse (by simpa using h), List.reverse_reverse,
    List.filter_eq_self.2 hkept]

/-- The address of a file that is part of the page. -/
theorem isAbsolute_data (h : ∀ c ∈ s, 32 < c.toNat) : isAbsolute ("data:i" ++ s) := by
  have hfront : ("data:i" : Text).all fun c => 32 < c.toNat := by cbv
  have hclean : cleaned ("data:i" ++ s) = "data:i" ++ s :=
    cleaned_eq_self fun c hc => (List.mem_append.1 hc).elim
      (fun hc => by simpa using List.all_eq_true.1 hfront c hc) (h c)
  rw [isAbsolute, hclean]
  cbv

/-- The address of a chart. -/
theorem isAbsolute_chart (h : ∀ c ∈ s, 32 < c.toNat) :
    isAbsolute ("https://chart.googleapis.com/" ++ s) := by
  have hfront : ("https://chart.googleapis.com/" : Text).all fun c => 32 < c.toNat := by cbv
  have hclean : cleaned ("https://chart.googleapis.com/" ++ s) =
      "https://chart.googleapis.com/" ++ s :=
    cleaned_eq_self fun c hc => (List.mem_append.1 hc).elim
      (fun hc => by simpa using List.all_eq_true.1 hfront c hc) (h c)
  rw [isAbsolute, hclean]
  cbv

end Url

namespace Pass

/-- A character that may stand in the address of an image: it ends neither the address nor the tag. -/
def isAddressChar (c : Char) : Bool := 32 < c.toNat && c ≠ '"' && c ≠ '<' && c ≠ '>'

theorem isAddressChar_encode (bytes : Bytes) : ∀ c ∈ Base64.encode bytes, isAddressChar c := by
  have hdigit : ∀ n, isAddressChar (Base64.digit n) := by
    intro n
    have hall : Base64.alphabet.all isAddressChar := by cbv
    rw [Base64.digit, List.getD_eq_getElem?_getD]
    cases hget : Base64.alphabet[n % 64]? with
    | none => decide
    | some c => exact List.all_eq_true.1 hall c (List.mem_of_getElem? hget)
  have hequals : isAddressChar '=' := by decide
  fun_induction Base64.encode bytes with
  | case1 => simp
  | case2 a => simp [hdigit, hequals]
  | case3 a b => simp [hdigit, hequals]
  | case4 a b c rest ih => simpa [hdigit] using ih

theorem isAddressChar_of_isAlphanum {c : Char} (h : c.isAlphanum) : isAddressChar c := by
  have hrange := isAlphanum_iff.1 h
  simp only [isAddressChar, Bool.and_eq_true, decide_eq_true_eq]
  refine ⟨⟨⟨by omega, ?_⟩, ?_⟩, ?_⟩ <;> rintro rfl <;> revert h <;> decide

theorem isAddressChar_percentByte (b : UInt8) : ∀ c ∈ Url.percentByte b, isAddressChar c := by
  have hdigit : ∀ n < 16, isAddressChar (Url.hexDigit n) := by decide
  have hb := b.toNat_lt
  have hpercent : isAddressChar '%' := by decide
  simp [Url.percentByte, hpercent, hdigit (b.toNat / 16) (by omega), hdigit (b.toNat % 16) (by omega)]

theorem isAddressChar_formEncode (t : Text) : ∀ c ∈ Url.formEncode t, isAddressChar c := by
  intro c hc
  obtain ⟨b, -, hb⟩ := List.mem_flatMap.1 hc
  dsimp only at hb
  split at hb
  · obtain rfl := List.mem_singleton.1 hb
    decide
  split at hb
  · next hplain =>
    obtain rfl := List.mem_singleton.1 hb
    simp only [Bool.or_eq_true, decide_eq_true_eq] at hplain
    obtain (((hword | he) | he) | he) | he := hplain
    · exact isAddressChar_of_isAlphanum hword
    all_goals
      rw [he]
      decide
  · exact isAddressChar_percentByte b c hb

/-- What the media types of images have in common. -/
theorem of_imageType? {path type : Text} (h : imageType? path = some type) :
    (∃ rest, type = 'i' :: rest) ∧ ∀ c ∈ type, isAddressChar c := by
  obtain ⟨extension, -, hlookup⟩ := Option.bind_eq_some_iff.1 h
  obtain ⟨front, back, htypes, -⟩ := List.lookup_eq_some_iff.1 hlookup
  have hmem := List.mem_append_right front (List.mem_cons_self (a := (lower extension, type)) (l := back))
  rw [← htypes] at hmem
  simp only [List.mem_cons, List.not_mem_nil, or_false, Prod.mk.injEq] at hmem
  obtain ⟨-, rfl⟩ | ⟨-, rfl⟩ | ⟨-, rfl⟩ | ⟨-, rfl⟩ | ⟨-, rfl⟩ | ⟨-, rfl⟩ | ⟨-, rfl⟩ | ⟨-, rfl⟩ := hmem <;>
    exact ⟨⟨_, by cbv⟩, List.all_eq_true.1 (by cbv)⟩

/-! ## Embedding -/

section Embedding
variable {origin : Origin} {i : Image}

/-- An image that is self-contained after embedding. -/
def Image.CanEmbed (origin : Origin) (i : Image) : Prop :=
  i.IsSelfContained ∨ ∃ type contents, i.HasFile origin type contents

theorem Image.isSelfContained_inlined {type : Text} {contents : Bytes} (h : i.HasFile origin type contents) :
    (i.inlined type contents).IsSelfContained ∧
      ∀ c ∈ (i.inlined type contents).address, isAddressChar c := by
  obtain ⟨⟨rest, rfl⟩, htype⟩ := of_imageType? h.1
  have hscheme : ("data:" : Text).all isAddressChar := by cbv
  have hmarks : (";base64," : Text).all isAddressChar := by cbv
  have hall : ∀ c ∈ (i.inlined ('i' :: rest) contents).address, isAddressChar c := by
    intro c hc
    simp only [Image.inlined, List.mem_append] at hc
    obtain ((hc | hc) | hc) | hc := hc
    · exact List.all_eq_true.1 hscheme c hc
    · exact htype c hc
    · exact List.all_eq_true.1 hmarks c hc
    · exact isAddressChar_encode contents c hc
  have haddress : (i.inlined ('i' :: rest) contents).address =
      "data:i" ++ (rest ++ ";base64," ++ Base64.encode contents) := by simp [Image.inlined]
  refine ⟨.inr ?_, hall⟩
  rw [haddress] at hall ⊢
  refine Url.isAbsolute_data fun c hc => ?_
  have := hall c (List.mem_append_right _ hc)
  simp only [isAddressChar, Bool.and_eq_true, decide_eq_true_eq] at this
  exact this.1.1.1

theorem Image.CanEmbed.embedded_eq (h : i.CanEmbed origin) : ∃ address,
    i.embedded origin = pure { i with address := address } ∧
      ({ i with address := address } : Image).IsSelfContained ∧
      ∀ c ∈ address, c ∈ i.address ∨ isAddressChar c := by
  by_cases hself : i.IsSelfContained
  · exact ⟨i.address, hself.embedded_eq origin, hself, fun c hc => .inl hc⟩
  · obtain ⟨type, contents, hfile⟩ := h.resolve_left hself
    obtain ⟨hinlined, hall⟩ := Image.isSelfContained_inlined hfile
    exact ⟨_, hfile.embedded_eq hself, hinlined, fun c hc => .inr (hall c hc)⟩

theorem Image.standsIn_of_mem_parts {s : Text} (h : i ∈ Image.pattern.parts s) : i.StandsIn s :=
  Image.pattern.exists_read?_of_mem_parts h

/-- An image whose tag has no other bracket settles itself. -/
theorem settlesImages_spell {Q : Image → Prop} {s rest address : Text}
    (hread : Image.pattern.read? s = some (i, rest)) (hopening : '<' ∉ i.opening)
    (haddress : ∀ c ∈ address, c ≠ '"' ∧ c ≠ '<' ∧ c ≠ '>') (hQ : Q { i with address := address }) :
    SettlesImages Q ({ i with address := address } : Image).spell := by
  have hclose := (Image.of_read? hread).1
  have hspell : ({ i with address := address } : Image).spell =
      '<' :: ("img" ++ i.opening ++ "src=\"" ++ address ++ "\"") := by simp [Image.spell]
  have hquote : '"' ∉ address := fun hc => (haddress _ hc).1 rfl
  have hsettles := settles_spell hread hquote hQ
  rw [hspell] at hsettles ⊢
  have hmem : ∀ c, c = '<' ∨ c = '>' → c ∉ ("img" ++ i.opening ++ "src=\"" ++ address ++ "\"" : Text) := by
    intro c hc hin
    simp only [List.mem_append] at hin
    have hfixed : c ∉ ("img" : Text) ∧ c ∉ ("src=\"" : Text) ∧ c ∉ ("\"" : Text) := by
      rcases hc with rfl | rfl <;> simp
    obtain (((hin | hin) | hin) | hin) | hin := hin
    · exact hfixed.1 hin
    · rcases hc with rfl | rfl
      · exact hopening hin
      · exact hclose hin
    · exact hfixed.2.1 hin
    · rcases hc with rfl | rfl
      · exact (haddress _ hin).2.1 rfl
      · exact (haddress _ hin).2.2 rfl
    · exact hfixed.2.2 hin
  refine (SettlesImages.of_not_mem (hmem '<' (.inl rfl))).bracket ?_ ?_ hsettles
  · rw [tagAt_eq_self (hmem '<' (.inl rfl)) (hmem '>' (.inr rfl))]
  · rw [show ("\"" : Text) = ['"'] by simp, List.getLast?_concat]
    decide

/-- An image that starts with its address. -/
theorem settlesImages_source {Q : Image → Prop} {address : Text}
    (haddress : ∀ c ∈ address, c ≠ '"' ∧ c ≠ '<' ∧ c ≠ '>') (hQ : Q ⟨" ", address⟩) :
    SettlesImages Q (⟨" ", address⟩ : Image).spell := by
  have hempty : Image.pattern.read? "<img src=\"\"" = some (⟨" ", []⟩, []) := by cbv
  exact settlesImages_spell hempty (by simp) haddress hQ

/-- Embedding reports nothing and leaves no image that needs a file. -/
theorem exists_run_embedImages {content : Text} (h : SettlesImages (Image.CanEmbed origin) content) :
    ∃ passed, (embedImages true).run origin content = pure passed ∧
      SettlesImages Image.IsSelfContained passed.content := by
  have hquiet : ∀ i ∈ Image.pattern.parts content, (i.embedded origin).messages = [] := by
    intro i hi
    obtain ⟨address, hembedded, -, -⟩ :=
      (h.kind_of_standsIn (Image.standsIn_of_mem_parts hi)).embedded_eq
    rw [hembedded]
    rfl
  refine ⟨_, by rw [run_embedImages, List.flatMap_eq_nil_iff.2 hquiet]; rfl, ?_⟩
  refine h.replace startsWith_image (fun u i rest hu hread => ?_) fun tag more hnone hsettles => ?_
  · have hsuffix := h.of_isSuffix hu
    obtain ⟨hopening, hopen, hclose⟩ := hsuffix.brackets_not_mem hread
    have hquote := (Image.of_read? hread).2.1
    obtain ⟨address, hembedded, hself, hchars⟩ :=
      (hsuffix.kind_of_standsIn ⟨[], u, rest, rfl, hread⟩).embedded_eq
    rw [Image.settled, hembedded]
    refine settlesImages_spell hread hopening (fun c hc => ?_) hself
    rcases hchars c hc with hc | hc
    · exact ⟨fun he => hquote (he ▸ hc), fun he => hopen (he ▸ hc), fun he => hclose (he ▸ hc)⟩
    · simp only [isAddressChar, Bool.and_eq_true, decide_eq_true_eq, ne_eq] at hc
      exact ⟨hc.1.1.2, hc.1.2, hc.2⟩
  · refine ⟨hsettles.read?_append, fun i rest hread => ?_⟩
    have := Image.read?_append hread more
    rw [List.cons_append, hnone] at this
    simp at this

end Embedding

/-! ## The other passes -/

/-- Behind each angle bracket stands something that no image starts with. -/
def opensNoImage : Text → Bool
  | [] => true
  | c :: s => (c ≠ '<' || s.head?.any fun d => d ≠ 'i' && d ≠ '<' && !isBlank d) && opensNoImage s

theorem settlesImages_of_opensNoImage {Q : Image → Prop} {s : Text} (h : opensNoImage s) :
    SettlesImages Q s := by
  induction s with
  | nil => exact .of_not_mem (by simp)
  | cons c s ih =>
    simp only [opensNoImage, Bool.and_eq_true, Bool.or_eq_true, decide_eq_true_eq] at h
    obtain ⟨hc, hs⟩ := h
    by_cases hbracket : c = '<'
    · subst hbracket
      obtain ⟨d, hd, hne⟩ := (Option.any_eq_true _ _).1 (hc.resolve_left (by simp))
      obtain ⟨t, rfl⟩ := List.head?_eq_some_iff.1 hd
      simp only [Bool.and_eq_true, decide_eq_true_eq, Bool.not_eq_true'] at hne
      exact (ih hs).tag hne.1.1 hne.1.2 hne.2
    · exact (ih hs).cons hbracket

theorem opensNoImage_of_not_mem {s : Text} (h : '<' ∉ s) : opensNoImage s := by
  induction s with
  | nil => rfl
  | cons c s ih =>
    rw [List.mem_cons, not_or] at h
    simp [opensNoImage, ih h.2, Ne.symm h.1]

theorem opensNoImage_append {s t : Text} (hs : opensNoImage s) (ht : opensNoImage t) :
    opensNoImage (s ++ t) := by
  induction s with
  | nil => exact ht
  | cons c s ih =>
    simp only [opensNoImage, Bool.and_eq_true, Bool.or_eq_true] at hs
    simp only [List.cons_append, opensNoImage, Bool.and_eq_true, Bool.or_eq_true]
    refine ⟨hs.1.imp_right fun hhead => ?_, ih hs.2⟩
    cases s with
    | nil => simp at hhead
    | cons d s => exact hhead

/-- Content between markup that opens no image. -/
theorem SettlesImages.between {Q : Image → Prop} {before s after : Text} (h : SettlesImages Q s)
    (hbefore : opensNoImage before) (hafter : opensNoImage after) :
    SettlesImages Q (before ++ s ++ after) :=
  ((settlesImages_of_opensNoImage hbefore).append h).append (settlesImages_of_opensNoImage hafter)

/-- A pass reports nothing and turns content with images of one kind into content with images of
another. -/
def Turns (origin : Origin) (Q Q' : Image → Prop) (pass : Pass) : Prop :=
  ∀ content, SettlesImages Q content → ∃ passed, pass.run origin content = pure passed ∧
    SettlesImages Q' passed.content

section Others
variable (origin : Origin) (Q : Image → Prop)

theorem language_of_read? {s rest : Text} {m : LanguageMark}
    (h : LanguageMark.pattern.read? s = some (m, rest)) : ∀ c ∈ m.language, isLanguageChar c := by
  simp only [LanguageMark.pattern, Option.bind_eq_bind, Option.bind_eq_some_iff] at h
  obtain ⟨t, -, u, -, h⟩ := h
  split at h
  · simp at h
  simp only [Option.bind_eq_some_iff] at h
  obtain ⟨r, -, h⟩ := h
  obtain ⟨rfl, -⟩ := Prod.mk.inj (Option.some.inj h)
  exact fun c hc => List.mem_takeWhile_imp hc

theorem turns_code : Turns origin Q Q code := by
  intro content h
  have hreplace : SettlesImages Q (LanguageMark.pattern.replace LanguageMark.html content) := by
    refine h.replace startsWith_languageMark (fun u m rest hu hread => ?_) fun _ _ _ hs => hs
    have hlanguage : '<' ∉ m.language := fun hc => absurd (language_of_read? hread _ hc) (by decide)
    have hopen : opensNoImage "<pre><code class=\"language-" := by cbv
    exact ((settlesImages_of_opensNoImage hopen).append (.of_not_mem hlanguage)).append
      (.of_not_mem (by simp))
  simp only [code]
  split
  · exact ⟨_, rfl, hreplace⟩
  · exact ⟨_, rfl, h⟩

theorem turns_linkImages : Turns origin Q Q (linkImages true) :=
  fun content h => ⟨⟨content, []⟩, rfl, h⟩

theorem turns_effects : Turns origin Q Q effects := fun _ h =>
  ⟨_, rfl, h.replace handles_effects.startsWith (fun _ _ _ _ _ => .of_not_mem (by simp))
    fun _ _ _ hs => hs⟩

/-- Text in front of the end of a paragraph. -/
theorem settlesImages_inside {front text rest : Text} {Q : Image → Prop}
    (h : SettlesImages Q (front ++ text ++ "</p>" ++ rest)) : SettlesImages Q text := by
  have hparagraph : front ++ text ++ "</p>" ++ rest = front ++ (text ++ '<' :: ("/p>" ++ rest)) := by simp
  rw [hparagraph] at h
  exact (h.of_isSuffix (List.suffix_append front _)).before_bracket

theorem turns_notes : Turns origin Q Q notes := by
  intro content h
  refine ⟨_, rfl, h.replace handles_notes.startsWith (fun u d rest hu hread => ?_) fun _ _ _ hs => hs⟩
  have hspell : u = "<p>.notes:" ++ d.gap ++ d.text ++ "</p>" ++ (d.ending ++ rest) := by
    simpa [notesPattern, Directive.pattern, Directive.spell] using notesPattern.eq_append_of_read? hread
  have htext := settlesImages_inside (hspell ▸ h.of_isSuffix hu)
  exact htext.between (by cbv) (by cbv)

end Others

/-! ## QR codes -/

theorem size_of_read? {s rest : Text} {q : QrCode} (h : QrCode.pattern.read? s = some (q, rest)) :
    ∀ c ∈ q.size, isAddressChar c := by
  simp only [QrCode.pattern, Option.bind_eq_bind, Option.bind_eq_some_iff] at h
  obtain ⟨t, -, u, -, v, -, h⟩ := h
  obtain ⟨rfl, -⟩ := Prod.mk.inj (Option.some.inj h)
  intro c hc
  have hdigit : isDigit c := List.mem_takeWhile_imp hc
  rw [isDigit] at hdigit
  split at hdigit
  · have hrange := isDigit_iff.1 hdigit
    exact isAddressChar_of_isAlphanum (isAlphanum_iff.2 (by omega))
  · next hwide =>
    simp only [isAddressChar, Bool.and_eq_true, decide_eq_true_eq]
    refine ⟨⟨⟨by omega, ?_⟩, ?_⟩, ?_⟩ <;> rintro rfl <;> exact hwide (by decide)

/-- The address of the chart that shows a QR code. -/
def QrCode.chart (q : QrCode) : Text :=
  let size := if q.size = [] then ("200" : Text) else q.size
  "https://chart.googleapis.com/" ++ ("chart?chs=" ++ size ++ "x" ++ size
    ++ "&amp;cht=qr&amp;chl=" ++ Url.formEncode q.data ++ "&amp;chf=bg,s,00000000&amp;choe=UTF-8")

theorem QrCode.html_eq (q : QrCode) : q.html =
    "<p class=\"qr\">" ++ (⟨" ", q.chart⟩ : Image).spell ++ (" alt=\"" ++ q.data ++ "\" /></p>") := by
  simp [QrCode.html, QrCode.chart, Image.spell]

theorem QrCode.isAddressChar_chart {q : QrCode} (h : ∀ c ∈ q.size, isAddressChar c) :
    ∃ path, q.chart = "https://chart.googleapis.com/" ++ path ∧ path.all isAddressChar := by
  have hsize : (if q.size = [] then ("200" : Text) else q.size).all isAddressChar := by
    split
    · cbv
    · exact List.all_eq_true.2 h
  have hdata : (Url.formEncode q.data).all isAddressChar :=
    List.all_eq_true.2 (isAddressChar_formEncode q.data)
  refine ⟨_, rfl, ?_⟩
  simp only [List.all_append, hsize, hdata, Bool.and_true, Bool.and_eq_true]
  exact ⟨⟨⟨by cbv, by cbv⟩, by cbv⟩, by cbv⟩

theorem QrCode.isAddressChar_of_mem_chart {q : QrCode} (h : ∀ c ∈ q.size, isAddressChar c) :
    ∀ c ∈ q.chart, isAddressChar c := by
  obtain ⟨path, hchart, hpath⟩ := QrCode.isAddressChar_chart h
  have hscheme : ("https://chart.googleapis.com/" : Text).all isAddressChar := by cbv
  rw [hchart]
  exact List.all_eq_true.1 (by rw [List.all_append, hscheme, hpath]; rfl)

/-- The image of a QR code is on the network. -/
theorem turns_qrCodes (origin : Origin) :
    Turns origin Image.IsSelfContained Image.IsSelfContained qrCodes := by
  intro content h
  refine ⟨_, rfl, h.replace startsWith_qrCode (fun u q rest hu hread => ?_) fun _ _ _ hs => hs⟩
  have hspell : u = "<p>.qr:" ++ q.gap ++ q.size ++ "|" ++ q.data ++ "</p>" ++ rest := by
    simpa [QrCode.pattern, QrCode.spell] using QrCode.pattern.eq_append_of_read? hread
  have hdata := settlesImages_inside (hspell ▸ h.of_isSuffix hu)
  obtain ⟨path, hchart, hpath⟩ := QrCode.isAddressChar_chart (size_of_read? hread)
  have hself : (⟨" ", q.chart⟩ : Image).IsSelfContained := by
    rw [hchart]
    refine .inr (Url.isAbsolute_chart fun c hc => ?_)
    have := List.all_eq_true.1 hpath c hc
    simp only [isAddressChar, Bool.and_eq_true, decide_eq_true_eq] at this
    exact this.1.1.1
  have himage : SettlesImages Image.IsSelfContained (⟨" ", q.chart⟩ : Image).spell :=
    settlesImages_source (fun c hc => by
      have := QrCode.isAddressChar_of_mem_chart (size_of_read? hread) c hc
      simp only [isAddressChar, Bool.and_eq_true, decide_eq_true_eq, ne_eq] at this
      exact ⟨this.1.1.2, this.1.2, this.2⟩) hself
  have hopen : opensNoImage "<p class=\"qr\">" := by cbv
  have hclose : opensNoImage "\" /></p>" := by cbv
  rw [QrCode.html_eq]
  exact ((settlesImages_of_opensNoImage hopen).append himage).append
    (((SettlesImages.of_not_mem (by simp)).append hdata).append (settlesImages_of_opensNoImage hclose))

/-! ## All passes -/

section Standard
variable {origin : Origin} {Q Q' : Image → Prop}

theorem Turns.exists_step {pass : Pass} (h : Turns origin Q Q' pass) {before : Passed}
    (hbefore : SettlesImages Q before.content) : ∃ after,
      Pipeline.step origin before pass = pure after ∧ SettlesImages Q' after.content := by
  obtain ⟨passed, hrun, hpassed⟩ := h _ hbefore
  exact ⟨⟨passed.content, before.sideData ++ passed.sideData⟩, by rw [Pipeline.step, hrun]; rfl, hpassed⟩

theorem exists_foldlM_step {passes : List Pass} (h : ∀ pass ∈ passes, Turns origin Q Q pass)
    {before : Passed} (hbefore : SettlesImages Q before.content) : ∃ after,
      passes.foldlM (Pipeline.step origin) before = pure after ∧ SettlesImages Q after.content := by
  induction passes generalizing before with
  | nil => exact ⟨before, rfl, hbefore⟩
  | cons pass passes ih =>
    obtain ⟨next, hnext, hsettles⟩ := (h pass (by simp)).exists_step hbefore
    rw [List.foldlM_cons, hnext, pure_bind]
    exact ih (fun p hp => h p (List.mem_cons_of_mem pass hp)) hsettles

/-- The standard passes leave no image that needs a file, and they report nothing. -/
theorem exists_process_standard {settings : Settings} (hembed : settings.embed) {content : Text}
    (h : SettlesImages (Image.CanEmbed origin) content) :
    ∃ passed, (Pipeline.standard settings).process origin content = pure passed ∧
      SettlesImages Image.IsSelfContained passed.content := by
  obtain ⟨coded, hcoded, hcodedImages⟩ :=
    @Turns.exists_step _ _ _ _ (turns_code origin (Image.CanEmbed origin)) ⟨content, []⟩ h
  have hembedding : Turns origin (Image.CanEmbed origin) Image.IsSelfContained (embedImages true) :=
    fun _ => exists_run_embedImages
  obtain ⟨embedded, hembedded, himages⟩ := hembedding.exists_step hcodedImages
  have hrest : ∀ pass ∈ [linkImages true, effects, notes, qrCodes],
      Turns origin Image.IsSelfContained Image.IsSelfContained pass := by
    intro pass hpass
    simp only [List.mem_cons, List.not_mem_nil, or_false] at hpass
    rcases hpass with rfl | rfl | rfl | rfl
    · exact turns_linkImages origin _
    · exact turns_effects origin _
    · exact turns_notes origin _
    · exact turns_qrCodes origin
  rw [Pipeline.process, Pipeline.passes_standard, hembed, Bool.true_or, List.foldlM_cons, hcoded,
    pure_bind, List.foldlM_cons, hembedded, pure_bind]
  exact exists_foldlM_step hrest himages

end Standard

end Pass

end Slideshow
