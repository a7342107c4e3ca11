import Slideshow.Proofs.SplicedImages
import Slideshow.Proofs.UrlCharacters

/-!
# Passes that are repeated

The passes that rewrite parts of content leave alone what they have made themselves. So content that
comes to a pass twice is not rewritten twice.
-/
namespace Slideshow
open Text Forest

namespace Pass
variable {s rest : Text} {c : Char}

/-! ## Code blocks -/

section LanguageMark
variable {m : LanguageMark}

theorem newline_mem_dropWhile_isLanguageChar {u : Text} :
    '\n' ∈ u.dropWhile isLanguageChar ↔ '\n' ∈ u := by
  induction u with
  | nil => rfl
  | cons c u ih =>
    by_cases hc : isLanguageChar c
    · have hne : '\n' ≠ c := by
        rintro rfl
        exact absurd hc (by decide)
      simp [hc, ih, hne]
    · simp [hc]

theorem takeWhile_eq_nil_iff {p : Char → Bool} : s.takeWhile p = [] ↔ s.head?.any p = false := by
  cases s with
  | nil => simp
  | cons c s => by_cases hc : p c <;> simp [hc]

theorem LanguageMark.read?_eq_none_iff : LanguageMark.pattern.read? s = none ↔
    ∀ t, dropAffix? "<pre><code>" s = some t →
      ∀ u, dropAffix? "!" (t.drop (Pass.gap t).length) = some u →
        u.head?.any isLanguageChar = false ∨ '\n' ∉ u := by
  have hnewline : ("\n" : Text) = ['\n'] := by simp
  simp only [LanguageMark.pattern, Option.bind_eq_bind, Option.bind_eq_none_iff]
  refine forall₂_congr fun t _ => forall₂_congr fun u _ => ?_
  rw [← takeWhile_eq_nil_iff]
  split
  · next h => simp [h]
  · next h =>
    rw [or_iff_right h]
    simp only [Option.bind_eq_none_iff, reduceCtorEq, imp_false,
      ← Option.eq_none_iff_forall_ne_some, hnewline, dropAffix?_dropWhile_eq_none_iff,
      newline_mem_dropWhile_isLanguageChar]

theorem LanguageMark.head?_html (m : LanguageMark) : m.html.head? = some '<' := by
  simp [LanguageMark.html]

theorem LanguageMark.newline_not_mem_html (h : LanguageMark.pattern.read? s = some (m, rest)) :
    '\n' ∉ m.html := by
  have hmem : '\n' ∉ m.language := fun hmem => absurd (language_of_read? h _ hmem) (by decide)
  simp [LanguageMark.html, hmem]

theorem gap_congr {t : Text} (h : s.head? = t.head?) : gap s = gap t := by
  rw [gap, gap, List.take_one, List.take_one, h]

theorem LanguageMark.gap_replace (t : Text) :
    Pass.gap (LanguageMark.pattern.replace LanguageMark.html t) = Pass.gap t ∧
      (LanguageMark.pattern.replace LanguageMark.html t).drop (Pass.gap t).length =
        LanguageMark.pattern.replace LanguageMark.html (t.drop (Pass.gap t).length) := by
  refine ⟨gap_congr (startsWith_languageMark.head?_replace LanguageMark.head?_html t), ?_⟩
  have hbracket : '<' ∉ Pass.gap t := fun hmem => absurd (List.mem_takeWhile_imp hmem) (by decide)
  have hreplace := startsWith_languageMark.replace_append (f := LanguageMark.html) hbracket
    (t.drop (Pass.gap t).length)
  rw [gap_append_drop] at hreplace
  rw [hreplace, List.drop_left]

theorem startsWith_languageMark_code : LanguageMark.pattern.StartsWith ('<' :: "pre><code>") := by
  intro s hs
  have hs : dropAffix? "<pre><code>" s = none := by simpa using hs
  simp only [LanguageMark.pattern, Option.bind_eq_bind, hs, Option.bind_none]

/-- What replaces a mark is no mark. -/
theorem LanguageMark.split_html (h : LanguageMark.pattern.read? s = some (m, rest)) (t : Text) :
    LanguageMark.pattern.split (m.html ++ t) =
      m.html.map .inl ++ LanguageMark.pattern.split t := by
  have hlanguage : '<' ∉ m.language := fun hmem => absurd (language_of_read? h _ hmem) (by decide)
  have hhtml : m.html = '<' :: ("pre>" ++ '<' :: ("code class=\"language-" ++ m.language ++ "\">")) := by
    simp [LanguageMark.html]
  have hbrackets : AtBrackets (dropAffix? ('<' :: "pre><code>") · = none) m.html := by
    rw [hhtml]
    refine .bracket (.append (.of_not_mem (by simp)) (.bracket (.of_not_mem (by simp [hlanguage])) ?_)) ?_
    · intro tail
      simp [dropAffix?]
    · intro tail
      simp [dropAffix?]
  rw [Pattern.Splits.of_atBrackets startsWith_languageMark_code hbrackets t]
  rfl

theorem dropAffix?_append_key (key more s : Text) :
    dropAffix? (key ++ more) s = (dropAffix? key s).bind (dropAffix? more) := by
  induction key generalizing s with
  | nil => rfl
  | cons a key ih =>
    cases s with
    | nil => rfl
    | cons c s =>
      by_cases hac : a = c
      · simp [dropAffix?, hac, ih]
      · simp [dropAffix?_cons_ne hac]

theorem LanguageMark.dropAffix?_cons_replace (c : Char) (s : Text) :
    dropAffix? "<pre><code>" (c :: LanguageMark.pattern.replace LanguageMark.html s) =
      (dropAffix? "<pre><code>" (c :: s)).map (LanguageMark.pattern.replace LanguageMark.html) := by
  have hkey : ("<pre><code>" : Text) = '<' :: ("pre>" ++ '<' :: "code>") := by simp
  have hdrop : ∀ t, dropAffix? ("pre>" ++ '<' :: "code>") t =
      (dropAffix? "pre>" t).bind (dropAffix? ('<' :: "code>")) := dropAffix?_append_key _ _
  rw [hkey]
  by_cases hc : '<' = c
  · subst hc
    have hpre := startsWith_languageMark.dropAffix?_replace LanguageMark.head?_html
      (show '<' ∉ ("pre>" : Text) by simp) s
    have hcode := startsWith_languageMark.dropAffix?_replace_bracket LanguageMark.head?_html
      (show '<' ∉ ("code>" : Text) by simp)
      (fun t => startsWith_languageMark _ (by simp [dropAffix?]))
      (fun m t => by simp [LanguageMark.html, dropAffix?])
    simp only [dropAffix?, if_true, hdrop, hpre]
    cases dropAffix? "pre>" s with
    | none => rfl
    | some t => exact hcode t
  · rw [dropAffix?_cons_ne hc, dropAffix?_cons_ne hc]
    rfl

theorem LanguageMark.read?_cons_replace (h : LanguageMark.pattern.read? (c :: s) = none) :
    LanguageMark.pattern.read? (c :: LanguageMark.pattern.replace LanguageMark.html s) = none := by
  rw [LanguageMark.read?_eq_none_iff] at h ⊢
  simp only [LanguageMark.dropAffix?_cons_replace, Option.map_eq_some_iff]
  rintro _ ⟨t, ht, rfl⟩
  rw [(LanguageMark.gap_replace t).1, (LanguageMark.gap_replace t).2,
    startsWith_languageMark.dropAffix?_replace LanguageMark.head?_html (by simp)]
  simp only [Option.map_eq_some_iff]
  rintro _ ⟨u, hu, rfl⟩
  rw [startsWith_languageMark.head?_replace LanguageMark.head?_html]
  exact (h t ht u hu).imp_right fun hnot hmem =>
    hnot (Pattern.mem_of_mem_replace (fun _ _ _ => LanguageMark.newline_not_mem_html) hmem)

theorem LanguageMark.replace_replace (s : Text) :
    LanguageMark.pattern.replace LanguageMark.html (LanguageMark.pattern.replace LanguageMark.html s) =
      LanguageMark.pattern.replace LanguageMark.html s := by
  refine Pattern.replace_replace (fun _ _ => LanguageMark.read?_cons_replace)
    (fun _ m rest hread => LanguageMark.split_html hread) (fun _ m rest _ => ?_) s
  simp [List.flatMap_map, Pattern.image]

theorem occursIn_pre_of_code (h : occursIn "<pre><code" s) : occursIn "<pre" s := by
  obtain ⟨before, after, rfl⟩ := occursIn_iff.1 h
  exact occursIn_iff.2 ⟨before, "><code" ++ after, by simp⟩

/-- Marking a second time gives the same content and sets the same aside. -/
theorem run_code_run (origin : Origin) (content : Text) : ∃ out aside,
    code.run origin content = pure ⟨out, aside⟩ ∧ code.run origin out = pure ⟨out, aside⟩ := by
  by_cases hpre : occursIn "<pre" content
  · refine ⟨_, _, congrArg pure (if_pos hpre), congrArg pure ?_⟩
    rw [LanguageMark.replace_replace]
    split
    · rfl
    · next hout => rw [if_neg (mt occursIn_pre_of_code hout)]
  · have hrun : code.run origin content = pure ⟨content, []⟩ := congrArg pure (if_neg hpre)
    exact ⟨content, [], hrun, hrun⟩

end LanguageMark

/-! ## Links -/

section Linked
variable {i : Image} {directory : Text}

/-- An image that linking leaves as it is. -/
def Image.IsLinked (directory : Text) (i : Image) : Prop :=
  i.address = [] ∨ i.address.head? = some '#' ∨ Url.isAbsolute i.address ∨
    Url.resolve? directory i.address = none

theorem Image.IsLinked.linked_eq (h : i.IsLinked directory) : i.linked directory = i := by
  rw [Image.linked]
  split
  · rfl
  · next hlocal =>
    simp only [Bool.or_eq_true, decide_eq_true_eq, not_or] at hlocal
    have hnone : Url.resolve? directory i.address = none := by
      simpa [Image.IsLinked, hlocal] using h
    rw [hnone]
    rfl

/-- What linking makes of the address of an image. -/
theorem Image.address_linked (directory : Text) (i : Image) :
    i.IsLinked directory ∧ (i.linked directory).address = i.address ∨
      Url.IsFileUrl (i.linked directory).address := by
  by_cases h : i.IsLinked directory
  · exact .inl ⟨h, congrArg Image.address h.linked_eq⟩
  · simp only [Image.IsLinked, not_or] at h
    obtain ⟨url, hurl⟩ := Option.ne_none_iff_exists'.1 h.2.2.2
    refine .inr ?_
    rw [Image.linked, if_neg (by simp [h.1, h.2.1, h.2.2.1]), hurl]
    exact Url.isFileUrl_of_resolve? hurl

/-- The address of a linked image is kept as it is by linking, also where a quote cuts it off. -/
theorem Image.isLinked_linked (h : '"' ∉ i.address) : Image.IsLinked directory
    { i with address := (i.linked directory).address.takeWhile (· ≠ '"') } := by
  rcases Image.address_linked directory i with ⟨hlinked, haddress⟩ | ⟨rest, haddress, -⟩
  · rw [haddress, List.takeWhile_eq_self_iff.2 (ne_of_not_mem h)]
    exact hlinked
  · have hcut : ("file://" ++ rest : Text).takeWhile (· ≠ '"') =
        "file://" ++ rest.takeWhile (· ≠ '"') := by simp
    rw [haddress, hcut]
    exact .inr (.inr (.inr (Url.resolve?_file directory _)))

theorem Image.bracket_not_mem_linked (h : '"' ∉ i.address) :
    '<' ∉ (i.linked directory).address.dropWhile (· ≠ '"') := by
  rcases Image.address_linked directory i with ⟨-, haddress⟩ | hurl
  · rw [haddress, List.dropWhile_eq_nil_iff.2 (ne_of_not_mem h)]
    simp
  · exact fun hmem => hurl.bracket_not_mem (.inl rfl) ((List.dropWhile_suffix _).subset hmem)

theorem Image.spell_linked (directory : Text) : (fun i : Image => (i.linked directory).spell) =
    Image.readdressed fun i => (i.linked directory).address := by
  funext i
  rw [Image.readdressed, Image.linked]
  split <;> rfl

theorem run_linkImages_of_isLinked {keep : Bool} {origin : Origin} {content : Text}
    (h : ∀ directory, keep = false → origin.directory? = some directory →
      ∀ i ∈ Image.pattern.parts content, i.IsLinked directory) :
    (linkImages keep).run origin content = pure ⟨content, []⟩ := by
  cases hbase : if keep then none else origin.directory? with
  | none => simp only [linkImages, hbase]
  | some directory =>
    cases keep with
    | true => simp at hbase
    | false =>
      have hsame : ∀ i ∈ Image.pattern.parts content, (i.linked directory).spell = Image.pattern.spell i :=
        fun i hi => congrArg Image.spell (h directory rfl (by simpa using hbase) i hi).linked_eq
      simp only [linkImages, hbase, Image.pattern.replace_eq_self hsame]

/-- Linking a second time changes nothing, and each image that is left without a scheme is empty, stands
in the page or makes no URL. -/
theorem run_linkImages_run (keep : Bool) (origin : Origin) (content : Text) : ∃ out,
    (linkImages keep).run origin content = pure ⟨out, []⟩ ∧
      (linkImages keep).run origin out = pure ⟨out, []⟩ ∧
      ∀ directory, keep = false → origin.directory? = some directory →
        ∀ i ∈ Image.pattern.parts out, i.IsLinked directory := by
  cases hbase : if keep then none else origin.directory? with
  | none =>
    have hrun : ∀ s, (linkImages keep).run origin s = pure ⟨s, []⟩ := by
      intro s
      simp only [linkImages, hbase]
    refine ⟨content, hrun content, hrun content, fun directory hkeep hdirectory => ?_⟩
    simp [hkeep, hdirectory] at hbase
  | some directory =>
    have hrun : ∀ s, (linkImages keep).run origin s =
        pure ⟨Image.pattern.replace (fun i => (i.linked directory).spell) s, []⟩ := by
      intro s
      simp only [linkImages, hbase]
    have hbracket := fun (s : Text) i rest (hread : Image.pattern.read? s = some (i, rest)) =>
      @Image.bracket_not_mem_linked i directory (Image.of_read? hread).2.1
    refine ⟨_, hrun content, ?_, fun directory' hkeep hdirectory i hi => ?_⟩
    · rw [hrun, Image.spell_linked, Image.replace_readdressed hbracket]
      intro s i rest hread
      exact congrArg Image.address (Image.isLinked_linked (Image.of_read? hread).2.1).linked_eq
    · obtain rfl : directory' = directory := by
        simpa [hkeep, hdirectory] using hbase
      rw [Image.spell_linked, Image.parts_readdressed hbracket] at hi
      obtain ⟨j, hj, rfl⟩ := List.mem_map.1 hi
      obtain ⟨before, after, rest, -, hread⟩ := Image.standsIn_of_mem_parts hj
      exact Image.isLinked_linked (Image.of_read? hread).2.1

end Linked

/-! ## Embedded files -/

section Embedded
variable {i : Image}

theorem Image.IsSelfContained.settled_eq (h : i.IsSelfContained) (origin : Origin) :
    i.settled origin = i := by
  rw [Image.settled, h.embedded_eq origin]
  rfl

/-- An image that is embedded is not embedded again. -/
theorem Image.settled_settled (origin : Origin) (i : Image) :
    (i.settled origin).settled origin = i.settled origin := by
  obtain ⟨address, reported, hi⟩ := Image.exists_embeds origin i
  have hkept : i.settled origin = i ∨ (i.settled origin).IsSelfContained := by
    rw [hi.settled_eq]
    cases hi with
    | kept => exact .inl rfl
    | inlined hlocal htype hread hpayload =>
      obtain rfl := Base64.eq_encode_of_decode? hpayload
      exact .inr (Image.isSelfContained_inlined (i := i) ⟨htype, hread⟩).1
    | unknown => exact .inl rfl
    | unreadable => exact .inl rfl
  rcases hkept with hkept | hself
  · rw [hkept, hkept]
  · exact hself.settled_eq origin

theorem replace_settled (origin : Origin) (content : Text) :
    Image.pattern.replace (fun i => (i.settled origin).spell)
        (Image.pattern.replace (fun i => (i.settled origin).spell) content) =
      Image.pattern.replace (fun i => (i.settled origin).spell) content := by
  rw [Image.spell_settled, Image.replace_readdressed (Image.bracket_not_mem_settled origin)]
  intro s i rest hread
  rw [Image.takeWhile_settled hread, Image.settled_eq, Image.settled_settled]

/-- Embedding a second time changes nothing, and reports the same. -/
theorem run_embedImages_run (embed : Bool) (origin : Origin) (content : Text) : ∃ out messages,
    (embedImages embed).run origin content = ⟨messages, .ok ⟨out, []⟩⟩ ∧
      (embedImages embed).run origin out = ⟨messages, .ok ⟨out, []⟩⟩ := by
  cases embed with
  | false => exact ⟨content, [], rfl, rfl⟩
  | true =>
    refine ⟨_, _, run_embedImages origin content, ?_⟩
    rw [run_embedImages, replace_settled, flatMap_messages_embedded, replace_settled,
      ← flatMap_messages_embedded]

end Embedded

/-- A pass that rewrites parts of content leaves what it makes as it is: code is marked, images are
linked and files are embedded once, with the same words set aside and the same reports. What linking
leaves without a scheme is empty, stands in the page or makes no URL below the directory. -/
theorem rewriting_is_idempotent (origin : Origin) (content : Text) :
    (∃ out aside, code.run origin content = pure ⟨out, aside⟩ ∧
        code.run origin out = pure ⟨out, aside⟩) ∧
      (∀ keep, ∃ out, (linkImages keep).run origin content = pure ⟨out, []⟩ ∧
        (linkImages keep).run origin out = pure ⟨out, []⟩ ∧
        ∀ directory, keep = false → origin.directory? = some directory →
          ∀ i ∈ Image.pattern.parts out, ¬Url.isAbsolute i.address →
            i.address = [] ∨ i.address.head? = some '#' ∨
              Url.resolve? directory i.address = none) ∧
      ∀ embed, ∃ out messages,
        (embedImages embed).run origin content = ⟨messages, .ok ⟨out, []⟩⟩ ∧
          (embedImages embed).run origin out = ⟨messages, .ok ⟨out, []⟩⟩ := by
  refine ⟨run_code_run origin content, fun keep => ?_,
    fun embed => run_embedImages_run embed origin content⟩
  obtain ⟨out, hrun, hagain, hlinked⟩ := run_linkImages_run keep origin content
  refine ⟨out, hrun, hagain, fun directory hkeep hdirectory i hi hlocal => ?_⟩
  simpa [Image.IsLinked, hlocal] using hlinked directory hkeep hdirectory i hi

def quotedImages : Text := "<img src=\"dot.png\"><img src=\"//a%22b/\"><img src=\"//[/\">"

def quotedLinks : Text :=
  "<img src=\"file:///deck/dot.png\"><img src=\"file://a\"b/\"><img src=\"//[/\">"

/-- A host may hold a quote, which ends the address of the link; the last image has no host. -/
theorem rewriting_is_idempotent_quoted :
    (illustrated "dot.png").directory? = some ("/deck" : Text) ∧
      (linkImages false).run (illustrated "dot.png") quotedImages = pure ⟨quotedLinks, []⟩ ∧
      (linkImages false).run (illustrated "dot.png") quotedLinks = pure ⟨quotedLinks, []⟩ ∧
      ∀ i ∈ Image.pattern.parts quotedLinks, ¬Url.isAbsolute i.address →
        i.address = [] ∨ i.address.head? = some '#' ∨ Url.resolve? "/deck" i.address = none := by
  have hdirectory : (illustrated "dot.png").directory? = some ("/deck" : Text) := by cbv
  have hlinks : Image.pattern.replace (fun i => (i.linked "/deck").spell) quotedImages =
      quotedLinks := by
    rw [Pattern.replace, Image.pattern.split_eq_splitWithin 60 (by cbv)]
    cbv
  have hrun : (linkImages false).run (illustrated "dot.png") quotedImages =
      pure ⟨quotedLinks, []⟩ := by
    simp only [linkImages, Bool.false_eq_true, if_false, hdirectory, hlinks]
  obtain ⟨-, hlinkImages, -⟩ := rewriting_is_idempotent (illustrated "dot.png") quotedImages
  obtain ⟨out, hout, hagain, hlocal⟩ := hlinkImages false
  obtain rfl : quotedLinks = out :=
    congrArg Passed.content (Except.ok.inj (congrArg Outcome.result (hrun.symm.trans hout)))
  exact ⟨hdirectory, hrun, hagain, hlocal "/deck" rfl hdirectory⟩

end Pass

end Slideshow
