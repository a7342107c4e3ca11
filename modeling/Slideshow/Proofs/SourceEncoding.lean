import Slideshow.Proofs.AgreeingStores
import Slideshow.Proofs.EncodedText
import Slideshow.Proofs.FirstFailure
import Slideshow.Proofs.HiddenNotes
import Slideshow.Proofs.LocatedNames
import Slideshow.Proofs.RenderedDeck

/-!
# The encoding of a source

A document in an encoding of single bytes, loaded with a label of the encoding, and the same
document in UTF-8, loaded without a label, make the same deck. After a deck is loaded nothing looks
at the bytes of its source or at the label; the standard passes read other files only, since no
image has the extension of a document.
-/
namespace Slideshow
open Text Store
open Outcome (Alike)

theorem Outcome.Alike.of_map {α β : Type} {R : α → β → Prop} {x : Outcome α} {f : α → β}
    (h : ∀ a, x.result = .ok a → R a (f a)) : Alike R x (f <$> x) := by
  obtain ⟨messages, e | a⟩ := x
  · exact .error
  · have hmap : f <$> (⟨messages, .ok a⟩ : Outcome α) = ⟨messages ++ [], .ok (f a)⟩ := rfl
    rw [hmap, List.append_nil]
    exact .ok (h a rfl)

/-! ## Images are no documents -/

private theorem meetsCased_dot (before : Text) :
    meetsCased (before ++ ['.']) = meetsCased before := by
  have hdot : within caseless '.' = true := by decide
  rw [meetsCased, meetsCased, List.dropWhile_append]
  cases hbefore : before.dropWhile (within caseless) with
  | nil => simp [hdot]
  | cons c rest => simp

private theorem lowerAfter_dot (before s : Text) :
    lowerAfter (before ++ ['.']) s = lowerAfter before s := by
  induction s generalizing before with
  | nil => rfl
  | cons c s ih => rw [lowerAfter, lowerAfter, meetsCased_dot, ← List.cons_append, ih]

theorem Text.lower_dot (s : Text) : lower ('.' :: s) = '.' :: lower s := by
  have hsmall : smallChar '.' = ['.'] := by decide
  rw [lower, lowerAfter, if_neg (by decide), hsmall]
  exact congrArg _ (lowerAfter_dot [] s)

/-- An image file and a document are two files. -/
theorem Pass.locate_ne_of_imageType? {s : Store} {source path type : Text} {place : List Text}
    {dialect : Dialect} (hdialect : Dialect.ofPath source = .ok dialect)
    (hsource : s.locate source = .ok place) (htype : imageType? path = some type) :
    s.locate path ≠ .ok place := by
  intro hpath
  obtain ⟨e, he, htype⟩ := Option.bind_eq_some_iff.1 htype
  rw [Dialect.ofPath] at hdialect
  cases hsourceExtension : Path.extension? source with
  | none => simp [hsourceExtension, Dialect.ofExtension, lower, lowerAfter] at hdialect
  | some f =>
    obtain rfl := extension?_eq_of_locate hpath hsource he hsourceExtension
    simp only [hsourceExtension, Option.map_some, Option.getD_some, Dialect.ofExtension,
      lower_dot] at hdialect
    have hdocument : lower e = ("md" : Text) ∨ lower e = ("markdown" : Text) ∨
        lower e = ("rst" : Text) := by
      split at hdialect
      · next h => simpa [← or_assoc] using Or.inl h
      split at hdialect
      · next h => exact .inr (.inr (by simpa using h))
      · simp at hdialect
    rcases hdocument with h | h | h <;> simp [h, List.lookup] at htype

/-! ## Passes -/

namespace Pass
variable {s t : Store} {place : List Text} (h : AgreeExceptAt place s t)
include h

theorem directory?_eq (source : Option Text) :
    Origin.directory? ⟨t, source⟩ = Origin.directory? ⟨s, source⟩ := by
  simp only [Origin.directory?, h.absolute_eq]

variable (himage : ∀ path type, imageType? path = some type → s.locate path ≠ .ok place)
include himage

theorem embedded_eq (source : Option Text) (i : Image) :
    i.embedded ⟨t, source⟩ = i.embedded ⟨s, source⟩ := by
  simp only [Image.embedded, directory?_eq h]
  split
  · rfl
  cases htype : imageType? _ with
  | none => rfl
  | some type => rw [h.read_eq (himage _ _ htype)]

theorem run_eq_of_standard? {settings : Settings} {name : Text} {pass : Pass}
    (hpass : standard? settings name = some pass) (source : Option Text) (content : Text) :
    pass.run ⟨t, source⟩ content = pass.run ⟨s, source⟩ content := by
  have hmem := List.mem_of_find?_eq_some hpass
  simp only [List.mem_cons, List.not_mem_nil, or_false] at hmem
  rcases hmem with rfl | rfl | rfl | rfl | rfl | rfl
  · rfl
  · simp only [embedImages, embedded_eq h himage]
  · simp only [linkImages, directory?_eq h]
  · rfl
  · rfl
  · rfl

end Pass

/-! ## Decks of one document in two stores -/

theorem Pipeline.IsStandard.process_eq_of_agree {s t : Store} {place : List Text}
    {settings : Settings} {p : Pipeline} (hp : p.IsStandard settings) (h : AgreeExceptAt place s t)
    (himage : ∀ path type, Pass.imageType? path = some type → s.locate path ≠ .ok place)
    (source : Option Text) (content : Text) :
    p.process ⟨t, source⟩ content = p.process ⟨s, source⟩ content := by
  obtain ⟨passes⟩ := p
  rw [process, process]
  generalize Passed.mk content [] = passed
  induction passes generalizing passed with
  | nil => rfl
  | cons pass passes ih =>
    obtain ⟨name, hname⟩ := hp pass List.mem_cons_self
    have hstep : step ⟨t, source⟩ passed pass = step ⟨s, source⟩ passed pass := by
      rw [step, step, Pass.run_eq_of_standard? h himage hname]
    rw [List.foldlM_cons, List.foldlM_cons, hstep]
    have hrest := fun other hother => hp other (List.mem_cons_of_mem _ hother)
    exact bind_congr fun after => ih hrest after

/-- The settings with another label of the encoding, or with none. -/
def Settings.labelled (label : Option Text) (s : Settings) : Settings := { s with encoding := label }

namespace Deck

/-- The deck, as if it had been loaded with another label. -/
def labelled (label : Option Text) (d : Deck) : Deck :=
  { d with settings := d.settings.labelled label }

section Runs
variable {s t : Store} {place : List Text} {d : Deck} (h : AgreeExceptAt place s t)
  (hstandard : d.pipeline.IsStandard d.settings)
  (himage : ∀ path type, Pass.imageType? path = some type → s.locate path ≠ .ok place)
include h hstandard himage

theorem slideOf_eq_of_agree (source : Option Text) (fragment : Text) :
    d.slideOf t source fragment = d.slideOf s source fragment := by
  have hprocess : ∀ content, d.process t source content = d.process s source content :=
    hstandard.process_eq_of_agree h himage source
  have hfacts : facts t = facts s := by
    funext path
    rw [facts, facts, h.absolute_eq]
  simp only [slideOf, passHeader, passContent, hprocess, hfacts]

theorem slides_eq_of_agree : d.slides t = d.slides s := by
  simp only [slides, slideOf_eq_of_agree h hstandard himage]

theorem render_eq_of_agree : d.render t = d.render s := by
  rw [render, render, slides_eq_of_agree h hstandard himage]

/-- Publishing reports the same in both stores and leaves stores that agree. -/
theorem publish_eq_of_agree : (d.publish t).2 = (d.publish s).2 ∧
    AgreeExceptAt place (d.publish s).1 (d.publish t).1 := by
  rw [publish, publish, render_eq_of_agree h hstandard himage]
  dsimp only
  cases (d.render s).result with
  | error failure => exact ⟨rfl, h⟩
  | ok html =>
    obtain ⟨hstores, hresult⟩ := h.alike_save d.settings.destination (Utf8.encode html)
    simp only [hresult, true_and]
    exact hstores

/-- The same page is found at the destination. -/
theorem read_publish_of_agree {path : Text} (hpath : (d.publish s).2.result = .ok path) :
    ∃ page, (d.publish s).1.read path = .ok page ∧ (d.publish t).1.read path = .ok page := by
  obtain ⟨-, html, hhtml, hsave⟩ := d.of_publish s hpath
  rw [← (publish_eq_of_agree h hstandard himage).1] at hpath
  obtain ⟨-, html', hhtml', hsave'⟩ := d.of_publish t hpath
  obtain rfl : html = html' := by
    rw [render_eq_of_agree h hstandard himage, hhtml] at hhtml'
    exact Except.ok.inj hhtml'
  exact ⟨_, (of_save hsave).1, (of_save hsave').1⟩

end Runs

/-! ## Loading -/

section Load
variable {s t : Store} {place : List Text} {source label text : Text} {e : Encoding} {bytes : Bytes}
  (h : AgreeExceptAt place s t) (hlabel : Encoding.resolve label = .ok e)
  (hbytes : e.encode? text = some bytes) (hmark : Encoding.marked? bytes = none)
  (hs : s.read source = .ok bytes) (ht : t.read source = .ok (Utf8.encode text))
include h hlabel hbytes hmark hs ht

/-- The label is not used once the source is decoded. -/
theorem load_labelled (settings : Settings) : load t (settings.labelled none) source =
    labelled none <$> load s (settings.labelled (some label)) source := by
  obtain ⟨hlabelled, hplain⟩ := Encoding.decodeSource_of_encode? hlabel hbytes hmark
  have hresolve : (settings.labelled (some label)).encoding.mapM Encoding.resolve = .ok (some e) := by
    simp [Settings.labelled, hlabel]
  have hnone : (settings.labelled none).encoding.mapM Encoding.resolve = .ok none := rfl
  have hpipeline : Pipeline.ofSettings (settings.labelled (some label)) =
      Pipeline.ofSettings (settings.labelled none) := rfl
  simp only [load, map_bind, h.requireFile_eq, hresolve, hnone, hpipeline, hs, ht]
  refine bind_congr fun _ => bind_congr fun dialect => ?_
  have hok : ∀ {α : Type} (a : α), Outcome.ofExcept (.ok a) = pure a := fun _ => rfl
  simp only [Except.mapError, hok, pure_bind]
  refine bind_congr fun pipeline => bind_congr fun _ => ?_
  simp only [hlabelled, hplain, Bool.false_eq_true, if_false, map_bind, map_pure]
  rfl

/-- Two decks with the same text and slides: on one they are made in the first store, on the other in
the second. -/
structure SameRun (text : Text) (s t : Store) (d d' : Deck) : Prop where
  text_eq : d.text = text ∧ d'.text = text
  slides : d'.slides t = d.slides s
  outline : d'.outline = d.outline
  render : d'.render t = d.render s
  publish : (d'.publish t).2 = (d.publish s).2
  page : ∀ path, (d.publish s).2.result = .ok path → ∃ page,
    (d.publish s).1.read path = .ok page ∧ (d'.publish t).1.read path = .ok page

theorem alike_load (hplace : s.locate source = .ok place) (settings : Settings) :
    Alike (SameRun text s t) (load s (settings.labelled (some label)) source)
      (load t (settings.labelled none) source) := by
  rw [load_labelled h hlabel hbytes hmark hs ht]
  refine Alike.of_map fun d hload => ?_
  obtain ⟨dialect, encoding, _, found, -, hdialect, hencoding, -, hfound, rfl⟩ := of_load hload
  obtain ⟨-, hstandard⟩ := isStandard_of_load hload
  have htext : (Encoding.decodeSource found encoding).text = text := by
    obtain rfl : found = bytes := Except.ok.inj (hfound.symm.trans hs)
    obtain rfl : some e = encoding := by
      simpa [Settings.labelled, hlabel] using hencoding
    rw [(Encoding.decodeSource_of_encode? hlabel hbytes hmark).1]
  have himage : ∀ path type, Pass.imageType? path = some type → s.locate path ≠ .ok place :=
    fun _ _ => Pass.locate_ne_of_imageType? hdialect hplace
  exact {
    text_eq := ⟨htext, htext⟩
    slides := slides_eq_of_agree h hstandard himage
    outline := rfl
    render := render_eq_of_agree h hstandard himage
    publish := (publish_eq_of_agree h hstandard himage).1
    page := fun path => read_publish_of_agree h hstandard himage }

end Load

/-- A deck does not depend on the encoding of its source. UTF-8 is read back without damage. And a
text in an encoding of single bytes, loaded with a label of the encoding, makes the same deck as the
text in UTF-8, loaded without a label: both are refused alike, or they have the same text, slides,
outline, page and messages, and write the same page. -/
theorem load_of_encode? :
    (∀ text : Text, text.head? ≠ some '\uFEFF' →
      Encoding.decodeSource (Utf8.encode text) none = ⟨text, Encoding.utf8, false⟩) ∧
    ∀ label e text bytes, Encoding.resolve label = .ok e → e.encode? text = some bytes →
      Encoding.marked? bytes = none → ∀ s t place source, AgreeExceptAt place s t →
      s.locate source = .ok place → s.read source = .ok bytes →
      t.read source = .ok (Utf8.encode text) → ∀ settings : Settings,
      Alike (SameRun text s t) (load s (settings.labelled (some label)) source)
        (load t (settings.labelled none) source) := by
  refine ⟨fun text => Encoding.decodeSource_encode, ?_⟩
  intro label e text bytes hlabel hbytes hmark s t place source h hplace hs ht settings
  exact alike_load h hlabel hbytes hmark hs ht hplace settings

/-- A directory with one document. -/
def talkStore (contents : Bytes) : Store where
  home := ["w"]
  entries := [(["w"], .directory), (["w", "talk.md"], .file contents)]

def ibm866 : Encoding := ⟨"IBM866", .table Encoding.Table.ibm866, ["866", "cp866", "csibm866", "ibm866"]⟩

theorem resolve_cp866 : Encoding.resolve "cp866" = .ok ibm866 := by
  have hfound : Encoding.ofLabel? "cp866" = some ibm866 := by
    rw [Encoding.ofLabel?, Encoding.all, List.find?_cons_of_neg (by cbv; exact Bool.false_ne_true),
      List.find?_cons_of_pos (by cbv)]
    rfl
  have htrim : trim "cp866" = "cp866" := by cbv
  rw [Encoding.resolve, Encoding.resolve?, htrim, hfound]
  rfl

theorem encode?_ibm866 :
    ibm866.encode? "# Мир!\n" = some [0x23, 0x20, 0x8C, 0xA8, 0xE0, 0x21, 0x0A] := by
  rw [Encoding.encode?, ibm866, Encoding.Table.ibm866]
  repeat rw [Text.ofString, String.toList_ofList]
  decide +kernel

theorem agreeExceptAt_talkStore (contents other : Bytes) :
    AgreeExceptAt ["w", "talk.md"] (talkStore contents) (talkStore other) where
  home := rfl
  entry names hnames := by
    simp only [get?, talkStore, List.lookup_cons]
    rw [beq_false_of_ne hnames]
  first := ⟨contents, by simp [get?, talkStore, List.lookup_cons]⟩
  second := ⟨other, by simp [get?, talkStore, List.lookup_cons]⟩

theorem load_ibm866 :
    let text : Text := "# Мир!\n"
    let s := talkStore [0x23, 0x20, 0x8C, 0xA8, 0xE0, 0x21, 0x0A]
    let t := talkStore (Utf8.encode text)
    Encoding.decodeSource (Utf8.encode text) none = ⟨text, Encoding.utf8, false⟩ ∧
      Alike (SameRun text s t) (load s (Settings.labelled (some "cp866") {}) "talk.md")
        (load t (Settings.labelled none {}) "talk.md") ∧
      ∃ d, (load s (Settings.labelled (some "cp866") {}) "talk.md").result = .ok d := by
  intro text s t
  have hmark : text.head? ≠ some '\uFEFF' := by simp [text]
  have hs : s.read "talk.md" = .ok [0x23, 0x20, 0x8C, 0xA8, 0xE0, 0x21, 0x0A] := by cbv
  have ht : t.read "talk.md" = .ok (Utf8.encode text) := by cbv
  have hplace : s.locate "talk.md" = .ok ["w", "talk.md"] := by cbv
  have hlabel : (Settings.labelled (some "cp866") {}).encoding.mapM Encoding.resolve =
      .ok (some ibm866) := by
    simp only [Settings.labelled, Option.mapM_some, resolve_cp866]
    rfl
  exact ⟨load_of_encode?.1 text hmark, load_of_encode?.2 "cp866" ibm866 text _ resolve_cp866
    encode?_ibm866 rfl s t _ "talk.md" (agreeExceptAt_talkStore _ _) hplace hs ht {},
    _, load_of_read (by cbv) hlabel rfl hs⟩

end Deck

end Slideshow
