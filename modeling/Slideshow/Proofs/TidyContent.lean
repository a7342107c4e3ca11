import Slideshow.Proofs.NodeReading
import Slideshow.Proofs.TidyPasses

/-!
# Tidy content stays tidy

The standard passes edit tidy content without reading its nesting. They leave it tidy if paragraphs do
not nest, paragraphs of QR codes hold text without quotes, image tags have their address where it is
looked for, and the line of each language mark is tidy.
-/
namespace Slideshow.Forest
open Text Markup Fragment Pass

/-! ## What the nodes of a forest promise -/

def Node.isParagraph : Node → Bool
  | .element name _ _ => name = "p"
  | _ => false

/-- What the links below the directory of the document need of an image tag. -/
def HoldsLinks (origin : Origin) (inside : Text) : Prop :=
  ∀ directory ∈ origin.directory?, HoldsAddress (fun i => (i.linked directory).address) inside

/-- A paragraph holds no other, and only text without double quotes if it starts like a QR code. The
address in an image tag is the value of an attribute, and no double quote is in its link. -/
def Node.IsClear (origin : Origin) : Node → Prop
  | .void name attributes => name = "img" → HoldsLinks origin attributes
  | .element name attributes children => name = "p" →
    (∀ n ∈ Forest.preorder children, n.isParagraph = false) ∧
      (attributes = [] → ∀ x, Forest.html children = ".qr:" ++ x → '"' ∉ x ∧ '<' ∉ x)
  | _ => True

section Clear
variable {origin : Origin}

mutual

private theorem runs_proper_node (names : List Text) : (n : Node) → n.IsTidy →
    (∀ m ∈ n.preorder, m.IsClear origin) →
    (("p" : Text) ∈ names → ∀ m ∈ n.preorder, m.isParagraph = false) →
    Runs (proper (HoldsLinks origin)) names n.html names
  | .text content, h, _, _ => .letters h.1 h.2
  | .comment _, h, _, _ => h.elim
  | .void name attributes, ⟨htag, hv⟩, hclear, _ => by
    have hname : name ≠ "p" := by
      rintro rfl
      exact absurd hv (of_decide_eq_true (by cbv))
    have himage : (Node.void name attributes).IsClear origin := hclear _ (by simp [Node.preorder])
    have hmoves := @Moves.opened (proper (HoldsLinks origin)) names _ _ htag
      ⟨fun he => absurd he hname, himage⟩
    rw [push, if_pos hv] at hmoves
    exact .of_moves hmoves
  | .element name attributes children, ⟨htag, hv, hchildren⟩, hclear, hnames => by
    have hself : (Node.element name attributes children).IsClear origin :=
      hclear _ (by simp [Node.preorder])
    have himage : name ≠ "img" := by
      rintro rfl
      exact hv (of_decide_eq_true (by cbv))
    have hmoves := @Moves.opened (proper (HoldsLinks origin)) names _ _ htag
      ⟨fun he hmem => by
        simpa [Node.isParagraph, he] using hnames hmem (.element name attributes children) (by
          simp [Node.preorder]), fun he => absurd he himage⟩
    rw [push, if_neg hv] at hmoves
    have hinside := runs_proper (name :: names) children hchildren
      (fun m hm => hclear m (by simp [Node.preorder, hm])) fun hmem m hm => by
        rcases List.mem_cons.1 hmem with hname | hmem
        · exact (hself hname.symm).1 m hm
        · exact hnames hmem m (by simp [Node.preorder, hm])
    exact .cons hmoves (hinside.append (.of_moves (.closed htag.isName_name)))

theorem runs_proper (names : List Text) : (ns : List Node) → AreTidy ns →
    (∀ m ∈ preorder ns, m.IsClear origin) →
    (("p" : Text) ∈ names → ∀ m ∈ preorder ns, m.isParagraph = false) →
    Runs (proper (HoldsLinks origin)) names (html ns) names
  | [], _, _, _ => .nil
  | n :: ns, h, hclear, hnames =>
    (runs_proper_node names n h.1 (fun m hm => hclear m (by simp [preorder, hm]))
      fun hmem m hm => hnames hmem m (by simp [preorder, hm])).append
    (runs_proper names ns h.2 (fun m hm => hclear m (by simp [preorder, hm]))
      fun hmem m hm => hnames hmem m (by simp [preorder, hm]))

end

/-- A paragraph in front of whatever follows. -/
theorem isPlainChart_paragraph {children : List Node}
    (h : ∀ x, html children = ".qr:" ++ x → '"' ∉ x ∧ '<' ∉ x) (tail : Text) :
    IsPlainChart (opened "p" [] ++ (html children ++ (closed "p" ++ tail))) := by
  intro x rest he hx
  have hfront : '<' ∉ (".qr:" ++ x : Text) := by simp [hx]
  have hinside : html children ++ '<' :: ("/p>" ++ tail) = ".qr:" ++ x ++ '<' :: rest := by
    simpa [opened, closed] using he
  by_cases hopen : '<' ∈ html children
  · obtain ⟨w, v, hchildren, hw⟩ := List.eq_append_cons_of_mem hopen
    rw [hchildren, List.append_assoc, List.cons_append] at hinside
    obtain ⟨rfl, -, -⟩ := append_cons_inj hw hfront hinside
    exact absurd (by simp) (h (x ++ '<' :: v) (by rw [hchildren, List.append_assoc])).2
  · obtain ⟨hchildren, -, rfl⟩ := append_cons_inj hopen hfront hinside
    exact ⟨(h x hchildren).1, tail, rfl⟩

theorem atBrackets_isPlainChart {s : Text} (h : AtBrackets (dropAffix? "<p>" · = none) s) :
    AtBrackets IsPlainChart s :=
  fun before after he tail => isPlainChart_of_dropAffix? (h before after he tail)

mutual

private theorem atBrackets_node : (n : Node) → n.IsTidy → (∀ m ∈ n.preorder, m.IsClear origin) →
    AtBrackets IsPlainChart n.html
  | .text content, h, _ => .of_not_mem h.1
  | .comment _, h, _ => h.elim
  | .void name attributes, ⟨htag, hv⟩, _ => by
    refine atBrackets_isPlainChart (atBrackets_opened htag ?_)
    rintro ⟨rfl, -⟩
    exact absurd hv (of_decide_eq_true (by cbv))
  | .element name attributes children, ⟨htag, hv, hchildren⟩, hclear => by
    have hself : (Node.element name attributes children).IsClear origin :=
      hclear _ (by simp [Node.preorder])
    have hinside := (atBrackets_html children hchildren fun m hm =>
      hclear m (by simp [Node.preorder, hm])).append
        (atBrackets_isPlainChart (atBrackets_closed htag.isName_name))
    by_cases hbare : name = "p" ∧ attributes = []
    · obtain ⟨rfl, rfl⟩ := hbare
      have hhtml : (Node.element "p" [] children).html =
          '<' :: ("p>" ++ (html children ++ closed "p")) := by simp [Node.html, opened]
      rw [hhtml]
      refine .bracket (.append (.of_not_mem (by simp)) hinside) fun tail => ?_
      have hchart := isPlainChart_paragraph ((hself rfl).2 rfl) tail
      simpa [opened] using hchart
    · exact (atBrackets_isPlainChart (atBrackets_opened htag hbare)).append hinside

theorem atBrackets_html : (ns : List Node) → AreTidy ns → (∀ m ∈ preorder ns, m.IsClear origin) →
    AtBrackets IsPlainChart (html ns)
  | [], _, _ => .of_not_mem (by simp [html])
  | n :: ns, h, hclear => (atBrackets_node n h.1 fun m hm => hclear m (by simp [preorder, hm])).append
    (atBrackets_html ns h.2 fun m hm => hclear m (by simp [preorder, hm]))

end

theorem isProper_html {ns : List Node} (h : AreTidy ns) (hclear : ∀ n ∈ preorder ns, n.IsClear origin) :
    IsProper (HoldsLinks origin) (html ns) where
  runs := runs_proper [] ns h hclear (by simp)
  charts before after he := by
    simpa using atBrackets_html ns h hclear before after he []

end Clear

/-! ## The passes one after the other -/

section Run
variable {P : Text → Prop} {content : Text} (origin : Origin)

theorem exists_tidy_code (h : IsProper P content)
    (hmarks : ∀ m ∈ LanguageMark.pattern.parts content, IsTidy m.remark) :
    ∃ passed, code.run origin content = pure passed ∧ IsProper P passed.content := by
  have hreplace := h.replace startsWith_languageMark (by simp [dropAffix?]) (fun _ => id) keepsTidy_code
    hmarks
  simp only [code]
  split
  · exact ⟨_, rfl, hreplace⟩
  · exact ⟨_, rfl, h⟩

theorem Image.not_mem_linked (directory : Text) (i : Image) (hopen : '<' ∉ i.address)
    (hclose : '>' ∉ i.address) :
    '<' ∉ (i.linked directory).address ∧ '>' ∉ (i.linked directory).address := by
  rcases Image.address_linked directory i with ⟨-, haddress⟩ | hurl
  · exact ⟨haddress ▸ hopen, haddress ▸ hclose⟩
  · exact ⟨hurl.bracket_not_mem (.inl rfl), hurl.bracket_not_mem (.inr rfl)⟩

theorem exists_tidy_linkImages (h : IsProper (HoldsLinks origin) content) :
    ∃ passed, (linkImages false).run origin content = pure passed ∧
      IsProper (fun _ => True) passed.content := by
  cases hdirectory : origin.directory? with
  | none =>
    have hrun : (linkImages false).run origin content = pure ⟨content, []⟩ := by
      simp [linkImages, hdirectory]
    exact ⟨_, hrun, h.mono fun _ _ => trivial⟩
  | some directory =>
    have hrun : (linkImages false).run origin content =
        pure ⟨Image.pattern.replace (fun i => (i.linked directory).spell) content, []⟩ := by
      simp [linkImages, hdirectory]
    have hholds := h.mono fun inside hlinks => hlinks directory hdirectory
    refine ⟨_, hrun, ?_⟩
    dsimp only
    rw [Image.spell_linked]
    exact hholds.replace startsWith_image (by simp [dropAffix?]) (fun _ _ => trivial)
      (keepsTidy_images (Image.not_mem_linked directory)) fun _ _ => trivial

theorem exists_tidy_effects (h : IsProper P content) :
    ∃ passed, effects.run origin content = pure passed ∧ IsProper P passed.content :=
  ⟨_, rfl, h.replace handles_effects.startsWith (by simp [dropAffix?]) (fun _ => id)
    keepsTidy_effects fun _ _ => trivial⟩

theorem exists_tidy_notes (h : IsProper P content) :
    ∃ passed, notes.run origin content = pure passed ∧ IsProper P passed.content :=
  ⟨_, rfl, h.replace handles_notes.startsWith (by simp [dropAffix?]) (fun _ => id)
    keepsTidy_notes fun _ _ => trivial⟩

/-- What a QR code stands for is the whole text of its paragraph. -/
theorem data_of_mem_parts (h : HasPlainCharts content) {q : QrCode}
    (hq : q ∈ QrCode.pattern.parts content) :
    '<' ∉ q.data ∧ '"' ∉ q.data := by
  obtain ⟨before, after, rest, rfl, hread⟩ := QrCode.pattern.exists_read?_of_mem_parts hq
  obtain ⟨⟨t, hgap⟩, hdata⟩ := QrCode.of_read? hread
  have hsize := not_mem_of_isAddressChar (size_of_read? hread)
  have hfront : '<' ∉ q.gap ++ q.size ++ "|" := by simp [hgap, bracket_not_mem_gap, hsize]
  have hafter : after = '<' :: ("p>.qr:" ++ (q.gap ++ q.size ++ "|" ++
      (q.data ++ '<' :: ("/p>" ++ rest)))) := by
    simpa [QrCode.pattern, QrCode.spell] using QrCode.pattern.eq_append_of_read? hread
  subst hafter
  have hchart := h before _ rfl
  by_cases hopen : '<' ∈ q.data
  · obtain ⟨front, inside, hq, hfirst⟩ := List.eq_append_cons_of_mem hopen
    obtain ⟨-, more, hmore⟩ := hchart (q.gap ++ q.size ++ "|" ++ front)
      (inside ++ '<' :: ("/p>" ++ rest)) (by simp [hq]) (by simp_all)
    obtain ⟨more, rfl⟩ := exists_append_of_not_mem (by simp) hmore
    have hyes : Text.occursIn "</p>" q.data := occursIn_iff.2 ⟨front, more, by simp [hq]⟩
    exact absurd (hdata.symm.trans hyes) (by decide)
  · obtain ⟨hquote, -⟩ := hchart (q.gap ++ q.size ++ "|" ++ q.data) ("/p>" ++ rest) (by simp) (by
      simpa [hopen] using hfront)
    exact ⟨hopen, fun hmem => hquote (by simp [hmem])⟩

theorem exists_tidy_qrCodes (h : IsProper P content) :
    ∃ passed, qrCodes.run origin content = pure passed ∧ IsTidy passed.content :=
  ⟨_, rfl, (h.replace startsWith_qrCode (by simp [dropAffix?]) (fun _ _ => trivial) keepsTidy_qrCodes
    fun _ hq => data_of_mem_parts h.charts hq).runs.isTidy⟩

end Run

end Slideshow.Forest

namespace Slideshow
open Text Markup Forest Pass

/-- A pass that makes something of its content, in front of passes that make tidy content of it. -/
theorem exists_foldlM_cons {origin : Origin} {pass : Pass} {passes : List Pass} {content : Text}
    {I : Text → Prop} (hpass : ∃ passed, pass.run origin content = pure passed ∧ I passed.content)
    (hpasses : ∀ content aside, I content → ∃ passed,
      passes.foldlM (Pipeline.step origin) ⟨content, aside⟩ = pure passed ∧ IsTidy passed.content)
    (aside : List Text) : ∃ passed,
      (pass :: passes).foldlM (Pipeline.step origin) ⟨content, aside⟩ = pure passed ∧
        IsTidy passed.content := by
  obtain ⟨after, hrun, h⟩ := hpass
  rw [@Pipeline.foldlM_step_of_run _ _ ⟨content, aside⟩ _ hrun]
  exact hpasses after.content (aside ++ after.sideData) h

/-- With images linked and no files embedded, the standard passes make tidy content of tidy content.
A language mark has to end its line inside its block, and what the links and the QR codes write into
attributes must not close them. -/
theorem isTidy_of_process {settings : Settings} (hembed : settings.embed = false)
    (hrelative : settings.relative = false) (origin : Origin) {ns : List Node} (htidy : AreTidy ns)
    (hclear : ∀ n ∈ preorder ns, n.IsClear origin)
    (hmarks : ∀ m ∈ LanguageMark.pattern.parts (html ns), IsTidy m.remark) :
    ∃ passed, (Pipeline.standard settings).process origin (html ns) = pure passed ∧
      IsTidy passed.content := by
  rw [Pipeline.process, Pipeline.passes_standard, hembed, hrelative]
  refine exists_foldlM_cons (exists_tidy_code origin (isProper_html htidy hclear) hmarks)
    (fun c _ h => ?_) []
  refine exists_foldlM_cons ⟨⟨c, []⟩, rfl, h⟩ (fun _ _ h => ?_) _
  refine exists_foldlM_cons (exists_tidy_linkImages origin h) (fun _ _ h => ?_) _
  refine exists_foldlM_cons (exists_tidy_effects origin h) (fun _ _ h => ?_) _
  refine exists_foldlM_cons (exists_tidy_notes origin h) (fun _ _ h => ?_) _
  exact exists_foldlM_cons (exists_tidy_qrCodes origin h) (fun c aside h => ⟨⟨c, aside⟩, rfl, h⟩) _

/-! ## A tidy deck -/

def pictureAttributes : List Attribute := [⟨" ", "alt", "A"⟩, ⟨" ", "src", "dot.png"⟩]

def pictureInside : Text := pictureAttributes.flatMap Attribute.spell ++ " " ++ "/"

/-- A block of code, an image, and a paragraph for each directive. -/
def tidyTalk : List Node :=
  [.element "pre" [] [.element "code" [] [.text "!rust\nlet a = 1;\n"]],
    .element "p" [] [.void "img" pictureInside],
    .element "p" [] [.text ".fx: wide"],
    .element "p" [] [.text ".notes: say ", .element "em" [] [.text "this"]],
    .element "p" [] [.text ".qr: 90|abc"]]

theorem isTidyTag_picture : IsTidyTag "img" pictureInside := by
  have halt := @Attribute.IsTidy.spaced "alt" "A" (by cbv) (by simp)
  have hsource := @Attribute.IsTidy.spaced "src" "dot.png" (by cbv) (by simp)
  have htidy : ∀ a ∈ pictureAttributes, a.IsTidy := by
    intro a ha
    rcases List.mem_cons.1 ha with rfl | ha
    · exact halt
    · exact List.mem_singleton.1 ha ▸ hsource
  have hspace : ∀ c ∈ (" " : Text), isBlank c := by simpa using show isBlank ' ' = true by decide
  exact isTidyTag_image (.of_forall htidy hspace) (.inr rfl)

theorem isTidy_text (content : Text) : (Node.text content).IsTidy ↔ '<' ∉ content ∧ '>' ∉ content := .rfl

theorem isTidy_bare {name : Text} (h : isName name && smallName name ∉ Fragment.voidElements)
    (children : List Node) : (Node.element name [] children).IsTidy ↔ AreTidy children := by
  simp only [Bool.and_eq_true, decide_eq_true_eq] at h
  exact ⟨fun ⟨_, _, hchildren⟩ => hchildren, fun hchildren => ⟨.of_attributes h.1 .nil, h.2, hchildren⟩⟩

theorem areTidy_tidyTalk : AreTidy tidyTalk := by
  have hp := @isTidy_bare "p" (by cbv)
  have hpre := @isTidy_bare "pre" (by cbv)
  have hcode := @isTidy_bare "code" (by cbv)
  have hem := @isTidy_bare "em" (by cbv)
  have himage : (Node.void "img" pictureInside).IsTidy := ⟨isTidyTag_picture, of_decide_eq_true (by cbv)⟩
  simp only [tidyTalk, AreTidy, hp, hpre, hcode, hem, himage, isTidy_text]
  simp

theorem holdsLinks_picture : HoldsLinks (illustrated "dot.png") pictureInside := by
  have hdirectory : (illustrated "dot.png").directory? = some ("/deck" : Text) := by cbv
  have hcut : cutAtAddress? 'g' pictureInside =
      some ((" alt=\"A\" " : Text), ("dot.png\" /" : Text)) := by cbv
  have haddress : ("dot.png\" /" : Text).takeWhile (· ≠ '"') = "dot.png" := by cbv
  have hlinked : (Image.linked "/deck" ⟨" alt=\"A\" ", "dot.png"⟩).address = "file:///deck/dot.png" := by
    cbv
  have hquotes : (" alt=\"A\" " : Text).count '"' = 2 := by cbv
  intro directory hmem opening rest hopening
  rw [hdirectory, Option.mem_some_iff] at hmem
  obtain ⟨rfl, rfl⟩ := Prod.mk.inj (Option.some.inj (hcut.symm.trans hopening))
  dsimp only
  rw [haddress, ← hmem, hlinked, hquotes]
  exact ⟨even_two, by simp⟩

theorem isClear_tidyTalk : ∀ n ∈ preorder tidyTalk, n.IsClear (illustrated "dot.png") := by
  have hlinks := holdsLinks_picture
  simpa [tidyTalk, preorder, Node.preorder, Node.IsClear, Node.isParagraph, html, Node.html, opened]
    using hlinks

theorem isTidy_of_process_tidyTalk :
    AreTidy tidyTalk ∧ (∀ n ∈ preorder tidyTalk, n.IsClear (illustrated "dot.png")) ∧
      LanguageMark.pattern.parts (html tidyTalk) = [⟨[], "rust", []⟩] ∧ ∃ passed,
        (Pipeline.standard {}).process (illustrated "dot.png") (html tidyTalk) = pure passed ∧
          IsTidy passed.content := by
  have hparts : LanguageMark.pattern.parts (html tidyTalk) = [⟨[], "rust", []⟩] := by
    rw [Pattern.parts, Pattern.split_eq_splitWithin _ 240 (by cbv)]
    cbv
  refine ⟨areTidy_tidyTalk, isClear_tidyTalk, hparts, ?_⟩
  refine isTidy_of_process rfl rfl _ areTidy_tidyTalk isClear_tidyTalk fun m hm => ?_
  obtain rfl : m = ⟨[], "rust", []⟩ := by simpa [hparts] using hm
  exact ⟨[], trivial, rfl⟩

/-! ## Content that does not stay tidy -/

/-- A block of code in one line: the line of its language mark holds its close tags. -/
def oneLine : List Node := [.element "pre" [] [.element "code" [] [.text "!python"]], .text "\n"]

def oneLineMarked : Text := "<pre><code class=\"language-python\">"

theorem process_oneLine : (Pipeline.standard {}).process (illustrated "dot.png") (html oneLine) =
    pure ⟨oneLineMarked, ["has_code"]⟩ := by
  have hmark : LanguageMark.pattern.replace LanguageMark.html (html oneLine) = oneLineMarked := by
    rw [Pattern.replace, Pattern.split_eq_splitWithin _ 60 (by cbv)]
    cbv
  have hbefore : occursIn "<pre" (html oneLine) := by cbv
  have hafter : occursIn "<pre><code" oneLineMarked := by cbv
  have hrun : code.run (illustrated "dot.png") (html oneLine) = pure ⟨oneLineMarked, ["has_code"]⟩ := by
    simp only [code, hbefore, hmark, hafter, if_true]
  have hlink := run_linkImages_of_not_occursIn (show occursIn "<img" oneLineMarked = false by cbv)
    false (illustrated "dot.png")
  have hrest := run_behind_code hlink (show occursIn "<p>." oneLineMarked = false by cbv)
  rw [Pipeline.process, Pipeline.passes_standard, Pipeline.foldlM_step_of_run hrun]
  exact Pipeline.foldlM_step hrest

theorem not_isTidy_oneLineMarked : ¬IsTidy oneLineMarked := by
  have hcode : IsTidyTag "code" (" class=\"" ++ "language-python" ++ "\"") :=
    isTidyTag_code (areTidyAttributes_class (by decide +kernel))
  have hmarked : oneLineMarked = opened "pre" [] ++
      (opened "code" (" class=\"" ++ "language-python" ++ "\"") ++ []) := by cbv
  intro h
  rw [isTidy_iff, hmarked] at h
  have hnames := ((h.of_opened isTidyTag_pre).2.of_opened hcode).2.eq_of_nil
  have hopen : push (push [] "pre") "code" = [("code" : Text), "pre"] := by cbv
  exact absurd (hopen.symm.trans hnames) (List.cons_ne_nil _ _)

/-- Markup in the data of a QR code. -/
def emphasizedChart : List Node := [.element "p" [] [.text ".qr: |", .element "em" [] [.text "a"]]]

/-- The image of the QR code up to the data in its second attribute. -/
def chartFront : Text := "<img src=\"" ++ QrCode.chart ⟨[], [], "<em>a</em>"⟩ ++ "\" alt=\""

def chartShown : Text := "<p class=\"qr\">" ++ chartFront ++ "<em>a</em>\" /></p>"

theorem process_emphasizedChart : (Pipeline.standard {}).process (illustrated "dot.png")
    (html emphasizedChart) = pure ⟨chartShown, ["has_qr"]⟩ := by
  have hsplit : QrCode.pattern.split (html emphasizedChart) = [.inr ⟨" ", [], "<em>a</em>"⟩] := by
    rw [Pattern.split_eq_splitWithin _ 60 (by cbv)]
    cbv
  have hpre : occursIn "<pre" (html emphasizedChart) = false := by cbv
  have hcode := run_code_of_not_occursIn hpre (illustrated "dot.png")
  have hembed : (embedImages false).run (illustrated "dot.png") (html emphasizedChart) =
      pure ⟨html emphasizedChart, []⟩ := rfl
  have himage : occursIn "<img" (html emphasizedChart) = false := by cbv
  have hlink := run_linkImages_of_not_occursIn himage false (illustrated "dot.png")
  have heffects : effects.run (illustrated "dot.png") (html emphasizedChart) =
      pure ⟨html emphasizedChart, []⟩ := by
    have hparts : effectsPattern.parts (html emphasizedChart) = [] := by
      rw [Pattern.parts, Pattern.split_eq_splitWithin _ 60 (by cbv)]
      cbv
    simp [effects, hparts, Pattern.replace_of_parts_eq_nil]
  have hnotes : Pass.notes.run (illustrated "dot.png") (html emphasizedChart) =
      pure ⟨html emphasizedChart, []⟩ := by
    have hparts : notesPattern.parts (html emphasizedChart) = [] := by
      rw [Pattern.parts, Pattern.split_eq_splitWithin _ 60 (by cbv)]
      cbv
    simp [Pass.notes, hparts, Pattern.replace_of_parts_eq_nil, Pattern.occursIn]
  have hchart : qrCodes.run (illustrated "dot.png") (html emphasizedChart) =
      pure ⟨chartShown, ["has_qr"]⟩ := by
    simp only [qrCodes, Pattern.replace, Pattern.occursIn, Pattern.parts, hsplit]
    cbv
  rw [Pipeline.process, Pipeline.passes_standard, Pipeline.foldlM_step_of_run hcode,
    Pipeline.foldlM_step_of_run hembed, Pipeline.foldlM_step_of_run hlink,
    Pipeline.foldlM_step_of_run heffects, Pipeline.foldlM_step_of_run hnotes,
    Pipeline.foldlM_step_of_run hchart]
  rfl

theorem not_isTidy_chartShown : ¬IsTidy chartShown := by
  have hparagraph : IsTidyTag "p" (" class=\"" ++ "qr" ++ "\"") :=
    isTidyTag_paragraph (areTidyAttributes_class (by decide +kernel))
  have hshown : chartShown = opened "p" (" class=\"" ++ "qr" ++ "\"") ++
      (chartFront ++ '<' :: "em>a</em>\" /></p>") := by
    simp [chartShown, opened]
  obtain ⟨s, hs⟩ : ∃ s, chartFront = '<' :: 'i' :: s := ⟨_, by simp [chartFront]; rfl⟩
  intro h
  rw [isTidy_iff, hshown] at h
  -- the image tag is not closed in front of the markup
  obtain ⟨step, hfront, -⟩ := (h.of_opened hparagraph).2.exists_at_bracket
  obtain ⟨name, inside, rest, he, -⟩ := (hs ▸ hfront).exists_opened (by decide)
  have hclose : '>' ∉ chartFront := by decide +kernel
  exact hclose (hs ▸ he.symm ▸ by simp [opened])

/-- The passes take close tags without their open tags, and they put markup into attributes. -/
theorem process_leaves_untidy :
    (AreTidy oneLine ∧ (Pipeline.standard {}).process (illustrated "dot.png") (html oneLine) =
        pure ⟨oneLineMarked, ["has_code"]⟩ ∧ ¬IsTidy oneLineMarked) ∧
      (AreTidy emphasizedChart ∧
        (Pipeline.standard {}).process (illustrated "dot.png") (html emphasizedChart) =
          pure ⟨chartShown, ["has_qr"]⟩ ∧ ¬IsTidy chartShown) := by
  have hp := @isTidy_bare "p" (by cbv)
  have hpre := @isTidy_bare "pre" (by cbv)
  have hcode := @isTidy_bare "code" (by cbv)
  have hem := @isTidy_bare "em" (by cbv)
  refine ⟨⟨?_, process_oneLine, not_isTidy_oneLineMarked⟩,
    ⟨?_, process_emphasizedChart, not_isTidy_chartShown⟩⟩
  · simp only [oneLine, AreTidy, hpre, hcode, isTidy_text]
    simp
  · simp only [emphasizedChart, AreTidy, hp, hem, isTidy_text]
    simp

end Slideshow
