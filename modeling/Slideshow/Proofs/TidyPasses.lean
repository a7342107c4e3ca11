import Slideshow.Proofs.ReadBackMarkup
import Slideshow.Proofs.RepeatedPasses
import Slideshow.Proofs.TidyParts

/-!
# The passes on tidy markup

What each pass puts in the place of its parts fits there: a language mark whose line is tidy, the
address of an image if it is an attribute value, notes and effects if paragraphs do not nest, and QR
codes that stand for text without markup and double quotes.
-/
namespace Slideshow
open Text Markup Forest Fragment Pass

section Passes
variable {P : Text → Prop}

/-! ## Code blocks -/

theorem areTidyAttributes_class {value : Text} (h : '"' ∉ value ∧ '<' ∉ value ∧ '>' ∉ value) :
    AreTidyAttributes (" class=\"" ++ value ++ "\"") := by
  have hclass : ∀ a ∈ [(⟨" ", "class", value⟩ : Attribute)], a.IsTidy :=
    List.forall_mem_singleton.2 (.spaced (by cbv) h)
  simpa [Attribute.spell] using @AreTidyAttributes.of_forall _ hclass [] (by simp)

theorem bracket_not_mem_gap (s : Text) : '<' ∉ gap s :=
  fun h => absurd (List.mem_takeWhile_imp h) (by decide)

theorem LanguageMark.gap_of_read? {s rest : Text} {m : LanguageMark}
    (h : LanguageMark.pattern.read? s = some (m, rest)) : ∃ t, m.gap = Pass.gap t := by
  simp only [LanguageMark.pattern, Option.bind_eq_bind, Option.bind_eq_some_iff] at h
  obtain ⟨t, -, u, -, h⟩ := h
  split at h
  · simp at h
  simp only [Option.bind_eq_some_iff] at h
  obtain ⟨r, -, h⟩ := h
  obtain ⟨rfl, -⟩ := Prod.mk.inj (Option.some.inj h)
  exact ⟨t, rfl⟩

theorem isTidyTag_pre : IsTidyTag "pre" [] := .of_attributes (by cbv) .nil

theorem isTidyTag_code {attributes : Text} (h : AreTidyAttributes attributes) :
    IsTidyTag "code" attributes := .of_attributes (by cbv) h

/-- A language mark vanishes with the rest of its line. -/
theorem keepsTidy_code :
    KeepsTidy P P LanguageMark.pattern LanguageMark.html fun m => IsTidy m.remark := by
  intro m rest names behind hremark hread h
  have hspell : LanguageMark.pattern.spell m ++ rest = opened "pre" [] ++ (opened "code" [] ++
      (m.gap ++ "!" ++ m.language ++ (m.remark ++ ("\n" ++ rest)))) := by
    simp [LanguageMark.pattern, LanguageMark.spell, opened]
  have hlanguage : ∀ {c}, isLanguageChar c = false → c ∉ m.language := fun {c} hc hmem => by
    simp [language_of_read? hread c hmem] at hc
  obtain ⟨t, hgap⟩ := LanguageMark.gap_of_read? hread
  have hfront : '<' ∉ m.gap ++ "!" ++ m.language := by
    simp [hgap, bracket_not_mem_gap, @hlanguage '<' (by decide)]
  rw [hspell] at h
  have hinside := ((h.of_opened isTidyTag_pre).2.of_opened (isTidyTag_code .nil)).2
  have hbehind := (hremark.runs _).of_append (hinside.of_letters hfront).2
  have hclass : AreTidyAttributes (" class=\"" ++ ("language-" ++ m.language) ++ "\"") :=
    areTidyAttributes_class (by
      simp [@hlanguage '"' (by decide), @hlanguage '<' (by decide), @hlanguage '>' (by decide)])
  have hhtml : m.html ++ [] =
      opened "pre" [] ++ opened "code" (" class=\"" ++ ("language-" ++ m.language) ++ "\"") := by
    simp [LanguageMark.html, opened]
  refine ⟨[], rest, _, rfl, (hbehind.of_letters (by simp)).2, by simp, ?runs, ?plain, ?head⟩
  case runs =>
    rw [hhtml]
    exact .cons (.opened isTidyTag_pre ⟨by simp, by simp⟩)
      (.of_moves (.opened (isTidyTag_code hclass) ⟨by simp, by simp⟩))
  case plain =>
    rw [hhtml]
    exact (atBrackets_opened isTidyTag_pre (by simp)).append
      (atBrackets_opened (isTidyTag_code hclass) (by simp))
  case head => simp [LanguageMark.html]

/-! ## Directives -/

theorem Directive.of_read? {keyword : Text} {multiline lineBreak : Bool} {s rest : Text} {d : Directive}
    (h : (Directive.pattern keyword multiline lineBreak).read? s = some (d, rest)) :
    (∃ t, d.gap = Pass.gap t) ∧ Text.occursIn "</p>" d.text = false ∧ '<' ∉ d.ending := by
  simp only [Directive.pattern, body?, Option.bind_eq_bind, Option.bind_eq_some_iff,
    Option.filter_eq_some_iff] at h
  obtain ⟨t, -, ⟨text, after⟩, ⟨hcut, -⟩, h⟩ := h
  have htext := occursIn_of_cutAt? (by simp) hcut
  split at h
  · split at h
    · obtain ⟨rfl, -⟩ := Prod.mk.inj (Option.some.inj h)
      exact ⟨⟨t, rfl⟩, htext, by simp⟩
    · obtain ⟨rfl, -⟩ := Prod.mk.inj (Option.some.inj h)
      exact ⟨⟨t, rfl⟩, htext, by simp⟩
  · obtain ⟨rfl, -⟩ := Prod.mk.inj (Option.some.inj h)
    exact ⟨⟨t, rfl⟩, htext, by simp⟩

/-- A directive is a whole paragraph. -/
theorem Directive.runs_of_read? {keyword : Text} (hkeyword : '<' ∉ keyword) {multiline lineBreak : Bool}
    {d : Directive} {rest : Text} {names behind : List Text}
    (hread : (Directive.pattern keyword multiline lineBreak).read? (d.spell keyword ++ rest) =
      some (d, rest)) (h : Runs (proper P) names (d.spell keyword ++ rest) behind) :
    ("p" : Text) ∉ names ∧ Runs (proper P) (("p" : Text) :: names) d.text (("p" : Text) :: names) ∧
      Runs (proper P) names rest behind ∧ AtBrackets (dropAffix? "<p>" · = none) d.text := by
  have hspell : d.spell keyword ++ rest = opened "p" [] ++ ("." ++ keyword ++ ":" ++ d.gap ++
      (d.text ++ (closed "p" ++ (d.ending ++ rest)))) := by
    simp [Directive.spell, opened, closed]
  obtain ⟨⟨t, hgap⟩, htext, hending⟩ := Directive.of_read? hread
  have hfront : '<' ∉ "." ++ keyword ++ ":" ++ d.gap := by
    simp [hgap, bracket_not_mem_gap, hkeyword]
  rw [hspell] at h
  obtain ⟨⟨hnames, -⟩, hinside⟩ := h.of_opened (isTidyTag_paragraph .nil)
  rw [push_paragraph] at hinside
  obtain ⟨hruns, hrest, hplain⟩ := runs_of_paragraph (hinside.of_letters hfront).2 htext
  exact ⟨hnames rfl, hruns, (hrest.of_letters hending).2, hplain⟩

theorem keepsTidy_effects : KeepsTidy P P effectsPattern (fun _ => []) fun _ => True := by
  intro d rest names behind _ hread h
  obtain ⟨hnames, -, hrest, -⟩ := Directive.runs_of_read? (by simp) hread h
  exact ⟨[], rest, names, rfl, hrest, by simp, .nil, .of_not_mem (by simp), fun hp => absurd hp hnames⟩

theorem keepsTidy_notes :
    KeepsTidy P P notesPattern (fun d => "<p class=\"notes\">" ++ d.text ++ "</p>") fun _ => True := by
  intro d rest names behind _ hread h
  obtain ⟨hnames, htext, hrest, hplain⟩ := Directive.runs_of_read? (by simp) hread h
  have hclass : AreTidyAttributes (" class=\"" ++ "notes" ++ "\"") := areTidyAttributes_class (by simp)
  have hhtml : ("<p class=\"notes\">" ++ d.text ++ "</p>" : Text) ++ ([] : Text) =
      opened "p" (" class=\"" ++ "notes" ++ "\"") ++ (d.text ++ closed "p") := by
    simp [opened, closed]
  refine ⟨[], rest, names, rfl, hrest, by simp, ?runs, ?plain, ?head⟩
  case runs =>
    rw [hhtml]
    exact .cons (moves_paragraph hclass hnames) (htext.append (.of_moves moves_close))
  case plain =>
    rw [hhtml]
    exact (atBrackets_opened (isTidyTag_paragraph hclass) (by simp)).append
      (hplain.append (atBrackets_closed (by cbv)))
  case head => simp

/-! ## QR codes -/

theorem QrCode.of_read? {s rest : Text} {q : QrCode} (h : QrCode.pattern.read? s = some (q, rest)) :
    (∃ t, q.gap = Pass.gap t) ∧ Text.occursIn "</p>" q.data = false := by
  simp only [QrCode.pattern, body?, Option.bind_eq_bind, Option.bind_eq_some_iff,
    Option.filter_eq_some_iff] at h
  obtain ⟨t, -, u, -, v, ⟨hcut, -⟩, h⟩ := h
  have hdata := occursIn_of_cutAt? (by simp) hcut
  obtain ⟨rfl, -⟩ := Prod.mk.inj (Option.some.inj h)
  exact ⟨⟨t, rfl⟩, hdata⟩

theorem not_mem_of_isAddressChar {s : Text} (h : ∀ c ∈ s, isAddressChar c) :
    '"' ∉ s ∧ '<' ∉ s ∧ '>' ∉ s :=
  ⟨fun hc => absurd (h _ hc) (by decide), fun hc => absurd (h _ hc) (by decide),
    fun hc => absurd (h _ hc) (by decide)⟩

theorem QrCode.spell_append (q : QrCode) (rest : Text) : QrCode.pattern.spell q ++ rest =
    opened "p" [] ++ (".qr:" ++ q.gap ++ q.size ++ "|" ++ (q.data ++ (closed "p" ++ rest))) := by
  simp [QrCode.pattern, QrCode.spell, opened, closed]

theorem isTidyTag_image {attributes slash : Text} (h : AreTidyAttributes attributes)
    (hslash : slash = [] ∨ slash = "/") : IsTidyTag "img" (attributes ++ slash) :=
  ⟨by cbv, attributes, slash, h, hslash.imp_right fun he => ⟨he, of_decide_eq_true (by cbv)⟩, rfl⟩

theorem push_image (names : List Text) : push names "img" = names := if_pos (of_decide_eq_true (by cbv))

theorem moves_image {names : List Text} {inside : Text} (h : IsTidyTag "img" inside) :
    Moves (proper fun _ => True) names (opened "img" inside) names := by
  have hmoves := @Moves.opened (proper fun _ => True) names _ _ h ⟨by simp, fun _ => trivial⟩
  rwa [push_image] at hmoves

/-- The data of a QR code become an attribute as they are. -/
theorem keepsTidy_qrCodes :
    KeepsTidy P (fun _ => True) QrCode.pattern QrCode.html fun q => '<' ∉ q.data ∧ '"' ∉ q.data := by
  intro q rest names behind ⟨hopen, hquote⟩ hread h
  obtain ⟨⟨t, hgap⟩, -⟩ := QrCode.of_read? hread
  have hsize := not_mem_of_isAddressChar (size_of_read? hread)
  have hfront : '<' ∉ ".qr:" ++ q.gap ++ q.size ++ "|" := by
    simp [hgap, bracket_not_mem_gap, hsize]
  rw [QrCode.spell_append] at h
  obtain ⟨⟨hnames, -⟩, hinside⟩ := h.of_opened (isTidyTag_paragraph .nil)
  obtain ⟨hclose, hparagraph⟩ := (hinside.of_letters hfront).2.of_letters hopen
  rw [push_paragraph] at hparagraph
  obtain ⟨step, hstep, hrest⟩ := hparagraph.of_closed (by cbv)
  obtain rfl := (List.cons.inj hstep).2
  have hchart := not_mem_of_isAddressChar (QrCode.isAddressChar_of_mem_chart (size_of_read? hread))
  have hattributes : ∀ a ∈ [(⟨" ", "src", q.chart⟩ : Attribute), ⟨" ", "alt", q.data⟩], a.IsTidy := by
    rw [List.forall_mem_cons, List.forall_mem_singleton]
    exact ⟨.spaced (by cbv) hchart, .spaced (by cbv) ⟨hquote, hopen, hclose⟩⟩
  have hspace : ∀ c ∈ (" " : Text), isBlank c := List.all_eq_true.1 (by cbv)
  have himage := isTidyTag_image (.of_forall hattributes hspace) (.inr rfl)
  have hclass : AreTidyAttributes (" class=\"" ++ "qr" ++ "\"") := areTidyAttributes_class (by simp)
  have hhtml : q.html ++ [] = opened "p" (" class=\"" ++ "qr" ++ "\"") ++ (opened "img"
      ([(⟨" ", "src", q.chart⟩ : Attribute), ⟨" ", "alt", q.data⟩].flatMap Attribute.spell ++ " " ++ "/") ++
        closed "p") := by
    simp [QrCode.html_eq, Image.spell, Attribute.spell, opened, closed]
  refine ⟨[], rest, names, rfl, hrest, by simp, ?runs, ?plain, ?head⟩
  case runs =>
    rw [hhtml]
    exact .cons (moves_paragraph hclass (hnames rfl)) (.cons (moves_image himage) (.of_moves moves_close))
  case plain =>
    rw [hhtml]
    exact (atBrackets_opened (isTidyTag_paragraph hclass) (by simp)).append
      ((atBrackets_opened himage (by simp)).append (atBrackets_closed (by cbv)))
  case head => simp [QrCode.html]

/-! ## Images -/

/-- Where the quotes in front of an address are even, the address is the value of an attribute. Each
attribute in front of it has two of them. -/
theorem exists_attribute {as : List Attribute} (has : ∀ a ∈ as, a.IsTidy) {tail opening s t : Text}
    (htail : '"' ∉ tail) (hopening : '>' ∉ opening) (heven : Even (opening.count '"'))
    (h : as.flatMap Attribute.spell ++ (tail ++ '>' :: t) = opening ++ ("src=" ++ '"' :: s)) :
    ∃ before a after, as = before ++ a :: after ∧
      opening ++ "src=" = before.flatMap Attribute.spell ++ (a.gap ++ a.key ++ "=") ∧
      s = a.value ++ '"' :: (after.flatMap Attribute.spell ++ (tail ++ '>' :: t)) := by
  induction as generalizing opening with
  | nil =>
    rw [List.flatMap_nil, List.nil_append, ← List.append_assoc] at h
    obtain ⟨-, hmark, -⟩ := append_cons_inj htail (by simp [hopening]) h
    simp at hmark
  | cons a as ih =>
    obtain ⟨ha, has⟩ := List.forall_mem_cons.1 has
    have hspell : (a :: as).flatMap Attribute.spell ++ (tail ++ '>' :: t) = a.gap ++ a.key ++ "=" ++
        '"' :: (a.value ++ '"' :: (as.flatMap Attribute.spell ++ (tail ++ '>' :: t))) := by
      simp [Attribute.spell]
    rw [hspell] at h
    by_cases hquote : '"' ∈ opening
    · -- the attribute ends in front of the address
      obtain ⟨front, inside, rfl, hfirst⟩ := List.eq_append_cons_of_mem hquote
      rw [List.append_assoc front, List.cons_append] at h
      obtain ⟨rfl, -, h⟩ := append_cons_inj ha.quote_not_mem hfirst h
      rw [List.count_append, List.count_eq_zero_of_not_mem hfirst, zero_add, List.count_cons_self,
        Nat.even_add_one, Nat.not_even_iff_odd] at heven
      obtain ⟨value, opening, rfl, hsecond⟩ :=
        List.eq_append_cons_of_mem (List.count_pos_iff.1 heven.pos)
      rw [List.append_assoc value, List.cons_append] at h
      obtain ⟨rfl, -, h⟩ := append_cons_inj ha.value.1 hsecond h
      rw [List.count_append, List.count_eq_zero_of_not_mem hsecond, zero_add, List.count_cons_self,
        Nat.odd_add_one, Nat.not_odd_iff_even] at heven
      simp only [List.mem_append, List.mem_cons, not_or] at hopening
      obtain ⟨before, b, after, rfl, hkey, hvalue⟩ := ih has hopening.2.2.2.2 heven h
      refine ⟨a :: before, b, after, rfl, ?_, hvalue⟩
      rw [List.flatMap_cons, List.append_assoc a.spell, ← hkey]
      simp [Attribute.spell]
    · rw [← List.append_assoc opening] at h
      obtain ⟨hkey, -, hvalue⟩ := append_cons_inj ha.quote_not_mem (by simp [hquote]) h
      exact ⟨[], a, as, rfl, hkey.symm, hvalue.symm⟩

/-- The address in an image tag is an attribute value, and so is what a function makes of it. -/
def HoldsAddress (g : Image → Text) (inside : Text) : Prop :=
  ∀ opening rest, cutAtAddress? 'g' inside = some (opening, rest) →
    Even (opening.count '"') ∧ '"' ∉ g ⟨opening, rest.takeWhile (· ≠ '"')⟩

theorem Image.cut_of_read? {s rest : Text} {i : Image} (h : Image.pattern.read? s = some (i, rest)) :
    (∀ t, (i.opening ++ t).head?.any isWord = false) ∧
      ∀ t, cutAtAddress? 'g' (i.opening ++ "src=\"" ++ t) = some (i.opening, t) := by
  simp only [Image.pattern, Option.bind_eq_bind, Option.bind_eq_some_iff, dropAffix?_eq_some_iff] at h
  obtain ⟨u, rfl, h⟩ := h
  split at h
  · simp at h
  next hhead =>
  simp only [Option.bind_eq_some_iff, dropAffix?_eq_some_iff] at h
  obtain ⟨⟨opening, v⟩, hcut, r, -, h⟩ := h
  obtain ⟨rfl, -⟩ := Prod.mk.inj (Option.some.inj h)
  refine ⟨fun t => ?_, (cutAtAddress?_opening hcut).2⟩
  rw [eq_append_of_cutAtAddress? hcut] at hhead
  cases opening with
  | nil => exact absurd (show isWord 's' by decide) (by simpa using hhead)
  | cons c opening => simpa using hhead

/-- An image tag with another value in the place of its address. -/
theorem exists_readdressed {g : Image → Text} {s rest inside t : Text} {i : Image}
    (htag : IsTidyTag "img" inside) (hholds : HoldsAddress g inside)
    (hg : '<' ∉ i.address → '>' ∉ i.address → '<' ∉ g i ∧ '>' ∉ g i)
    (hread : Image.pattern.read? s = some (i, rest))
    (h : inside ++ '>' :: t = i.opening ++ ("src=" ++ '"' :: (i.address ++ '"' :: rest))) :
    ∃ more inside', rest = more ++ t ∧ '<' ∉ more ∧ IsTidyTag "img" inside' ∧
      i.readdressed g ++ more = opened "img" inside' := by
  obtain ⟨hopening, haddress, -⟩ := Image.of_read? hread
  obtain ⟨attributes, slash, ⟨as, gap, has, hgap, rfl⟩, hslash, rfl⟩ := htag.inside
  have hslash : slash = [] ∨ slash = "/" := hslash.imp_right And.left
  have hblank : ∀ {c}, isBlank c = false → c ∉ gap := fun {c} hc hmem => by simp [hgap c hmem] at hc
  have htail : '"' ∉ gap ++ slash ∧ '<' ∉ gap ++ slash := by
    rcases hslash with rfl | rfl <;> simp [@hblank '"' (by decide), @hblank '<' (by decide)]
  have hstart : as.flatMap Attribute.spell ++ gap ++ slash ++ '>' :: t =
      i.opening ++ "src=\"" ++ (i.address ++ '"' :: rest) := by simpa using h
  obtain ⟨m, hm⟩ := exists_append_of_not_mem (by simp [hopening]) hstart
  obtain ⟨heven, hquote⟩ := hholds i.opening m (by rw [hm]; exact (Image.cut_of_read? hread).2 m)
  obtain ⟨before, a, after, rfl, hkey, hvalue⟩ :=
    exists_attribute has htail.1 hopening heven (by simpa using h)
  simp only [List.forall_mem_append, List.forall_mem_cons] at has
  obtain ⟨hbefore, ha, hafter⟩ := has
  obtain ⟨hsame, -, rfl⟩ := append_cons_inj haddress ha.value.1 hvalue
  have hfront : (i.opening ++ "src=\"" : Text) = i.opening ++ "src=" ++ ['"'] := by simp
  have hold : m.takeWhile (· ≠ '"') = i.address := by
    rw [hfront, hkey] at hm
    have hm : m = a.value ++ '"' :: (after.flatMap Attribute.spell ++ gap ++ slash) := by
      simpa [Attribute.spell, eq_comm] using hm
    rw [hm, takeWhile_run (ne_of_not_mem ha.value.1) (by simp), hsame]
  rw [hold] at hquote
  obtain ⟨hopen, hclose⟩ := hg (hsame ▸ ha.value.2.1) (hsame ▸ ha.value.2.2)
  have hall : ∀ b ∈ before ++ { a with value := g i } :: after, b.IsTidy := by
    simp only [List.forall_mem_append, List.forall_mem_cons]
    exact ⟨hbefore, ⟨ha.gap, ha.key, hquote, hopen, hclose⟩, hafter⟩
  have hbehind : '<' ∉ after.flatMap Attribute.spell := fun hmem => by
    obtain ⟨b, hb, hin⟩ := List.mem_flatMap.1 hmem
    exact (hafter b hb).bracket_not_mem.1 hin
  refine ⟨after.flatMap Attribute.spell ++ (gap ++ slash ++ ['>']), _, by simp,
    by simpa [hbehind] using htail.2, isTidyTag_image (.of_forall hall hgap) hslash, ?_⟩
  have hspell : i.readdressed g = "<img" ++ (i.opening ++ "src=") ++ ('"' :: (g i ++ ['"'])) := by
    simp [Image.readdressed, Image.spell]
  rw [hspell, hkey]
  simp [opened, Attribute.spell]

/-- Two names are one if what follows them is no part of a name. -/
theorem eq_of_append {name name' s t : Text} (hn : isName name) (hn' : isName name')
    (hs : s.head?.any isWord = false) (ht : t.head?.any isWord = false) (h : name ++ s = name' ++ t) :
    name = name' ∧ s = t := by
  have hword : ∀ {n : Text}, isName n → ∀ c ∈ n, isWord c := fun hn c hc => by
    obtain ⟨-, -, -, -, hall⟩ := isName_iff.1 hn
    exact isWord_of_alphanum (hall c hc)
  have hname : name = name' := by
    rw [← takeWhile_run (hword hn) hs, h, takeWhile_run (hword hn') ht]
  exact ⟨hname, List.append_cancel_left (hname ▸ h)⟩

theorem keepsTidy_images {g : Image → Text}
    (hg : ∀ i : Image, '<' ∉ i.address → '>' ∉ i.address → '<' ∉ g i ∧ '>' ∉ g i) :
    KeepsTidy (HoldsAddress g) (fun _ => True) Image.pattern (Image.readdressed g) fun _ => True := by
  intro i rest names behind _ hread h
  have hspell : Image.pattern.spell i ++ rest =
      '<' :: 'i' :: ("mg" ++ (i.opening ++ ("src=" ++ '"' :: (i.address ++ '"' :: rest)))) := by
    simp [Image.pattern, Image.spell]
  rw [hspell] at h
  obtain ⟨name, inside, after, he, htag, hproper, hafter⟩ := h.exists_opened (by decide)
  have hnames : name ++ (inside ++ '>' :: after) =
      "img" ++ (i.opening ++ ("src=" ++ '"' :: (i.address ++ '"' :: rest))) := by
    simpa [opened, eq_comm] using he
  have hhead : (inside ++ '>' :: after).head?.any isWord = false := by
    have hfirst := (isInTag_iff.1 htag.isInTag).1
    cases inside with
    | nil => exact show isWord '>' = false by decide
    | cons c inside => simpa using hfirst
  obtain ⟨rfl, hinside⟩ :=
    eq_of_append htag.isName_name (by cbv) hhead ((Image.cut_of_read? hread).1 _) hnames
  obtain ⟨more, inside', rfl, hmore, htag', hplace⟩ :=
    exists_readdressed htag (hproper.2 rfl) (hg i) hread hinside
  rw [push_image] at hafter
  refine ⟨more, after, names, rfl, hafter, hmore, ?runs, ?plain, ?head⟩
  case runs => exact hplace ▸ .of_moves (moves_image htag')
  case plain => exact hplace ▸ atBrackets_opened htag' (by simp)
  case head => exact fun _ => Image.head?_readdressed g i

end Passes

end Slideshow
