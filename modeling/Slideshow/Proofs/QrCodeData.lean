import Slideshow.Proofs.SelfContainedPasses
import Slideshow.Proofs.TextPasses
import Slideshow.Proofs.VerbatimBlocks
import Slideshow.Proofs.PercentDecoding

/-!
# The data of a QR code

The line of a QR code becomes an image. The address of the image asks for a chart of the size and of
the data, and the image is described by the data. The data reach the pass as they stand in HTML, with
their entities: the chart is asked for these, while whoever reads the HTML sees the characters that
they stand for.
-/
namespace Slideshow
open Text

/-! ## Form decoding -/

namespace Url

/-- What a form-encoded text stands for. -/
def formDecode? (t : Text) : Option Text := Utf8.decode? (decodeBytes (replaceChar '+' " " t))

/-- The query of a URL, behind its question mark and in front of its fragment. -/
def query (url : Text) : Text := ((url.dropWhile (· ≠ '?')).drop 1).takeWhile (· ≠ '#')

/-- The decoded value of the first parameter of a name in a query. -/
def parameter? (name url : Text) : Option Text :=
  ((pieces '&' (query url)).findSome? (dropAffix? (name ++ "="))).bind formDecode?

/-- The characters that stand for a byte in a form. -/
def formByte (b : UInt8) : Text :=
  let c := Char.ofNat b.toNat
  if c = ' ' then ['+']
  else if c.isAlphanum || c = '*' || c = '-' || c = '.' || c = '_' then [c]
  else percentByte b

theorem formEncode_eq (t : Text) : formEncode t = (Utf8.encode t).flatMap formByte := rfl

/-- What separates or stands for something in a form or in a query. -/
def formMarks : List Char := ['%', '+', '&', '#']

/-- A space is a plus sign, a byte that is kept is its character, and any other is its number. -/
theorem formByte_cases (b : UInt8) : (b = 32 ∧ formByte b = ['+']) ∨
    (∃ c, formByte b = [c] ∧ c ∉ formMarks ∧ String.utf8EncodeChar c = [b]) ∨
    formByte b = percentByte b := by
  have hall : ∀ n < 256, (UInt8.ofNat n = 32 ∧ formByte (UInt8.ofNat n) = ['+']) ∨
      (formByte (UInt8.ofNat n) = [Char.ofNat n] ∧ Char.ofNat n ∉ formMarks ∧
        String.utf8EncodeChar (Char.ofNat n) = [UInt8.ofNat n]) ∨
      formByte (UInt8.ofNat n) = percentByte (UInt8.ofNat n) := by decide +kernel
  have hb := hall b.toNat b.toNat_lt
  rw [UInt8.ofNat_toNat] at hb
  exact hb.imp_right (Or.imp_left fun h => ⟨_, h⟩)

theorem of_mem_percentByte {c : Char} {b : UInt8} (h : c ∈ percentByte b) : c = '%' ∨ c ∉ formMarks := by
  have hdigit : ∀ n < 16, hexDigit n ∉ formMarks := by decide
  have hb := b.toNat_lt
  simp only [percentByte, List.mem_cons, List.not_mem_nil, or_false] at h
  rcases h with rfl | rfl | rfl
  · exact .inl rfl
  · exact .inr (hdigit _ (by omega))
  · exact .inr (hdigit _ (by omega))

theorem decodeBytes_formByte (b : UInt8) (s : Text) :
    decodeBytes (replaceChar '+' " " (formByte b ++ s)) =
      b :: decodeBytes (replaceChar '+' " " s) := by
  rw [replaceChar_append]
  rcases formByte_cases b with ⟨rfl, hspace⟩ | ⟨c, hkept, hc, hcode⟩ | hnumber
  · rw [hspace, show replaceChar '+' " " ['+'] = [' '] by simp [replaceChar], List.singleton_append,
      decodeBytes_cons (by decide)]
    rfl
  · simp only [formMarks, List.mem_cons, not_or] at hc
    rw [hkept, replaceChar_of_not_mem (by simpa using Ne.symm hc.2.1), List.singleton_append,
      decodeBytes_cons hc.1, hcode]
    rfl
  · have hplus : '+' ∉ percentByte b := fun h => by simpa [formMarks] using of_mem_percentByte h
    rw [hnumber, replaceChar_of_not_mem hplus, decodeBytes_percentByte]

theorem decode?_encode (t : Text) : Utf8.decode? (Utf8.encode t) = some t := by
  rw [Utf8.decode?, Utf8.units_encode]
  induction t with
  | nil => rfl
  | cons c t ih => simp [ih]

/-- Form encoding loses nothing. -/
theorem formDecode?_formEncode (t : Text) : formDecode? (formEncode t) = some t := by
  have hbytes : ∀ bytes : Bytes,
      decodeBytes (replaceChar '+' " " (bytes.flatMap formByte)) = bytes := by
    intro bytes
    induction bytes with
    | nil => rfl
    | cons b bytes ih => rw [List.flatMap_cons, decodeBytes_formByte, ih]
  rw [formDecode?, formEncode_eq, hbytes, decode?_encode]

/-- Text without plus and percent signs stands for itself. -/
theorem formDecode?_of_not_mem {t : Text} (hplus : '+' ∉ t) (hpercent : '%' ∉ t) :
    formDecode? t = some t := by
  have hbytes : decodeBytes t = Utf8.encode t := by
    clear hplus
    induction t with
    | nil => rfl
    | cons c t ih =>
      simp only [List.mem_cons, not_or] at hpercent
      rw [decodeBytes_cons (Ne.symm hpercent.1), ih hpercent.2]
      rfl
  rw [formDecode?, replaceChar_of_not_mem hplus, hbytes, decode?_encode]

/-- Of the marks only two stand in form-encoded text, so it ends neither a parameter nor a query. -/
theorem of_mem_formEncode {c : Char} {t : Text} (h : c ∈ formEncode t) :
    c = '%' ∨ c = '+' ∨ c ∉ formMarks := by
  rw [formEncode_eq] at h
  obtain ⟨b, -, hb⟩ := List.mem_flatMap.1 h
  rcases formByte_cases b with ⟨-, hspace⟩ | ⟨d, hkept, hd, -⟩ | hnumber
  · exact .inr (.inl (List.mem_singleton.1 (hspace ▸ hb)))
  · obtain rfl := List.mem_singleton.1 (hkept ▸ hb)
    exact .inr (.inr hd)
  · exact (of_mem_percentByte (hnumber ▸ hb)).imp_right .inr

end Url

/-! ## Attributes -/

namespace Markup

/-- The value of the first attribute of a name, of those that are written in double quotes. -/
def attribute? (name html : Text) : Option Text :=
  (cutAt? (" " ++ name ++ "=\"") html).map fun p => unescaped (p.2.takeWhile (· ≠ '"'))

theorem escaped_of_not_mem {s : Text} (hamp : '&' ∉ s) (hlt : '<' ∉ s) (hgt : '>' ∉ s) :
    escaped s = s := by
  induction s with
  | nil => rfl
  | cons c s ih =>
    simp only [List.mem_cons, not_or] at hamp hlt hgt
    have hc : escapedChar c = [c] := by
      unfold escapedChar
      split <;> simp_all
    rw [escaped_cons, hc, ih hamp.2 hlt.2 hgt.2]
    rfl

/-- Escaping changes no text that is free of markup, and every other. -/
theorem escaped_eq_self_iff {s : Text} : escaped s = s ↔ '&' ∉ s ∧ '<' ∉ s ∧ '>' ∉ s := by
  refine ⟨fun h => ?_, fun ⟨hamp, hlt, hgt⟩ => escaped_of_not_mem hamp hlt hgt⟩
  have hbrackets := @mem_escaped s
  rw [h] at hbrackets
  refine ⟨fun hamp => ?_, fun hlt => (hbrackets hlt).1 rfl, fun hgt => (hbrackets hgt).2 rfl⟩
  -- An ampersand is escaped as five characters, and no character as fewer than one.
  have hchar : ∀ c, 1 ≤ (escapedChar c).length := by
    intro c
    unfold escapedChar
    split <;> simp
  have hlength : ∀ t : Text, t.length ≤ (escaped t).length := by
    intro t
    induction t with
    | nil => simp
    | cons c t ih =>
      have := hchar c
      simp only [escaped_cons, List.length_append, List.length_cons]
      omega
  obtain ⟨before, after, rfl⟩ := List.append_of_mem hamp
  have hlonger := congrArg List.length h
  have hbefore := hlength before
  have hafter := hlength after
  have hfive : (escapedChar '&').length = 5 := by cbv
  rw [escaped_append, escaped_cons] at hlonger
  simp only [List.length_append, List.length_cons, hfive] at hlonger
  omega

theorem eq_or_mem_of_mem_escapedChar {c d : Char} (h : d ∈ escapedChar c) :
    d = c ∨ d ∈ ['&', 'a', 'm', 'p', 'l', 't', 'g', ';'] := by
  unfold escapedChar at h
  split at h <;> simp_all <;> tauto

/-- A quote in escaped text stands where it stood in the text. -/
theorem takeWhile_escaped (s r : Text) : (escaped s ++ '"' :: r).takeWhile (· ≠ '"') =
    escaped (s.takeWhile (· ≠ '"')) := by
  induction s with
  | nil => simp
  | cons c s ih =>
    by_cases hc : c = '"'
    · subst hc
      simp [escapedChar]
    · have hchar : ∀ d ∈ escapedChar c, decide (d ≠ '"') := by
        intro d hd
        rcases eq_or_mem_of_mem_escapedChar hd with rfl | hmem
        · simpa using hc
        · rw [decide_eq_true_eq]
          rintro rfl
          simp at hmem
      rw [escaped_cons, List.append_assoc, List.takeWhile_append_of_pos hchar, ih,
        List.takeWhile_cons_of_pos (by simpa using hc), escaped_cons]

/-- The text in front of a pattern holds no character that the pattern starts with. -/
theorem cutAt?_append_of_not_mem {c : Char} {front : Text} (h : c ∉ front) (key s : Text) :
    cutAt? (c :: key) (front ++ s) = (cutAt? (c :: key) s).map fun p => (front ++ p.1, p.2) := by
  induction front with
  | nil => simp
  | cons d front ih =>
    rw [List.mem_cons, not_or] at h
    rw [List.cons_append, cutAt?, dropAffix?_cons_ne h.1, ih h.2]
    simp [Function.comp_def]

end Markup

/-! ## The line of a QR code -/

namespace Restructured

/-- The line that asks for a QR code. -/
def qrLine (size data : Text) : Text := ".qr: " ++ size ++ "|" ++ data

/-- Data on a line that holds no inline markup and announces no literal block. -/
structure IsQrData (data : Text) : Prop where
  clean : IsClean data
  noStar : '*' ∉ data
  noQuote : '`' ∉ data
  noColons : dropEnding? "::" data = none

section Line
variable {size data : Text} (hsize : ∀ c ∈ size, isDigit c) (h : IsQrData data)
include hsize

/-- A size holds digits only. -/
theorem not_mem_size {c : Char} (hc : isDigit c = false) : c ∉ size := fun hmem => by
  simp [hsize c hmem] at hc

include h

theorem isPrinted_qrLine : IsPrinted (qrLine size data) := by
  have hbar : IsClean ("|" ++ data) := by
    by_cases hne : data = []
    · subst hne
      exact ⟨by simp, by simp, by cbv⟩
    · exact h.clean.behind hne (by simp) (by simp)
  have hline : qrLine size data = ".qr: " ++ size ++ ("|" ++ data) := by simp [qrLine]
  have hclean : IsClean (qrLine size data) := by
    rw [hline]
    exact hbar.behind (by simp) (by simp [not_mem_size hsize (c := '\n') rfl])
      (by simp [not_mem_size hsize (c := '\t') rfl])
  exact ⟨.inr ⟨'q', by simp [qrLine], by decide⟩, hclean.noBreak, hclean.noTab, hclean.ending⟩

theorem opening_qrLine : Opening.of true (qrLine size data) [] = .paragraph := by
  have hdots : dropAffix? ".. " (qrLine size data) = none := by simp [qrLine, dropAffix?]
  have hindent : indent (qrLine size data) = 0 := by simp [qrLine, indent]
  have hmarker : marker? (qrLine size data) = none := by
    simp [qrLine, marker?, bulletMarker?, numberMarker?, numberLabel, isDigit, dropAffix?]
  rw [opening_of_head (isPrinted_qrLine hsize h) (by simp) hdots, hindent, hmarker]
  rfl

theorem paragraphOf_qrLine : paragraphOf [qrLine size data] = (qrLine size data, false) := by
  have htrim : trim (qrLine size data) = qrLine size data := by
    have hleft : trimLeft (qrLine size data) = qrLine size data := by
      simp [qrLine, trimLeft, show isBlank '.' = false by decide]
    rw [trim, hleft, trimRight_eq_self (isPrinted_qrLine hsize h).ending]
  have hcolons : dropEnding? "::" (qrLine size data) = none := by
    rw [Option.eq_none_iff_forall_ne_some]
    intro rest hrest
    have hends : [':', ':'] <:+ qrLine size data :=
      ⟨rest, by simpa using (dropEnding?_eq_some_iff.1 hrest).symm⟩
    have hbar : '|' :: data <:+ qrLine size data := ⟨".qr: " ++ size, by simp [qrLine]⟩
    rcases List.suffix_or_suffix_of_suffix hends hbar with hcolons | hshort
    · rcases List.suffix_cons_iff.1 hcolons with heq | ⟨t, ht⟩
      · simp at heq
      · have hdata : dropEnding? "::" data = some t := dropEnding?_eq_some_iff.2 (by simp [ht])
        exact Option.some_ne_none t (hdata.symm.trans h.noColons)
    · simpa using hshort.subset (List.mem_cons_self (a := '|'))
  simp only [paragraphOf, List.map_cons, List.map_nil, htrim, unlines_singleton, hcolons]

/-- The line is a paragraph of a directive, and its data are escaped. -/
theorem toHtml_qrLine {ending : Text} (hending : ending = [] ∨ ending = ['\n']) :
    toHtml (qrLine size data ++ ending) =
      Pass.Block.html (.qrCode size (escaped data)) := by
  have hclean : ∀ l ∈ [qrLine size data], IsClean l := by
    simpa using (isPrinted_qrLine hsize h).clean
  have hlines : linesOf (qrLine size data ++ ending) = [qrLine size data] := by
    rcases hending with rfl | rfl
    · simpa using linesOf_unlines hclean (by simp [qrLine])
    · simpa using linesOf_unlines_break (by simp) hclean
  have hfront : escaped (".qr: " ++ size ++ "|") = ".qr: " ++ size ++ "|" :=
    Markup.escaped_eq_self_iff.2 ⟨by simp [not_mem_size hsize (c := '&') rfl],
      by simp [not_mem_size hsize (c := '<') rfl], by simp [not_mem_size hsize (c := '>') rfl]⟩
  have hinline : inlineHtml (qrLine size data) = ".qr: " ++ size ++ "|" ++ escaped data := by
    rw [inlineHtml_plain, qrLine, escaped_append, hfront]
    · simp [qrLine, not_mem_size hsize (c := '*') rfl, h.noStar]
    · simp [qrLine, not_mem_size hsize (c := '`') rfl, h.noQuote]
  rw [toHtml, Block.ofSource, hlines, blocks_paragraph (by simp [qrLine]) (by simp)
    (opening_qrLine hsize h)]
  simp [paragraphOf_qrLine hsize h, withBlock, Block.htmlAll, Block.html, hinline, Pass.Block.html]

end Line

end Restructured

/-! ## The image -/

namespace Pass
open Markup Url Restructured

/-- What the pass makes of the line, next to the line break of the paragraph. -/
def qrHtml (size data : Text) : Text := QrCode.html ⟨" ", size, escaped data⟩ ++ "\n"

def chartParameters (size data : Text) : List Text :=
  ["chs=" ++ size ++ "x" ++ size, "cht=qr", "chl=" ++ formEncode (escaped data),
    "chf=bg,s,00000000", "choe=UTF-8"]

/-- The address of the chart, as whoever reads the HTML sees it. -/
def chartUrl (size data : Text) : Text :=
  "https://chart.googleapis.com/chart" ++ '?' :: List.intercalate ['&'] (chartParameters size data)

section Image
variable {size data : Text} (hne : size ≠ []) (hsize : ∀ c ∈ size, isDigit c)
include hsize

theorem run_qrLine (h : IsQrData data) (origin : Origin) {ending : Text}
    (hending : ending = [] ∨ ending = ['\n']) :
    qrCodes.run origin (toHtml (qrLine size data ++ ending)) =
      pure ⟨qrHtml size data, ["has_qr"]⟩ := by
  have hplain : isPlain (escaped data) := by
    have hbracket : '<' ∉ escaped data := fun hmem => (mem_escaped hmem).1 rfl
    have hno : ∀ key : Text, occursIn ('<' :: key) (escaped data) = false := by
      intro key
      rw [Bool.eq_false_iff]
      intro hyes
      obtain ⟨before, after, hsplit⟩ := occursIn_iff.1 hyes
      exact hbracket (by simp [hsplit])
    simp [isPlain, hno]
  have hbreak : '\n' ∉ escaped data := fun hmem => by
    obtain ⟨c, hc, hmem⟩ := List.mem_flatMap.1 hmem
    rcases eq_or_mem_of_mem_escapedChar hmem with rfl | hmark
    · exact h.clean.noBreak hc
    · simp at hmark
  have hformed : ∀ b ∈ [Block.qrCode size (escaped data)], b.isWellFormed := by
    simpa [Block.isWellFormed, hplain, hbreak] using hsize
  have hrun := changesItsBlocks_qrCodes _ hformed [] (by simp) origin
  have hpassed : Block.passed [] = Block.html := by
    funext b
    simp [Block.passed]
  rw [toHtml_qrLine hsize h hending]
  simpa [hpassed, Block.passed, Block.pass?, Block.changed, qrCodes, setAside, hasBlock, qrHtml] using hrun

theorem escaped_size : escaped size = size :=
  escaped_of_not_mem (not_mem_size hsize rfl) (not_mem_size hsize rfl) (not_mem_size hsize rfl)

include hne

theorem chart_eq (data : Text) :
    QrCode.chart ⟨" ", size, escaped data⟩ = escaped (chartUrl size data) := by
  have hdata : escaped (formEncode (escaped data)) = formEncode (escaped data) := by
    have hamp : '&' ∉ formEncode (escaped data) := fun hmem => by
      simpa [formMarks] using of_mem_formEncode hmem
    have hchars := isAddressChar_formEncode (escaped data)
    refine escaped_of_not_mem hamp (fun hmem => ?_) (fun hmem => ?_)
    · simpa [isAddressChar] using hchars _ hmem
    · simpa [isAddressChar] using hchars _ hmem
  simp [QrCode.chart, chartUrl, chartParameters, hne, escaped_append, escapedChar, escaped_size hsize, hdata,
    List.intercalate, List.intersperse]

omit hne

theorem pieces_query_chartUrl (data : Text) : pieces '&' (query (chartUrl size data)) =
    chartParameters size data := by
  have hform : ∀ c ∈ ['&', '#'], c ∉ formEncode (escaped data) := fun c hc hmem => by
    rcases List.mem_pair.1 hc with rfl | rfl <;> simpa [formMarks] using of_mem_formEncode hmem
  have hfree : ∀ c ∈ ['&', '#'], ∀ p ∈ chartParameters size data, c ∉ p := by
    intro c hc
    have hdata := hform c hc
    rcases List.mem_pair.1 hc with rfl | rfl
    · simp [chartParameters, not_mem_size hsize (c := '&') rfl, hdata]
    · simp [chartParameters, not_mem_size hsize (c := '#') rfl, hdata]
  have hquery : query (chartUrl size data) = List.intercalate ['&'] (chartParameters size data) := by
    have hhost : ∀ c ∈ ("https://chart.googleapis.com/chart" : Text), decide (c ≠ '?') :=
      List.all_eq_true.1 (by cbv)
    rw [query, chartUrl, dropWhile_run hhost (by simp), List.drop_succ_cons, List.drop_zero,
      List.takeWhile_eq_self_iff]
    intro c hc
    rw [decide_eq_true_eq]
    rintro rfl
    rcases mem_intercalate hc with hmark | ⟨p, hp, hmem⟩
    · simp at hmark
    · exact hfree '#' (by simp) p hp hmem
  rw [hquery, pieces_intercalate (by simp [chartParameters]) (hfree '&' (by simp))]

theorem parameter?_size (data : Text) :
    parameter? "chs" (chartUrl size data) = some (size ++ "x" ++ size) := by
  have hplain : formDecode? (size ++ "x" ++ size) = some (size ++ "x" ++ size) :=
    formDecode?_of_not_mem (by simp [not_mem_size hsize (c := '+') rfl])
      (by simp [not_mem_size hsize (c := '%') rfl])
  rw [parameter?, pieces_query_chartUrl hsize]
  simpa [chartParameters, dropAffix?] using hplain

/-- The chart is asked for the data as they stand in HTML. -/
theorem parameter?_data (data : Text) :
    parameter? "chl" (chartUrl size data) = some (escaped data) := by
  have hdata := formDecode?_formEncode (escaped data)
  rw [parameter?, pieces_query_chartUrl hsize]
  simpa [chartParameters, dropAffix?] using hdata

include hne

theorem not_mem_chart {c : Char} (hc : c ∈ [' ', '"']) (data : Text) :
    c ∉ QrCode.chart ⟨" ", size, escaped data⟩ := by
  have hform : ∀ c ∈ [' ', '"'], c ∉ formEncode (escaped data) := fun c hc hmem => by
    have hchar := isAddressChar_formEncode (escaped data) c hmem
    rcases List.mem_pair.1 hc with rfl | rfl <;> simp [isAddressChar] at hchar
  have hdata := hform c hc
  rcases List.mem_pair.1 hc with rfl | rfl
  · simp [QrCode.chart, hne, not_mem_size hsize (c := ' ') rfl, hdata]
  · simp [QrCode.chart, hne, not_mem_size hsize (c := '"') rfl, hdata]

theorem attribute?_source (data : Text) :
    attribute? "src" (qrHtml size data) = some (chartUrl size data) := by
  have hquote := not_mem_chart hne hsize (c := '"') (by simp) data
  have htake : ∀ r : Text, (QrCode.chart ⟨" ", size, escaped data⟩ ++ '"' :: r).takeWhile (· ≠ '"') =
      QrCode.chart ⟨" ", size, escaped data⟩ := fun r =>
    takeWhile_run (ne_of_not_mem hquote) (by simp)
  have hcut : ∃ before after, cutAt? (" " ++ "src" ++ "=\"") (qrHtml size data) =
      some (before, QrCode.chart ⟨" ", size, escaped data⟩ ++ '"' :: after) := by
    simp [qrHtml, QrCode.html_eq, Image.spell, cutAt?, dropAffix?]
  obtain ⟨before, after, hcut⟩ := hcut
  rw [attribute?, hcut, Option.map_some, htake, chart_eq hne hsize, unescaped_escaped]

/-- The description ends at the first quote. -/
theorem attribute?_alternative (data : Text) :
    attribute? "alt" (qrHtml size data) = some (data.takeWhile (· ≠ '"')) := by
  have hspace : ' ' ∉ QrCode.chart ⟨[' '], size, escaped data⟩ := by
    simpa using not_mem_chart hne hsize (c := ' ') (by simp) data
  have hcut : ∃ before after, cutAt? (" " ++ "alt" ++ "=\"") (qrHtml size data) =
      some (before, escaped data ++ '"' :: after) := by
    simp [qrHtml, QrCode.html_eq, Image.spell, cutAt?, dropAffix?, cutAt?_append_of_not_mem hspace]
  obtain ⟨before, after, hcut⟩ := hcut
  rw [attribute?, hcut, Option.map_some, takeWhile_escaped, unescaped_escaped]

/-- The image of a QR code has its size, but the chart stands for the escaped data, and the
description for the data up to the first quote. Both are the data that were written exactly if these
hold no character that HTML escapes. -/
theorem exists_run_qrCodes (h : IsQrData data) (origin : Origin) {ending : Text}
    (hending : ending = [] ∨ ending = ['\n']) : ∃ html url,
      qrCodes.run origin (toHtml (qrLine size data ++ ending)) = pure ⟨html, ["has_qr"]⟩ ∧
      attribute? "src" html = some url ∧
      parameter? "chs" url = some (size ++ "x" ++ size) ∧
      parameter? "chl" url = some (escaped data) ∧
      attribute? "alt" html = some (data.takeWhile (· ≠ '"')) ∧
      (parameter? "chl" url = some data ∧ attribute? "alt" html = some data ↔
        ∀ c ∈ data, c ∉ ['&', '<', '>', '"']) := by
  have hchart := parameter?_data hsize data
  have halternative := attribute?_alternative hne hsize data
  refine ⟨_, _, run_qrLine hsize h origin hending, attribute?_source hne hsize data,
    parameter?_size hsize data, hchart, halternative, ?_⟩
  rw [hchart, halternative, Option.some_inj, Option.some_inj, escaped_eq_self_iff,
    List.takeWhile_eq_self_iff]
  constructor
  · rintro ⟨⟨hamp, hlt, hgt⟩, hquote⟩ c hc hmark
    simp only [List.mem_cons, List.not_mem_nil, or_false] at hmark
    rcases hmark with rfl | rfl | rfl | rfl
    · exact hamp hc
    · exact hlt hc
    · exact hgt hc
    · simpa using hquote _ hc
  · intro hfree
    refine ⟨⟨fun hc => ?_, fun hc => ?_, fun hc => ?_⟩, fun c hc => ?_⟩
    · simpa using hfree _ hc
    · simpa using hfree _ hc
    · simpa using hfree _ hc
    · have hmark := hfree c hc
      simp only [List.mem_cons, not_or] at hmark
      simpa using hmark.2.2.2.1

end Image

/-- An address with the characters that addresses usually hold, some of which a form encodes. -/
theorem exists_run_address : ("90" : Text) ≠ [] ∧ (∀ c ∈ ("90" : Text), isDigit c) ∧
    IsQrData "http://a.b/c d?e=%20+f#g" ∧
    ∃ html url, qrCodes.run ⟨⟨[], []⟩, none⟩ (toHtml ".qr: 90|http://a.b/c d?e=%20+f#g\n") =
        pure ⟨html, ["has_qr"]⟩ ∧
      attribute? "src" html = some url ∧ parameter? "chs" url = some "90x90" ∧
      parameter? "chl" url = some "http://a.b/c d?e=%20+f#g" ∧
      attribute? "alt" html = some "http://a.b/c d?e=%20+f#g" := by
  have hdigits : ∀ c ∈ ("90" : Text), isDigit c := List.all_eq_true.1 (by cbv)
  have h : IsQrData "http://a.b/c d?e=%20+f#g" :=
    ⟨⟨by simp, by simp, by cbv⟩, by simp, by simp, by cbv⟩
  obtain ⟨html, url, hrun, hsource, hsize, -, -, hiff⟩ :=
    exists_run_qrCodes (by simp) hdigits h ⟨⟨[], []⟩, none⟩ (.inr rfl)
  have hfree : ∀ c ∈ ("http://a.b/c d?e=%20+f#g" : Text), c ∉ ['&', '<', '>', '"'] := by simp
  have hline : qrLine "90" "http://a.b/c d?e=%20+f#g" ++ ['\n'] =
      ".qr: 90|http://a.b/c d?e=%20+f#g\n" := by cbv
  have hsquare : ("90" ++ "x" ++ "90" : Text) = "90x90" := by cbv
  rw [hline] at hrun
  rw [hsquare] at hsize
  exact ⟨by simp, hdigits, h, html, url, hrun, hsource, hsize, (hiff.2 hfree).1, (hiff.2 hfree).2⟩

/-- An ampersand is read from the chart as its entity, and a quote ends the description. -/
theorem not_shown_ampersand : IsQrData "a&b" ∧ IsQrData "a\"b" ∧
    (∃ html url, qrCodes.run ⟨⟨[], []⟩, none⟩ (toHtml ".qr: 90|a&b\n") = pure ⟨html, ["has_qr"]⟩ ∧
      attribute? "src" html = some url ∧ parameter? "chl" url = some "a&amp;b" ∧
      parameter? "chl" url ≠ some "a&b") ∧
    ∃ html, qrCodes.run ⟨⟨[], []⟩, none⟩ (toHtml ".qr: 90|a\"b\n") = pure ⟨html, ["has_qr"]⟩ ∧
      attribute? "alt" html = some "a" ∧ attribute? "alt" html ≠ some "a\"b" := by
  have hdigits : ∀ c ∈ ("90" : Text), isDigit c := List.all_eq_true.1 (by cbv)
  have hamp : IsQrData "a&b" := ⟨⟨by simp, by simp, by cbv⟩, by simp, by simp, by cbv⟩
  have hquote : IsQrData "a\"b" := ⟨⟨by simp, by simp, by cbv⟩, by simp, by simp, by cbv⟩
  have hampLine : (".qr: 90|a&b\n" : Text) = qrLine "90" "a&b" ++ ['\n'] := by cbv
  have hquoteLine : (".qr: 90|a\"b\n" : Text) = qrLine "90" "a\"b" ++ ['\n'] := by cbv
  refine ⟨hamp, hquote, ⟨qrHtml "90" "a&b", chartUrl "90" "a&b", ?_,
    attribute?_source (by simp) hdigits _, ?_, ?_⟩, qrHtml "90" "a\"b", ?_, ?_, ?_⟩
  · rw [hampLine, run_qrLine hdigits hamp _ (.inr rfl)]
  · rw [parameter?_data hdigits]
    cbv
  · rw [parameter?_data hdigits]
    simp [escapedChar]
  · rw [hquoteLine, run_qrLine hdigits hquote _ (.inr rfl)]
  · rw [attribute?_alternative (by simp) hdigits]
    cbv
  · rw [attribute?_alternative (by simp) hdigits]
    simp

end Pass

end Slideshow
