import CarRental.Lib.LineFilling
import CarRental.Text
import Mathlib.Algebra.Order.Ring.Rat

/-!
# CarRental.Pdf.Paragraph

The **paragraphs of the contract** as `PdfService.drawParagraphJustified` sets them.

A text is cut into paragraphs at line feeds, and a paragraph into words at blanks.
The words are put on lines greedily. A line that is full is drawn justified, each
word at its own place; the last line of a paragraph is drawn as one string from the
left margin. The pen goes down by the line spacing after every line, once for an
empty paragraph, and by two fifths more after a paragraph.

One corner of the loop shows on the page: a word wider than the column on an empty
line closes that empty line, which draws nothing but lowers the pen.

Widths and places are elements of an ordered field, in place of the floats of the
source. The width of a string is an arbitrary function of it, which stands for the
font and its size.
-/

namespace CarRental.PdfService

open Lib

/-! ### Words -/

/-- `s.trim().isEmpty()` -/
def isBlank (s : Text) : Bool := s.all (· ≤ 0x20)

/-- The characters of the regular expression class `\s`. -/
def isSpace (c : CodeUnit) : Bool := c = 0x20 || (0x09 ≤ c && c ≤ 0x0D)

/-- `text.split("\n")`: empty strings at the end are left out, unless there is no line feed. -/
def paragraphs (text : Text) : List Text :=
  if 0x0A ∈ text then ((text.splitOn 0x0A).reverse.dropWhile (· = [])).reverse else [text]

/-- The words of a paragraph. Splitting at each blank instead of at each run of blanks makes
more empty strings, and those are left out here anyway. -/
def rawWords (para : Text) : List Text :=
  (para.splitOnP isSpace).filter fun w => !isBlank w

/-- The marks for the direction of writing are left out. -/
def stripBidiControls (text : Text) : Text :=
  text.filter fun c => !([0x202A, 0x202B, 0x202C, 0x202D, 0x202E, 0x200E, 0x200F].contains c)

/-- What the fonts can show, or a question mark. -/
def sanitizeChar (c : CodeUnit) : CodeUnit :=
  if 32 ≤ c && c ≤ 126 then c
  else if c = 0x0A || c = 0x0D || c = 0x09 then 0x20
  else if (160 ≤ c && c ≤ 255) || c = 0x0153 || c = 0x0152 || c = 0x20AC || c = 0x26A0
      || (0x0600 ≤ c && c ≤ 0x06FF) || (0xFE70 ≤ c && c ≤ 0xFEFF) then c
  else 0x3F

/-- `sanitize` of a text that is there. -/
def sanitize (text : Text) : Text := (stripBidiControls text).map sanitizeChar

/-! ### Lines -/

variable {K : Type} [Field K] [LinearOrder K]

/-- Where the text goes: the left margin, the width and the distance of the lines, and the
width of a string in the font. -/
structure Column (K : Type) [Zero K] [LT K] where
  x : K
  width : K
  lineSpacing : K
  getStringWidth : Text → K
  lineSpacing_pos : 0 < lineSpacing

/-- The width of a blank. -/
def Column.spaceWidth (col : Column K) : K := col.getStringWidth [0x20]

/-- A string on the page, with the place where it starts. -/
structure Drawn (K : Type) where
  text : Text
  x : K
  y : K

/-- The routine a line is drawn with. -/
inductive Alignment
  | justified
  | left
  deriving DecidableEq

/-- A line that is drawn, with the routine that draws it. -/
structure Line (K : Type) where
  words : List Text
  y : K
  alignment : Alignment

/-- Each word at its own place; the words end at the right margin. -/
def drawLineJustified (col : Column K) (words : List Text) (y : K) : List (Drawn K) :=
  match words with
  | [] => []
  | [word] => [⟨word, col.x, y⟩]
  | words =>
    (spread col.getStringWidth (evenGap col.getStringWidth col.width words) col.x words).map
      fun p => ⟨p.1, p.2, y⟩

/-- One string, with single spaces. -/
def drawLineLeftAligned (col : Column K) (words : List Text) (y : K) : List (Drawn K) :=
  [⟨[0x20].intercalate words, col.x, y⟩]

/-- What the routine puts on the page. -/
def Line.draw (col : Column K) (line : Line K) : List (Drawn K) :=
  match line.alignment with
  | .justified => drawLineJustified col line.words line.y
  | .left => drawLineLeftAligned col line.words line.y

/-! ### The loop -/

/-- The variables of the loop over the words of a paragraph, and the lines drawn so far. -/
structure Pen (K : Type) where
  currentLineWords : List Text
  currentLineWidth : K
  currentY : K
  lines : List (Line K)

/-- Drawing an empty line draws nothing. -/
def justify (words : List Text) (y : K) : List (Line K) :=
  if words = [] then [] else [⟨words, y, .justified⟩]

/-- The body of the loop: the word goes on the line if it fits, else the line is closed and the word
begins the next one. -/
def Pen.add (col : Column K) (pen : Pen K) (sanitizedWord : Text) : Pen K :=
  let wordWidth := col.getStringWidth sanitizedWord
  let spacingNeeded := spacing col.spaceWidth pen.currentLineWords
  if pen.currentLineWidth + spacingNeeded + wordWidth ≤ col.width then
    { pen with
      currentLineWords := pen.currentLineWords ++ [sanitizedWord]
      currentLineWidth := pen.currentLineWidth + (spacingNeeded + wordWidth) }
  else
    { currentLineWords := [sanitizedWord]
      currentLineWidth := wordWidth
      currentY := pen.currentY - col.lineSpacing
      lines := pen.lines ++ justify pen.currentLineWords pen.currentY }

/-- One paragraph: its lines, and where the pen is after it. -/
def drawParagraph (col : Column K) (currentY : K) (para : Text) : List (Line K) × K :=
  if isBlank para then ([], currentY - col.lineSpacing)
  else
    let words := rawWords para
    if words = [] then ([], currentY)
    else
      let pen := (words.map sanitize).foldl (Pen.add col) ⟨[], 0, currentY, []⟩
      if pen.currentLineWords = [] then (pen.lines, pen.currentY - col.lineSpacing * (2 / 5))
      else
        (pen.lines ++ [⟨pen.currentLineWords, pen.currentY, .left⟩],
          pen.currentY - col.lineSpacing - col.lineSpacing * (2 / 5))

/-- The lines of each paragraph, from the top. -/
def drawParagraphs (col : Column K) (currentY : K) : List Text → List (List (Line K))
  | [] => []
  | para :: rest =>
    let drawn := drawParagraph col currentY para
    drawn.1 :: drawParagraphs col drawn.2 rest

/-- What is drawn for a text. -/
def drawParagraphJustified (col : Column K) (text : Text) (yStart : K) : List (Drawn K) :=
  (drawParagraphs col yStart (paragraphs text)).flatten.flatMap (Line.draw col)

/-! ### Words of a blank paragraph -/

theorem mem_of_mem_splitOnP {p : CodeUnit → Bool} {text w : Text} {c : CodeUnit}
    (hw : w ∈ text.splitOnP p) (hc : c ∈ w) : c ∈ text := by
  induction text generalizing w with
  | nil =>
    rw [List.splitOnP_nil, List.mem_singleton] at hw
    rw [hw] at hc
    exact hc
  | cons d rest ih =>
    rw [List.splitOnP_cons_eq_if_modifyHead] at hw
    split at hw
    · rcases List.mem_cons.mp hw with rfl | hw
      · exact absurd hc List.not_mem_nil
      · exact List.mem_cons_of_mem _ (ih hw hc)
    · obtain ⟨v, vs, hrest⟩ := List.exists_cons_of_ne_nil (List.splitOnP_ne_nil p rest)
      rw [hrest] at hw ih
      rcases List.mem_cons.mp hw with rfl | hw
      · rcases List.mem_cons.mp hc with rfl | hc
        · exact List.mem_cons_self
        · exact List.mem_cons_of_mem _ (ih List.mem_cons_self hc)
      · exact List.mem_cons_of_mem _ (ih (List.mem_cons_of_mem _ hw) hc)

theorem rawWords_of_blank {para : Text} (h : isBlank para = true) : rawWords para = [] := by
  unfold rawWords
  rw [List.filter_eq_nil_iff]
  intro w hw
  unfold isBlank at h ⊢
  rw [List.all_eq_true] at h
  have hall : w.all (· ≤ 0x20) = true := by
    rw [List.all_eq_true]
    exact fun c hc => h c (mem_of_mem_splitOnP hw hc)
  simp [hall]

/-! ### The loop is greedy filling -/

theorem mem_justify {K : Type} {words : List Text} {y : K} {l : Line K}
    (h : l ∈ justify words y) : l.y = y := by
  unfold justify at h
  split at h
  · exact absurd h List.not_mem_nil
  · rw [List.mem_singleton.mp h]

/-- Lines from `y` downwards, one spacing apart: all justified but the last. -/
def setLines (col : Column K) (y : K) : List (List Text) → List (Line K)
  | [] => []
  | [last] => [⟨last, y, .left⟩]
  | words :: next :: rest =>
    justify words y ++ setLines col (y - col.lineSpacing) (next :: rest)

/-- The lines of a paragraph that ends where the pen is. -/
def Pen.finish (pen : Pen K) : List (Line K) :=
  pen.lines ++ [⟨pen.currentLineWords, pen.currentY, .left⟩]

theorem Pen.add_of_le {col : Column K} {pen : Pen K} {word : Text}
    (h : pen.currentLineWidth + spacing col.spaceWidth pen.currentLineWords
      + col.getStringWidth word ≤ col.width) :
    pen.add col word =
      { pen with
        currentLineWords := pen.currentLineWords ++ [word]
        currentLineWidth := pen.currentLineWidth
          + (spacing col.spaceWidth pen.currentLineWords + col.getStringWidth word) } := if_pos h

theorem Pen.add_of_lt {col : Column K} {pen : Pen K} {word : Text}
    (h : col.width < pen.currentLineWidth + spacing col.spaceWidth pen.currentLineWords
      + col.getStringWidth word) :
    pen.add col word =
      ⟨[word], col.getStringWidth word, pen.currentY - col.lineSpacing,
        pen.lines ++ justify pen.currentLineWords pen.currentY⟩ := if_neg (not_le.mpr h)

/-- **The loop fills lines**, and sets the ones it closes where the pen is. -/
theorem finish_foldl_add (col : Column K) (words : List Text) (pen : Pen K) :
    (words.foldl (Pen.add col) pen).finish =
      pen.lines ++ setLines col pen.currentY
        (lines (fill col.getStringWidth col.spaceWidth col.width
          pen.currentLineWords pen.currentLineWidth words)) := by
  induction words generalizing pen with
  | nil => rfl
  | cons word words ih =>
    rw [List.foldl_cons, ih]
    rcases le_or_gt (pen.currentLineWidth + spacing col.spaceWidth pen.currentLineWords
      + col.getStringWidth word) col.width with h | h
    · rw [Pen.add_of_le h, fill_of_le _ _ _ words h]
    · rw [Pen.add_of_lt h, lines_fill_of_lt _ _ _ words h]
      obtain ⟨tail, rest, hlines⟩ := lines_fill_head col.getStringWidth col.spaceWidth col.width
        words [word] (col.getStringWidth word)
      rw [hlines, setLines, List.append_assoc]

section SetLines

variable {col : Column K}

theorem setLines_of_cons {words : List Text} (hwords : words ≠ []) (y : K)
    {rest : List (List Text)} (hrest : rest ≠ []) :
    setLines col y (words :: rest) =
      ⟨words, y, .justified⟩ :: setLines col (y - col.lineSpacing) rest := by
  obtain ⟨next, rest, rfl⟩ := List.exists_cons_of_ne_nil hrest
  rw [setLines, justify, if_neg hwords, List.singleton_append]

theorem setLines_words (y : K) {ls : List (List Text)} (hls : ∀ l ∈ ls, l ≠ []) :
    (setLines col y ls).map Line.words = ls := by
  induction ls generalizing y with
  | nil => rfl
  | cons words rest ih =>
    cases rest with
    | nil => rfl
    | cons next rest =>
      obtain ⟨hwords, hrest⟩ := List.forall_mem_cons.mp hls
      rw [setLines_of_cons hwords y (List.cons_ne_nil _ _), List.map_cons, ih _ hrest]

theorem setLines_justified (y : K) {ls : List (List Text)} (hls : ∀ l ∈ ls, l ≠ []) :
    ∀ l ∈ (setLines col y ls).dropLast, l.alignment = .justified := by
  induction ls generalizing y with
  | nil => exact fun l hl => absurd hl List.not_mem_nil
  | cons words rest ih =>
    cases rest with
    | nil => exact fun l hl => absurd hl List.not_mem_nil
    | cons next rest =>
      obtain ⟨hwords, hrest⟩ := List.forall_mem_cons.mp hls
      have hne : setLines col (y - col.lineSpacing) (next :: rest) ≠ [] := by
        intro hnil
        have hnext := congrArg (List.map Line.words) hnil
        rw [setLines_words _ hrest] at hnext
        exact absurd hnext (List.cons_ne_nil _ _)
      rw [setLines_of_cons hwords y (List.cons_ne_nil _ _), List.dropLast_cons_of_ne_nil hne]
      exact List.forall_mem_cons.mpr ⟨rfl, ih _ hrest⟩

variable [IsStrictOrderedRing K]

theorem setLines_le (y : K) (ls : List (List Text)) : ∀ l ∈ setLines col y ls, l.y ≤ y := by
  induction ls generalizing y with
  | nil => exact fun l hl => absurd hl List.not_mem_nil
  | cons words rest ih =>
    intro l hl
    cases rest with
    | nil => rw [List.mem_singleton.mp hl]
    | cons next rest =>
      rcases List.mem_append.mp hl with hl | hl
      · exact (mem_justify hl).le
      · exact (ih _ l hl).trans (sub_le_self y col.lineSpacing_pos.le)

/-- Each line is below the ones before it. -/
theorem setLines_lower (y : K) (ls : List (List Text)) :
    (setLines col y ls).Pairwise fun l l' => l'.y < l.y := by
  induction ls generalizing y with
  | nil => exact List.Pairwise.nil
  | cons words rest ih =>
    cases rest with
    | nil => exact List.pairwise_singleton _ _
    | cons next rest =>
      refine List.pairwise_append.mpr ⟨?_, ih _, ?_⟩
      · unfold justify
        split
        · exact List.Pairwise.nil
        · exact List.pairwise_singleton _ _
      · intro l hl l' hl'
        rw [mem_justify hl]
        exact (setLines_le _ _ l' hl').trans_lt (sub_lt_self y col.lineSpacing_pos)

end SetLines

/-! ### What a paragraph looks like -/

/-- How the words of a justified line are drawn. -/
structure Justified (col : Column K) (words : List Text) (drawn : List (Drawn K)) : Prop where
  texts : drawn.map Drawn.text = words
  /-- The first word starts at the left margin ... -/
  left : ∃ word, drawn.head? = some word ∧ word.x = col.x
  /-- ... the gaps are spaces, or wider ... -/
  gaps : drawn.IsChain fun word next =>
    word.x + col.getStringWidth word.text + col.spaceWidth ≤ next.x
  /-- ... and the last word ends at the right margin. -/
  right : ∃ word, drawn.getLast? = some word ∧
    word.x + col.getStringWidth word.text = col.x + col.width

/-- The lines of a paragraph. -/
structure SetParagraph (col : Column K) (para : Text) (lines : List (Line K)) : Prop where
  /-- Every word is there once, in order. -/
  words : (lines.map Line.words).flatten = (rawWords para).map sanitize
  nonempty : ∀ l ∈ lines, l.words ≠ []
  fits : ∀ l ∈ lines, 2 ≤ l.words.length →
    lineWidth col.getStringWidth col.spaceWidth l.words ≤ col.width
  /-- No line but the last could have taken the next word. -/
  full : lines.IsChain fun l next => ∃ word, next.words.head? = some word ∧
    col.width < lineWidth col.getStringWidth col.spaceWidth l.words
      + (col.spaceWidth + col.getStringWidth word)
  alignment : ∀ l ∈ lines.dropLast, l.alignment = .justified
  justified : ∀ l ∈ lines, l.alignment = .justified → 2 ≤ l.words.length →
    Justified col l.words (l.draw col)
  /-- Any other line is one string from the left margin, with a space in each gap. -/
  single : ∀ l ∈ lines, l.alignment = .left ∨ l.words.length = 1 →
    l.draw col = [⟨[0x20].intercalate l.words, col.x, l.y⟩]
  level : ∀ l ∈ lines, ∀ word ∈ l.draw col, word.y = l.y

theorem setParagraph_nil (col : Column K) {para : Text} (h : rawWords para = []) :
    SetParagraph col para [] := by
  have hnone : ∀ {P : Line K → Prop}, ∀ l ∈ ([] : List (Line K)), P l :=
    fun _ hl => absurd hl List.not_mem_nil
  refine ⟨?_, hnone, hnone, List.isChain_nil, hnone, hnone, hnone, hnone⟩
  rw [h]
  rfl

theorem drawLineJustified_of_two {col : Column K} {words : List Text}
    (hwords : 2 ≤ words.length) (y : K) :
    drawLineJustified col words y =
      (spread col.getStringWidth (evenGap col.getStringWidth col.width words) col.x words).map
        fun p => ⟨p.1, p.2, y⟩ := by
  match words, hwords with
  | _ :: _ :: _, _ => rfl

theorem draw_single (col : Column K) {l : Line K}
    (h : l.alignment = .left ∨ l.words.length = 1) :
    l.draw col = [⟨[0x20].intercalate l.words, col.x, l.y⟩] := by
  unfold Line.draw
  cases halign : l.alignment with
  | left => rfl
  | justified =>
    obtain ⟨word, hword⟩ := List.length_eq_one_iff.mp (h.resolve_left (by simp [halign]))
    simp [hword, drawLineJustified]

theorem draw_level (col : Column K) (l : Line K) : ∀ word ∈ l.draw col, word.y = l.y := by
  intro word hword
  unfold Line.draw at hword
  split at hword
  · unfold drawLineJustified at hword
    split at hword
    · exact absurd hword List.not_mem_nil
    · rw [List.mem_singleton.mp hword]
    · obtain ⟨p, -, rfl⟩ := List.mem_map.mp hword
      rfl
  · rw [List.mem_singleton.mp hword]

variable [IsStrictOrderedRing K]

theorem drawLineJustified_spec {col : Column K} {words : List Text}
    (hwords : 2 ≤ words.length)
    (hfits : lineWidth col.getStringWidth col.spaceWidth words ≤ col.width) (y : K) :
    Justified col words (drawLineJustified col words y) := by
  have hne : words ≠ [] := List.ne_nil_of_length_pos (by omega)
  rw [drawLineJustified_of_two hwords]
  constructor
  · rw [List.map_map]
    exact spread_items _ _ _ words
  · obtain ⟨word, rest, hhead⟩ := spread_head col.getStringWidth
      (evenGap col.getStringWidth col.width words) col.x hne
    rw [hhead]
    exact ⟨_, rfl, rfl⟩
  · rw [List.isChain_map]
    refine (spread_gaps _ _ _ words).imp ?_
    intro p q hgap
    show p.2 + col.getStringWidth p.1 + col.spaceWidth ≤ q.2
    rw [← hgap]
    gcongr
    exact le_evenGap _ hwords hfits
  · obtain ⟨p, hp, hend⟩ := spread_end col.getStringWidth
      (evenGap col.getStringWidth col.width words) col.x hne
    rw [lineWidth_evenGap _ _ hwords] at hend
    refine ⟨⟨p.1, p.2, y⟩, ?_, hend⟩
    rw [List.getLast?_map, hp]
    rfl

/-- Lines filled with the words of a paragraph and set from `y` are as they should be. -/
theorem setLines_spec {col : Column K} {para : Text} {ls : List (List Text)}
    (h : Filled col.getStringWidth col.spaceWidth col.width ((rawWords para).map sanitize) ls)
    (y : K) : SetParagraph col para (setLines col y ls) := by
  have hwords : (setLines col y ls).map Line.words = ls := setLines_words y h.nonempty
  have hmem : ∀ l ∈ setLines col y ls, l.words ∈ ls := by
    intro l hl
    rw [← hwords]
    exact List.mem_map_of_mem hl
  have hfits : ∀ l ∈ setLines col y ls, 2 ≤ l.words.length →
      lineWidth col.getStringWidth col.spaceWidth l.words ≤ col.width :=
    fun l hl => h.fits _ (hmem l hl)
  refine ⟨?_, fun l hl => h.nonempty _ (hmem l hl), hfits, ?_, setLines_justified y h.nonempty, ?_,
    fun l _ => draw_single col, fun l _ => draw_level col l⟩
  · rw [hwords]
    exact h.items
  · have hfull := h.full
    rw [← hwords, List.isChain_map] at hfull
    exact hfull
  · intro l hl halign htwo
    unfold Line.draw
    rw [halign]
    exact drawLineJustified_spec htwo (hfits l hl htwo) l.y

/-- The words are set from where the pen is, or one line below when the first is too wide. -/
theorem finish_words (col : Column K) (y : K) {words : List Text} (hwords : words ≠ []) :
    ∃ top ≤ y, ∃ ls, Filled col.getStringWidth col.spaceWidth col.width words ls ∧
      (words.foldl (Pen.add col) ⟨[], 0, y, []⟩).finish = setLines col top ls := by
  obtain ⟨word, rest, rfl⟩ := List.exists_cons_of_ne_nil hwords
  have hfilled := fill_spec col.getStringWidth col.spaceWidth col.width rest
    (List.cons_ne_nil word []) fun htwo => absurd htwo (by simp)
  rw [finish_foldl_add, List.nil_append, lines_fill_start]
  split
  · exact ⟨y, le_refl y, _, hfilled, rfl⟩
  · refine ⟨y - col.lineSpacing, sub_le_self y col.lineSpacing_pos.le, _, hfilled, ?_⟩
    obtain ⟨tail, below, hlines⟩ := lines_fill_head col.getStringWidth col.spaceWidth col.width
      rest [word] (col.getStringWidth word)
    have hone : lineWidth col.getStringWidth col.spaceWidth [word] = col.getStringWidth word := rfl
    rw [hone, hlines]
    rfl

/-! ### What the text looks like -/

/-- A paragraph keeps between the place the pen comes from and the one it goes to. -/
structure Between (top bottom : K) (lines : List (Line K)) : Prop where
  bottom_le : bottom ≤ top
  lower : lines.Pairwise fun l l' => l'.y < l.y
  within : ∀ l ∈ lines, l.y ≤ top ∧ bottom < l.y

theorem drawParagraph_spec (col : Column K) (y : K) (para : Text) :
    SetParagraph col para (drawParagraph col y para).1 ∧
      Between y (drawParagraph col y para).2 (drawParagraph col y para).1 := by
  have hspacing := col.lineSpacing_pos
  rw [drawParagraph]
  split
  · next hblank =>
    refine ⟨setParagraph_nil col (rawWords_of_blank hblank), sub_le_self y hspacing.le, .nil, ?_⟩
    exact fun _ hl => absurd hl List.not_mem_nil
  dsimp only
  split
  · next hwords =>
    exact ⟨setParagraph_nil col hwords, le_refl y, .nil, fun _ hl => absurd hl List.not_mem_nil⟩
  · next hwords =>
    obtain ⟨top, htop, ls, hfilled, hfinish⟩ :=
      finish_words col y (List.map_eq_nil_iff.not.mpr hwords)
    generalize ((rawWords para).map sanitize).foldl (Pen.add col) ⟨[], 0, y, []⟩ = pen at hfinish
    have hset := setLines_spec hfilled top
    have hlower : (setLines col top ls).Pairwise fun l l' => l'.y < l.y := setLines_lower top ls
    have hle : ∀ l ∈ setLines col top ls, l.y ≤ top := setLines_le top ls
    rw [← hfinish] at hset hlower hle
    have hlast : (⟨pen.currentLineWords, pen.currentY, .left⟩ : Line K) ∈ pen.finish :=
      List.mem_append_right _ (List.mem_singleton.mpr rfl)
    rw [if_neg (hset.nonempty _ hlast)]
    have hbottom : pen.currentY - col.lineSpacing - col.lineSpacing * (2 / 5) < pen.currentY := by
      linarith
    refine ⟨hset, ?_, hlower, fun l hl => ⟨(hle l hl).trans htop, ?_⟩⟩
    · exact hbottom.le.trans ((hle _ hlast).trans htop)
    · -- the pen is on the last line, and the other lines are above it
      rcases List.mem_append.mp hl with hl | hl
      · exact hbottom.trans
          ((List.pairwise_append.mp hlower).2.2 l hl _ (List.mem_singleton.mpr rfl))
      · rw [List.mem_singleton.mp hl]
        exact hbottom

/-- The paragraphs one by one, each below the ones before it. -/
theorem drawParagraphs_spec (col : Column K) (y : K) (paras : List Text) :
    List.Forall₂ (SetParagraph col) paras (drawParagraphs col y paras) ∧
      ((drawParagraphs col y paras).flatten.Pairwise fun l l' => l'.y < l.y) ∧
      ∀ l ∈ (drawParagraphs col y paras).flatten, l.y ≤ y := by
  induction paras generalizing y with
  | nil => exact ⟨.nil, List.Pairwise.nil, fun l hl => absurd hl List.not_mem_nil⟩
  | cons para rest ih =>
    obtain ⟨hset, hbetween⟩ := drawParagraph_spec col y para
    obtain ⟨hsets, hlower, hle⟩ := ih (drawParagraph col y para).2
    rw [drawParagraphs, List.flatten_cons]
    refine ⟨.cons hset hsets, List.pairwise_append.mpr ⟨hbetween.lower, hlower, ?_⟩, ?_⟩
    · intro l hl l' hl'
      exact (hle l' hl').trans_lt (hbetween.within l hl).2
    · intro l hl
      rcases List.mem_append.mp hl with hl | hl
      · exact (hbetween.within l hl).1
      · exact (hle l hl).trans hbetween.bottom_le

/-- **Laying out a text loses nothing and overlaps nothing.** What is drawn are lines, those of
each paragraph in turn; each paragraph's lines hold its words as they should, and every line is
below the ones before it. -/
theorem paragraph_layout (col : Column K) (text : Text) (yStart : K) :
    ∃ lines : List (List (Line K)),
      drawParagraphJustified col text yStart = lines.flatten.flatMap (Line.draw col) ∧
      List.Forall₂ (SetParagraph col) (paragraphs text) lines ∧
      lines.flatten.Pairwise fun l l' => l'.y < l.y := by
  obtain ⟨hsets, hlower, -⟩ := drawParagraphs_spec col yStart (paragraphs text)
  exact ⟨drawParagraphs col yStart (paragraphs text), rfl, hsets, hlower⟩

/-- Letters one wide, five to a line. -/
def fiveWide : Column ℚ := ⟨0, 5, 1, fun text => text.length, one_pos⟩

theorem paragraph_layout_fiveWide :
    (drawParagraphs fiveWide 9 (paragraphs [0x61, 0x62, 0x20, 0x63, 0x20, 0x64, 0x65, 0x66])).map
        (List.map Line.words) = [[[[0x61, 0x62], [0x63]], [[0x64, 0x65, 0x66]]]] ∧
      ∃ lines : List (List (Line ℚ)),
        drawParagraphJustified fiveWide [0x61, 0x62, 0x20, 0x63, 0x20, 0x64, 0x65, 0x66] 9 =
          lines.flatten.flatMap (Line.draw fiveWide) ∧
        List.Forall₂ (SetParagraph fiveWide)
          (paragraphs [0x61, 0x62, 0x20, 0x63, 0x20, 0x64, 0x65, 0x66]) lines ∧
        lines.flatten.Pairwise fun l l' => l'.y < l.y :=
  ⟨by decide +kernel, paragraph_layout fiveWide _ 9⟩

end CarRental.PdfService
