import Mathlib.Algebra.Order.Field.Basic
import Mathlib.Data.List.Chain
import Mathlib.Tactic.Linarith
import Mathlib.Tactic.Ring

/-!
# CarRental.Lib.LineFilling

**Greedy line filling.** Items with a size are put on lines of a given limit, as
many as fit on each, with a gap between neighbours. The loop carries the open line
and the width it has used so far; `fill` is that loop, and returns the lines it
closed and the one that is open at the end.

`fill_spec` is what such a loop guarantees. Its invariant is that the width carried
along is the width of the open line (`lineWidth`), and that an open line of two or
more items is within the limit. A single item may be beyond it: nothing can be
done about an item that is larger than the limit, and it stays alone.

`spread` places the items of a line with a constant gap, and `evenGap` is the gap
that makes the line end at the limit.
-/

namespace Lib

variable {α K : Type}

/-- The width of a line: its items, and a gap between neighbours. -/
def lineWidth [Add K] [Zero K] (size : α → K) (gap : K) : List α → K
  | [] => 0
  | [a] => size a
  | a :: b :: rest => size a + gap + lineWidth size gap (b :: rest)

theorem lineWidth_concat [AddMonoid K] (size : α → K) (gap : K) {line : List α} (hline : line ≠ [])
    (a : α) : lineWidth size gap (line ++ [a]) = lineWidth size gap line + (gap + size a) := by
  induction line with
  | nil => exact absurd rfl hline
  | cons b rest ih =>
    cases rest with
    | nil => simp [lineWidth, add_assoc]
    | cons c rest =>
      have hrest := ih (List.cons_ne_nil c rest)
      simp only [List.cons_append, lineWidth] at hrest ⊢
      rw [hrest, add_assoc _ (lineWidth size gap (c :: rest))]

/-! ### Filling -/

section Filling

variable [AddMonoid K] [LinearOrder K]

/-- The gap in front of the next item: none on an empty line. -/
def spacing (gap : K) (line : List α) : K := if line = [] then 0 else gap

/-- Fill lines from the open one. The closed lines are returned, then the open one. -/
def fill (size : α → K) (gap limit : K) (line : List α) (used : K) :
    List α → List (List α) × List α
  | [] => ([], line)
  | a :: rest =>
    if used + spacing gap line + size a ≤ limit then
      fill size gap limit (line ++ [a]) (used + (spacing gap line + size a)) rest
    else
      let filled := fill size gap limit [a] (size a) rest
      (line :: filled.1, filled.2)

/-- What comes out, line by line. -/
def lines (filled : List (List α) × List α) : List (List α) := filled.1 ++ [filled.2]

variable (size : α → K) (gap limit : K)

theorem fill_of_le {line : List α} {used : K} {a : α} (items : List α)
    (h : used + spacing gap line + size a ≤ limit) :
    fill size gap limit line used (a :: items) =
      fill size gap limit (line ++ [a]) (used + (spacing gap line + size a)) items := if_pos h

theorem lines_fill_of_lt {line : List α} {used : K} {a : α} (items : List α)
    (h : limit < used + spacing gap line + size a) :
    lines (fill size gap limit line used (a :: items)) =
      line :: lines (fill size gap limit [a] (size a) items) := by
  unfold lines
  rw [fill, if_neg (not_le.mpr h)]
  rfl

/-- The first line that comes out begins with the line that was open. -/
theorem lines_fill_head (items : List α) (line : List α) (used : K) :
    ∃ tail rest, lines (fill size gap limit line used items) = (line ++ tail) :: rest := by
  induction items generalizing line used with
  | nil => exact ⟨[], [], by simp [fill, lines]⟩
  | cons a items ih =>
    rcases le_or_gt (used + spacing gap line + size a) limit with h | h
    · rw [fill_of_le size gap limit items h]
      obtain ⟨tail, rest, htail⟩ := ih (line ++ [a]) (used + (spacing gap line + size a))
      refine ⟨a :: tail, rest, ?_⟩
      rw [htail, List.append_assoc, List.singleton_append]
    · rw [lines_fill_of_lt size gap limit items h]
      exact ⟨[], _, by rw [List.append_nil]⟩

/-- What filling guarantees, for the lines `lines` made of `items`. -/
structure Filled (items : List α) (lines : List (List α)) : Prop where
  /-- Nothing is lost, added or moved. -/
  items : lines.flatten = items
  nonempty : ∀ l ∈ lines, l ≠ []
  /-- Lines of two or more items are within the limit. -/
  fits : ∀ l ∈ lines, 2 ≤ l.length → lineWidth size gap l ≤ limit
  /-- A closed line could not have taken the first item of the next. -/
  full : lines.IsChain fun l l' =>
    ∃ a, l'.head? = some a ∧ limit < lineWidth size gap l + (gap + size a)

/-- **What the loop guarantees**, from an open line whose width it knows. -/
theorem fill_spec (items : List α) {line : List α} (hline : line ≠ [])
    (hfits : 2 ≤ line.length → lineWidth size gap line ≤ limit) :
    Filled size gap limit (line ++ items)
      (lines (fill size gap limit line (lineWidth size gap line) items)) := by
  have hspacing : ∀ {line : List α}, line ≠ [] → spacing gap line = gap := fun h => if_neg h
  induction items generalizing line with
  | nil =>
    simp only [fill, lines, List.nil_append, List.append_nil]
    refine ⟨List.flatten_singleton, ?_, ?_, List.isChain_singleton _⟩
    · intro l hl
      rw [List.mem_singleton.mp hl]
      exact hline
    · intro l hl
      rw [List.mem_singleton.mp hl]
      exact hfits
  | cons a items ih =>
    rcases le_or_gt (lineWidth size gap line + spacing gap line + size a) limit with h | h
    · -- the item fits: the open line grows, and stays within the limit
      rw [fill_of_le size gap limit items h]
      rw [hspacing hline, add_assoc] at h
      rw [hspacing hline, ← lineWidth_concat size gap hline a]
      rw [← lineWidth_concat size gap hline a] at h
      have hgrown := ih (List.append_ne_nil_of_right_ne_nil line (List.cons_ne_nil a [])) fun _ => h
      rw [List.append_assoc, List.singleton_append] at hgrown
      exact hgrown
    · -- it does not: the line is closed, and the item opens the next one
      rw [lines_fill_of_lt size gap limit items h]
      rw [hspacing hline, add_assoc] at h
      have hrest := ih (List.cons_ne_nil a []) fun hlen => absurd hlen (by simp)
      have hone : lineWidth size gap [a] = size a := rfl
      obtain ⟨tail, rest, hhead⟩ := lines_fill_head size gap limit items [a] (size a)
      rw [hone, hhead] at hrest
      rw [hhead]
      refine ⟨?_, ?_, ?_, ?_⟩
      · rw [List.flatten_cons, hrest.items, List.singleton_append]
      · exact List.forall_mem_cons.mpr ⟨hline, hrest.nonempty⟩
      · exact List.forall_mem_cons.mpr ⟨hfits, hrest.fits⟩
      · exact List.isChain_cons_cons.mpr ⟨⟨a, rfl, h⟩, hrest.full⟩

/-- The first item always goes on the first line that is not empty: the lines are those of the
items after it, behind an empty line when it is larger than the limit. -/
theorem lines_fill_start (a : α) (items : List α) :
    lines (fill size gap limit [] 0 (a :: items)) =
      if size a ≤ limit then lines (fill size gap limit [a] (size a) items)
      else [] :: lines (fill size gap limit [a] (size a) items) := by
  have hspacing : spacing gap ([] : List α) = 0 := if_pos rfl
  split
  · next h =>
    rw [fill_of_le size gap limit items (by simpa [hspacing] using h), hspacing, zero_add, zero_add,
      List.nil_append]
  · next h =>
    exact lines_fill_of_lt size gap limit items (by simpa [hspacing] using h)

end Filling

/-! ### Spreading a line -/

section Spreading

/-- The items with the places they start at, a constant gap apart. -/
def spread [Add K] (size : α → K) (gap : K) (start : K) : List α → List (α × K)
  | [] => []
  | a :: rest => (a, start) :: spread size gap (start + (size a + gap)) rest

theorem spread_items [Add K] (size : α → K) (gap start : K) (line : List α) :
    (spread size gap start line).map Prod.fst = line := by
  induction line generalizing start with
  | nil => rfl
  | cons a rest ih => rw [spread, List.map_cons, ih]

theorem spread_head [Add K] (size : α → K) (gap start : K) {line : List α} (hline : line ≠ []) :
    ∃ a rest, spread size gap start line = (a, start) :: rest := by
  cases line with
  | nil => exact absurd rfl hline
  | cons a rest => exact ⟨a, _, rfl⟩

variable [AddCommMonoid K]

/-- Neighbours are the gap apart. -/
theorem spread_gaps (size : α → K) (gap start : K) (line : List α) :
    (spread size gap start line).IsChain fun p q => p.2 + size p.1 + gap = q.2 := by
  induction line generalizing start with
  | nil => exact List.isChain_nil
  | cons a rest ih =>
    cases rest with
    | nil => exact List.isChain_singleton _
    | cons b rest =>
      exact List.isChain_cons_cons.mpr ⟨add_assoc _ _ _, ih (start + (size a + gap))⟩

/-- The last item ends where the line does. -/
theorem spread_end (size : α → K) (gap start : K) {line : List α} (hline : line ≠ []) :
    ∃ p, (spread size gap start line).getLast? = some p ∧
      p.2 + size p.1 = start + lineWidth size gap line := by
  induction line generalizing start with
  | nil => exact absurd rfl hline
  | cons a rest ih =>
    cases rest with
    | nil => exact ⟨(a, start), rfl, rfl⟩
    | cons b rest =>
      obtain ⟨p, hp, hend⟩ := ih (start + (size a + gap)) (List.cons_ne_nil b rest)
      refine ⟨p, ?_, ?_⟩
      · rw [spread, List.getLast?_cons, hp]
        rfl
      · rw [hend, lineWidth, add_assoc]

end Spreading

section Even

/-- The gap that makes the items of a line end at the limit. -/
def evenGap [Field K] (size : α → K) (limit : K) (line : List α) : K :=
  (limit - (line.map size).sum) / (line.length - 1 : Nat)

theorem lineWidth_eq [CommRing K] (size : α → K) (gap : K) {line : List α} (hline : line ≠ []) :
    lineWidth size gap line = (line.map size).sum + (line.length - 1 : Nat) * gap := by
  induction line with
  | nil => exact absurd rfl hline
  | cons a rest ih =>
    cases rest with
    | nil => simp [lineWidth]
    | cons b rest =>
      have hrest := ih (List.cons_ne_nil b rest)
      rw [lineWidth, hrest]
      simp only [List.map_cons, List.sum_cons, List.length_cons, Nat.add_sub_cancel, Nat.cast_add,
        Nat.cast_one]
      ring

variable [Field K] [LinearOrder K] [IsStrictOrderedRing K]

/-- A line of two or more items ends at the limit when its gap is even ... -/
theorem lineWidth_evenGap (size : α → K) (limit : K) {line : List α} (hline : 2 ≤ line.length) :
    lineWidth size (evenGap size limit line) line = limit := by
  have hne : line ≠ [] := List.ne_nil_of_length_pos (by omega)
  have hcount : ((line.length - 1 : Nat) : K) ≠ 0 := by
    have hpos : 0 < line.length - 1 := by omega
    exact_mod_cast hpos.ne'
  rw [lineWidth_eq size _ hne, evenGap, mul_div_cancel₀ _ hcount]
  ring

/-- ... and the even gap is no smaller than one with which the line is within the limit. -/
theorem le_evenGap (size : α → K) {gap limit : K} {line : List α} (hline : 2 ≤ line.length)
    (hfits : lineWidth size gap line ≤ limit) : gap ≤ evenGap size limit line := by
  have hne : line ≠ [] := List.ne_nil_of_length_pos (by omega)
  have hcount : (0 : K) < (line.length - 1 : Nat) := by
    have hpos : 0 < line.length - 1 := by omega
    exact_mod_cast hpos
  rw [lineWidth_eq size gap hne] at hfits
  rw [evenGap, le_div_iff₀ hcount]
  linarith

end Even

end Lib
