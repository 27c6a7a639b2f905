import CarRental.Text
import Mathlib.Data.List.Forall2
import Mathlib.Data.List.TakeDrop

/-!
# CarRental.Dialog.Matricule

The **registration number field** of the car form, `BidiMatriculeEditingController`.

A registration number mixes digits with an Arabic letter, and the bidirectional
layout would show it scrambled. So the field keeps its content between two hidden
marks, U+202D and U+202C, and rewraps every value that is assigned to it. The
cursor is moved along by a fixed `+ 1` when the assigned text has lost the leading
mark, and clamped to the new text.

The text comes out right for every value (`assign_text`, `assign_clean`). The cursor
does not: it stays at its place in the content exactly when no further mark lies
between the leading one and the cursor, or no content lies behind the cursor; and
when the content is empty it is not moved at all (`assigned_kept_iff`).

Lengths and offsets count UTF-16 code units, as in the source; both marks are one
unit.
-/

namespace CarRental.BidiMatriculeEditingController

/-- `_leftToRightOverride` -/
def leftToRightOverride : CodeUnit := 0x202D
/-- `_popDirectionalFormatting` -/
def popDirectionalFormatting : CodeUnit := 0x202C

/-! ### Values of a text field -/

/-- `TextAffinity` -/
inductive TextAffinity
  | upstream
  | downstream
  deriving DecidableEq

/-- `TextSelection`, in code units; -1 for none -/
structure TextSelection where
  baseOffset : Int
  extentOffset : Int
  affinity : TextAffinity := .downstream
  isDirectional : Bool := false
  deriving DecidableEq

/-- `TextSelection.collapsed` -/
def TextSelection.collapsed (offset : Int) : TextSelection where
  baseOffset := offset
  extentOffset := offset

/-- `TextRange` -/
structure TextRange where
  start : Int
  stop : Int
  deriving DecidableEq

/-- `TextRange.empty` -/
def TextRange.empty : TextRange := ⟨-1, -1⟩

/-- `TextEditingValue` -/
structure TextEditingValue where
  text : Text
  selection : TextSelection
  composing : TextRange := .empty
  deriving DecidableEq

/-- `TextEditingValue.empty` -/
def TextEditingValue.empty : TextEditingValue where
  text := []
  selection := .collapsed (-1)

/-! ### The controller -/

/-- `text.replaceAll(unit, '')` -/
def remove (unit : CodeUnit) (text : Text) : Text := text.filter (· ≠ unit)

/-- The text without the two marks. -/
def clean (text : Text) : Text :=
  remove popDirectionalFormatting (remove leftToRightOverride text)

/-- The text between the two marks. -/
def wrapped (content : Text) : Text :=
  leftToRightOverride :: (content ++ [popDirectionalFormatting])

/-- `_wrap` -/
def wrap (text : Text) : Text := if clean text = [] then [] else wrapped (clean text)

/-- The test the formatter makes. -/
def startsWithOverride (text : Text) : Bool := text.head? = some leftToRightOverride

/-- Where an offset goes: past the mark that is put in front, if it was missing, and not
beyond the end. -/
def place (text newText : Text) (offset : Int) : Int :=
  max 0 (min (if startsWithOverride text then offset else offset + 1) newText.length)

/-- The setter `value =`. What the field held before plays no part. -/
def assign (_ newValue : TextEditingValue) : TextEditingValue :=
  let content := clean newValue.text
  if content = [] then { newValue with text := [] }
  else
    { newValue with
      text := wrapped content
      selection :=
        { baseOffset := place newValue.text (wrapped content) newValue.selection.baseOffset
          extentOffset := place newValue.text (wrapped content) newValue.selection.extentOffset } }

/-- The inherited setter `text =`, which goes through `value =`. -/
def assignText (value : TextEditingValue) (text : Text) : TextEditingValue :=
  assign value { value with text := text, selection := .collapsed (-1), composing := .empty }

/-- The constructor. -/
def create (text : Option Text) : TextEditingValue :=
  match text with
  | none => .empty
  | some text => if text = [] then .empty else assignText .empty (wrap text)

/-- `cleanText` of a controller with this value. -/
def cleanText (value : TextEditingValue) : Text := clean value.text

/-- The setter `cleanText =`. -/
def assignCleanText (value : TextEditingValue) (text : Text) : TextEditingValue :=
  assignText value (wrap text)

/-- What the field holds after each of a sequence of assignments. -/
def assignAll (value : TextEditingValue) : List TextEditingValue → List TextEditingValue
  | [] => []
  | newValue :: rest => assign value newValue :: assignAll (assign value newValue) rest

/-! ### Marks and content -/

/-- One of the two hidden marks. -/
def IsMark (unit : CodeUnit) : Prop :=
  unit = leftToRightOverride ∨ unit = popDirectionalFormatting

instance (unit : CodeUnit) : Decidable (IsMark unit) := inferInstanceAs (Decidable (_ ∨ _))

theorem clean_eq_filter (text : Text) : clean text = text.filter (¬ IsMark ·) := by
  unfold clean remove
  rw [List.filter_filter]
  refine List.filter_congr fun unit _ => ?_
  by_cases hl : unit = leftToRightOverride <;> by_cases hp : unit = popDirectionalFormatting <;>
    simp [IsMark, hl, hp]

theorem not_isMark_of_mem_clean {text : Text} {unit : CodeUnit} (h : unit ∈ clean text) :
    ¬ IsMark unit := by
  rw [clean_eq_filter] at h
  simpa using (List.mem_filter.mp h).2

theorem clean_append (s t : Text) : clean (s ++ t) = clean s ++ clean t := by
  simp only [clean_eq_filter, List.filter_append]

/-- Content is not cleaned further. -/
theorem clean_of_no_mark {text : Text} (h : ∀ unit ∈ text, ¬ IsMark unit) : clean text = text := by
  rw [clean_eq_filter, List.filter_eq_self]
  simpa using h

theorem clean_length_eq_iff {text : Text} :
    (clean text).length = text.length ↔ ∀ unit ∈ text, ¬ IsMark unit := by
  rw [clean_eq_filter, List.length_filter_eq_length_iff]
  simp

theorem clean_length_le (text : Text) : (clean text).length ≤ text.length := by
  rw [clean_eq_filter]
  exact List.length_filter_le _ _

theorem clean_singleton_mark {unit : CodeUnit} (h : IsMark unit) : clean [unit] = [] := by
  rw [clean_eq_filter]
  simp [h]

theorem clean_wrapped {content : Text} (h : ∀ unit ∈ content, ¬ IsMark unit) :
    clean (wrapped content) = content := by
  unfold wrapped
  rw [← List.singleton_append, clean_append, clean_append, clean_of_no_mark h,
    clean_singleton_mark (Or.inl rfl), clean_singleton_mark (Or.inr rfl), List.nil_append,
    List.append_nil]

/-- The number of content units before an offset. -/
def contentBefore (text : Text) (offset : Int) : Nat := (clean (text.take offset.toNat)).length

theorem contentBefore_wrapped {content : Text} (h : ∀ unit ∈ content, ¬ IsMark unit) (n : Nat) :
    contentBefore (wrapped content) n = min (n - 1) content.length := by
  unfold contentBefore wrapped
  rw [Int.toNat_natCast]
  cases n with
  | zero => simp [clean_eq_filter]
  | succ n =>
    have hcontent : ∀ unit ∈ content.take n, ¬ IsMark unit :=
      fun unit hunit => h unit (List.mem_of_mem_take hunit)
    have hmark : clean ([popDirectionalFormatting].take (n - content.length)) = [] := by
      cases n - content.length with
      | zero => rw [List.take_zero]; simp [clean_eq_filter]
      | succ k =>
        rw [List.take_succ_cons, List.take_nil]
        exact clean_singleton_mark (Or.inr rfl)
    rw [List.take_succ_cons, ← List.singleton_append, clean_append,
      clean_singleton_mark (Or.inl rfl), List.take_append, clean_append, hmark,
      clean_of_no_mark hcontent, List.nil_append, List.append_nil, List.length_take]
    rfl

/-! ### What a value leaves -/

/-- Both offsets lie in the text. -/
structure InRange (value : TextEditingValue) : Prop where
  base : 0 ≤ value.selection.baseOffset ∧ value.selection.baseOffset ≤ value.text.length
  extent : 0 ≤ value.selection.extentOffset ∧ value.selection.extentOffset ≤ value.text.length

/-- Empty, or the two marks around content that has none. -/
def WellWrapped (text : Text) : Prop :=
  text = [] ∨ ∃ content, content ≠ [] ∧ leftToRightOverride ∉ content ∧
    popDirectionalFormatting ∉ content ∧ text = wrapped content

/-- The field holds the content of the assigned value, with both ends of the selection where
they were in it. -/
structure Kept (assigned value : TextEditingValue) : Prop where
  wrapped : WellWrapped value.text
  content : cleanText value = clean assigned.text
  inRange : InRange value
  base : contentBefore value.text value.selection.baseOffset =
    contentBefore assigned.text assigned.selection.baseOffset
  extent : contentBefore value.text value.selection.extentOffset =
    contentBefore assigned.text assigned.selection.extentOffset

theorem assign_of_empty (old : TextEditingValue) {v : TextEditingValue} (h : clean v.text = []) :
    assign old v = { v with text := [] } := if_pos h

theorem assign_of_content (old : TextEditingValue) {v : TextEditingValue} (h : clean v.text ≠ []) :
    assign old v =
      { v with
        text := wrapped (clean v.text)
        selection :=
          { baseOffset := place v.text (wrapped (clean v.text)) v.selection.baseOffset
            extentOffset := place v.text (wrapped (clean v.text)) v.selection.extentOffset } } :=
  if_neg h

theorem assign_text (old v : TextEditingValue) : WellWrapped (assign old v).text := by
  by_cases h : clean v.text = []
  · rw [assign_of_empty old h]
    exact Or.inl rfl
  · rw [assign_of_content old h]
    refine Or.inr ⟨clean v.text, h, ?_, ?_, rfl⟩
    · exact fun hmem => not_isMark_of_mem_clean hmem (Or.inl rfl)
    · exact fun hmem => not_isMark_of_mem_clean hmem (Or.inr rfl)

theorem assign_clean (old v : TextEditingValue) : cleanText (assign old v) = clean v.text := by
  by_cases h : clean v.text = []
  · rw [assign_of_empty old h, h]
    rfl
  · rw [assign_of_content old h]
    exact clean_wrapped fun _ => not_isMark_of_mem_clean

/-! ### Where the cursor goes -/

section Cursor

variable {text : Text} {offset : Int}

/-- The leading mark is not counted. -/
def lead (text : Text) : Nat := if startsWithOverride text then 1 else 0

/-- The part of the text before the cursor, without the leading mark. -/
def beforeCursor (text : Text) (offset : Int) : Text := (text.take offset.toNat).drop (lead text)

/-- No mark lies between the leading one and the cursor, or no content behind the cursor. -/
def Undisturbed (text : Text) (offset : Int) : Prop :=
  (∀ unit ∈ beforeCursor text offset, ¬ IsMark unit) ∨ clean (text.drop offset.toNat) = []

instance : Decidable (Undisturbed text offset) :=
  -- through the text, not through all code units
  have : Decidable (∀ unit ∈ beforeCursor text offset, ¬ IsMark unit) := List.decidableBAll _ _
  inferInstanceAs (Decidable (_ ∨ _))

theorem contentBefore_eq :
    contentBefore text offset = (clean (beforeCursor text offset)).length := by
  unfold contentBefore beforeCursor lead
  split
  · next hlead =>
    -- the unit that is dropped is the leading mark
    cases text with
    | nil => simp
    | cons unit rest =>
      have hunit : unit = leftToRightOverride := by simpa [startsWithOverride] using hlead
      cases offset.toNat with
      | zero => simp
      | succ n =>
        rw [List.take_succ_cons, List.drop_succ_cons, List.drop_zero, ← List.singleton_append,
          clean_append, clean_singleton_mark (Or.inl hunit), List.nil_append]
  · rw [List.drop_zero]

theorem length_beforeCursor (h : offset ≤ text.length) :
    (beforeCursor text offset).length = offset.toNat - lead text := by
  unfold beforeCursor
  rw [List.length_drop, List.length_take]
  omega

theorem content_split (text : Text) (offset : Int) : (clean text).length =
    contentBefore text offset + (clean (text.drop offset.toNat)).length := by
  unfold contentBefore
  rw [← List.length_append, ← clean_append, List.take_append_drop]

/-- The offset as the controller computes it, in natural numbers. -/
theorem place_eq {newText : Text} (h : 0 ≤ offset) :
    place text newText offset =
      ((min (offset.toNat + (1 - lead text)) newText.length : Nat) : Int) := by
  unfold place lead
  split <;> omega

theorem length_wrapped (content : Text) : (wrapped content).length = content.length + 2 := by
  simp [wrapped]

/-- The cursor keeps its place in the content exactly when it is undisturbed. -/
theorem contentBefore_place_iff (h₀ : 0 ≤ offset) (h : offset ≤ text.length) :
    contentBefore (wrapped (clean text)) (place text (wrapped (clean text)) offset) =
      contentBefore text offset ↔ Undisturbed text offset := by
  have hbefore := length_beforeCursor h
  have hsplit := content_split text offset
  have hle := clean_length_le (beforeCursor text offset)
  have hlead : lead text ≤ 1 := by
    unfold lead
    split <;> omega
  unfold Undisturbed
  rw [← clean_length_eq_iff, ← List.length_eq_zero_iff, place_eq h₀,
    contentBefore_wrapped fun _ => not_isMark_of_mem_clean, length_wrapped]
  rw [contentBefore_eq] at hsplit ⊢
  omega

end Cursor

/-- What the assigned value has to be like: an empty field with both ends of the selection at
its start, or both ends undisturbed. -/
def Settled (v : TextEditingValue) : Prop :=
  if clean v.text = [] then v.selection.baseOffset = 0 ∧ v.selection.extentOffset = 0
  else Undisturbed v.text v.selection.baseOffset ∧ Undisturbed v.text v.selection.extentOffset

instance (v : TextEditingValue) : Decidable (Settled v) :=
  inferInstanceAs (Decidable (if clean v.text = [] then _ ∧ _ else _ ∧ _))

theorem contentBefore_of_empty {text : Text} (h : clean text = []) (offset : Int) :
    contentBefore text offset = 0 := by
  have hsplit := content_split text offset
  rw [h, List.length_nil] at hsplit
  omega

theorem inRange_of_content (old : TextEditingValue) {v : TextEditingValue}
    (h : clean v.text ≠ []) : InRange (assign old v) := by
  rw [assign_of_content old h]
  constructor
  · unfold place
    dsimp only
    omega
  · unfold place
    dsimp only
    omega

/-- One assignment. -/
theorem kept_assign_iff (old : TextEditingValue) {v : TextEditingValue} (hv : InRange v) :
    Kept v (assign old v) ↔ Settled v := by
  have htext := assign_text old v
  have hclean := assign_clean old v
  unfold Settled
  by_cases hempty : clean v.text = []
  · -- the selection is passed on as it is, to a text without units
    rw [if_pos hempty]
    rw [assign_of_empty old hempty] at htext hclean ⊢
    constructor
    · intro hkept
      exact ⟨Int.le_antisymm hkept.inRange.base.2 hv.base.1,
        Int.le_antisymm hkept.inRange.extent.2 hv.extent.1⟩
    · intro hzero
      obtain ⟨hb, he⟩ := hzero
      have hnone := contentBefore_of_empty hempty
      refine ⟨htext, hclean, ⟨?_, ?_⟩, ?_, ?_⟩
      · simp [hb]
      · simp [he]
      · rw [hnone]
        exact contentBefore_of_empty rfl _
      · rw [hnone]
        exact contentBefore_of_empty rfl _
  · rw [if_neg hempty]
    have hrange := inRange_of_content old hempty
    rw [← contentBefore_place_iff hv.base.1 hv.base.2,
      ← contentBefore_place_iff hv.extent.1 hv.extent.2]
    rw [assign_of_content old hempty] at htext hclean hrange ⊢
    constructor
    · intro hkept
      exact ⟨hkept.base, hkept.extent⟩
    · intro hplaced
      exact ⟨htext, hclean, hrange, hplaced.1, hplaced.2⟩

/-- **Editing keeps content and cursor exactly when** every assigned value is settled, for any
sequence of assignments whose offsets lie in their texts. -/
theorem assigned_kept_iff (value : TextEditingValue) (values : List TextEditingValue)
    (hvalues : ∀ v ∈ values, InRange v) :
    List.Forall₂ Kept values (assignAll value values) ↔ ∀ v ∈ values, Settled v := by
  induction values generalizing value with
  | nil => simp [assignAll]
  | cons v rest ih =>
    have hv := hvalues v List.mem_cons_self
    have hrest := ih (assign value v) fun u hu => hvalues u (List.mem_cons_of_mem _ hu)
    rw [assignAll, List.forall₂_cons, List.forall_mem_cons, kept_assign_iff value hv, hrest]

/-- Two units are typed, the second one between the marks. -/
theorem assigned_kept_typing :
    List.Forall₂ Kept
      [⟨[0x41], .collapsed 1, .empty⟩,
        ⟨[leftToRightOverride, 0x41, 0x42, popDirectionalFormatting], .collapsed 3, .empty⟩]
      (assignAll (create none)
        [⟨[0x41], .collapsed 1, .empty⟩,
          ⟨[leftToRightOverride, 0x41, 0x42, popDirectionalFormatting], .collapsed 3,
            .empty⟩]) := by
  refine (assigned_kept_iff _ _ ?_).mpr (by decide)
  intro v hv
  rcases List.mem_pair.mp hv with rfl | rfl
  · exact ⟨by decide, by decide⟩
  · exact ⟨by decide, by decide⟩

/-- The value a backspace over the last unit of the content assigns: the marks are left, with
the cursor between them. -/
def backspaced : TextEditingValue where
  text := [leftToRightOverride, popDirectionalFormatting]
  selection := .collapsed 1

/-- The field becomes empty, and its cursor stays at offset 1. -/
theorem backspace_strands_cursor :
    InRange backspaced ∧
      assign (create (some [0x41])) backspaced = ⟨[], .collapsed 1, .empty⟩ ∧
      ¬ InRange (assign (create (some [0x41])) backspaced) := by
  refine ⟨⟨by decide, by decide⟩, by decide, fun h => ?_⟩
  exact absurd h.base.2 (by decide)

end CarRental.BidiMatriculeEditingController
