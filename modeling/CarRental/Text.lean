import CarRental.Lib.Numeral
import CarRental.Lib.Trim

/-!
# CarRental.Text

**Strings** of the two languages of the source. Java and Dart both count UTF-16 code
units, so a string is a list of those, lone surrogates included, wherever its units
matter (`Text`); elsewhere it is a `String`. Each language has its own notion of what
`trim` drops, which is the same for both kinds of strings.
-/

namespace CarRental

open Lib

/-- A UTF-16 code unit. -/
abbrev CodeUnit := UInt16

/-- A string as its code units. -/
abbrev Text := List CodeUnit

instance : Coe Char CodeUnit := ⟨fun c => UInt16.ofNat c.toNat⟩

/-- Between the fields of a date. -/
abbrev dash : CodeUnit := '-'
/-- Between the fields of a time. -/
abbrev colon : CodeUnit := ':'
/-- Between date and time. -/
abbrev timeMark : CodeUnit := 'T'

/-- A string of characters that are one code unit each. -/
def text (s : String) : Text := s.toList.map fun c => c

/-- The digits are the ASCII digits. -/
instance : DigitSigns CodeUnit where
  digit d := UInt16.ofNat (0x30 + d)
  digit? c := if 0x30 ≤ c ∧ c ≤ 0x39 then some (c.toNat - 0x30) else none
  digit?_digit := by
    intro d hd
    have hnat : (UInt16.ofNat (0x30 + d)).toNat = 0x30 + d := by simp; omega
    have hrange : 0x30 ≤ UInt16.ofNat (0x30 + d) ∧ UInt16.ofNat (0x30 + d) ≤ 0x39 := by
      simp only [UInt16.le_iff_toNat_le, hnat]
      exact ⟨Nat.le_add_right _ _, Nat.add_le_add_left (Nat.le_of_lt_succ hd) _⟩
    rw [if_pos hrange, hnat, Nat.add_sub_cancel_left]
  digit?_eq_some := by
    intro c d h
    split at h
    · next hrange =>
      simp only [UInt16.le_iff_toNat_le] at hrange
      have hlow : 0x30 ≤ c.toNat := hrange.1
      have hhigh : c.toNat ≤ 0x39 := hrange.2
      have hd : c.toNat - 0x30 = d := Option.some.inj h
      refine ⟨by omega, ?_⟩
      rw [← hd, Nat.add_sub_cancel' hlow, UInt16.ofNat_toNat]
    · exact absurd h (by simp)

/-- The same digits, as characters. -/
instance : DigitSigns Char where
  digit d := Char.ofNat (0x30 + d)
  digit? c := if 0x30 ≤ c.toNat ∧ c.toNat ≤ 0x39 then some (c.toNat - 0x30) else none
  digit?_digit := by
    intro d hd
    have hvalid : (0x30 + d).isValidChar := Or.inl (by omega)
    have hnat : (Char.ofNat (0x30 + d)).toNat = 0x30 + d := by
      rw [Char.ofNat, dif_pos hvalid]
      rfl
    rw [hnat, if_pos (by omega), Nat.add_sub_cancel_left]
  digit?_eq_some := by
    intro c d h
    split at h
    · next hrange =>
      have hd : c.toNat - 0x30 = d := Option.some.inj h
      refine ⟨by omega, ?_⟩
      rw [← hd, Nat.add_sub_cancel' hrange.1, Char.ofNat_toNat]
    · exact absurd h (by simp)

/-- What stands for an integer in a text. -/
def intText (n : Int) : Text := if n < 0 then '-' :: decimal n.natAbs else decimal n.natAbs

/-- `padLeft(w, '0')` of an integer -/
def padded (w : Nat) (n : Int) : Text := (intText n).leftpad w (DigitSigns.digit 0)

theorem intText_natCast (n : Nat) : intText (n : Int) = decimal n := by
  unfold intText
  rw [if_neg (by omega), Int.natAbs_natCast]

theorem padded_natCast {w n : Nat} (hw : 0 < w) (hn : n < 10 ^ w) :
    padded w (n : Int) = fixed w n := by
  unfold padded
  rw [intText_natCast, leftpad_decimal hw hn]

theorem padded_two {n : Nat} (h : n < 100) : padded 2 (n : Int) = fixed 2 n :=
  padded_natCast (by decide) h

/-- A date with four, two and two digits. -/
def isoDate (y m d : Nat) : Text := fixed 4 y ++ dash :: (fixed 2 m ++ dash :: fixed 2 d)

/-! ### Trimming -/

namespace Dart

/-- White space in the sense of Dart. -/
def isWhitespace (c : CodeUnit) : Bool :=
  (0x09 ≤ c && c ≤ 0x0D) || c = 0x20 || c = 0x85 || c = 0xA0 || c = 0x1680
    || (0x2000 ≤ c && c ≤ 0x200A) || c = 0x2028 || c = 0x2029 || c = 0x202F || c = 0x205F
    || c = 0x3000 || c = 0xFEFF

/-- `String.trim`, by code units -/
def trim (s : Text) : Text := trimEnds isWhitespace s

/-- White space as a character: all of it has one code unit. -/
def isBlank (c : Char) : Bool := c.toNat < 0x10000 && isWhitespace (UInt16.ofNat c.toNat)

/-- `String.trim`, by characters -/
def trimString (s : String) : String := String.ofList (trimEnds isBlank s.toList)

/-- The trimmed text, or `null` if nothing is left. -/
def trimOrNull (value : String) : Option String :=
  if trimString value = "" then none else some (trimString value)

@[simp] theorem trim_trim (s : Text) : trim (trim s) = trim s := trimEnds_trimEnds _ _

@[simp] theorem trimString_trimString (s : String) :
    trimString (trimString s) = trimString s := by
  unfold trimString
  rw [String.toList_ofList, trimEnds_trimEnds]

end Dart

namespace Java

/-- `String.trim`, by code units: what is dropped are the signs up to the blank. -/
def trim (s : Text) : Text := trimEnds (· ≤ 0x20) s

/-- `String.trim`, by characters -/
def trimString (s : String) : String := String.ofList (trimEnds (· ≤ ' ') s.toList)

end Java

end CarRental
