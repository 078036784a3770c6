/-
  The characters of decimal and hexadecimal numerals, and that a decimal numeral determines
  its number.
-/

import Mathlib.Data.Nat.Basic

namespace Numerals

variable {n m : Nat} {c : Char}

/-- A lower-case hexadecimal digit. -/
def isHexDigit (c : Char) : Bool := c.isDigit || ['a', 'b', 'c', 'd', 'e', 'f'].contains c

theorem isHexDigit_digitChar (h : n < 16) : isHexDigit n.digitChar = true := by
  have hAll : ∀ i < 16, isHexDigit i.digitChar = true := by decide
  exact hAll n h

theorem digitChar_inj (hn : n < 16) (hm : m < 16) (h : n.digitChar = m.digitChar) : n = m := by
  have hAll : ∀ i < 16, ∀ j < 16, i.digitChar = j.digitChar → i = j := by decide
  exact hAll n hn m hm h

theorem isHexDigit_of_mem_toDigits (h : c ∈ Nat.toDigits 10 n) : isHexDigit c = true := by
  have hDigit := Nat.isDigit_of_mem_toDigits (by decide) (by decide) h
  simp [isHexDigit, hDigit]

theorem toDigits_ten_inj (h : Nat.toDigits 10 n = Nat.toDigits 10 m) : n = m := by
  rw [← Nat.ofDigitChars_ten_toDigits (n := n), h, Nat.ofDigitChars_ten_toDigits]

end Numerals
