/-
  What `HexStr` and `GetHex` write: two lower-case digits for each byte, and every text of
  that form.
-/

import CloudService.Library.Numerals
import CloudService.Primitives.Types

namespace CloudService

open Numerals List

/-! ## HexStr -/

theorem hexDigit_eq_digitChar {n : Nat} (h : n < 16) : hexDigit n = n.digitChar := by
  have hAll : ∀ i < 16, hexDigit i = i.digitChar := by decide
  exact hAll n h

/-- The two digits of a byte. -/
def hexPair (x : UInt8) : List Char := [hexDigit (x.toNat / 16), hexDigit (x.toNat % 16)]

theorem toList_hexStr (b : Bytes) : (hexStr b).toList = b.flatMap hexPair := by
  rw [hexStr, String.toList_ofList]
  rfl

theorem hexPair_eq (x : UInt8) :
    hexPair x = [(x.toNat / 16).digitChar, (x.toNat % 16).digitChar] := by
  have hLt := x.toNat_lt
  rw [hexPair, hexDigit_eq_digitChar (by omega), hexDigit_eq_digitChar (by omega)]

theorem hexPair_inj {x y : UInt8} (h : hexPair x = hexPair y) : x = y := by
  have hx := x.toNat_lt
  have hy := y.toNat_lt
  rw [hexPair_eq, hexPair_eq, List.cons.injEq, singleton_inj] at h
  have hHigh := digitChar_inj (by omega) (by omega) h.1
  have hLow := digitChar_inj (by omega) (by omega) h.2
  exact UInt8.toNat_inj.mp (by omega)

@[simp] theorem length_toList_hexStr (b : Bytes) : (hexStr b).toList.length = 2 * b.length := by
  rw [toList_hexStr]
  induction b with
  | nil => rfl
  | cons x b ih =>
    rw [flatMap_cons, length_append, ih, length_cons]
    simp only [hexPair, length_cons, length_nil]
    omega

theorem isHexDigit_of_mem_hexStr {b : Bytes} {c : Char} (h : c ∈ (hexStr b).toList) :
    isHexDigit c = true := by
  rw [toList_hexStr, mem_flatMap] at h
  obtain ⟨x, _, hMem⟩ := h
  have hLt := x.toNat_lt
  rw [hexPair_eq, mem_cons, mem_singleton] at hMem
  rcases hMem with rfl | rfl
  · exact isHexDigit_digitChar (by omega)
  · exact isHexDigit_digitChar (by omega)

theorem hexStr_inj {b b' : Bytes} (h : hexStr b = hexStr b') : b = b' := by
  have hChars := congrArg String.toList h
  rw [toList_hexStr, toList_hexStr] at hChars
  clear h
  induction b generalizing b' with
  | nil =>
    cases b' with
    | nil => rfl
    | cons y b' => simp [hexPair] at hChars
  | cons x b ih =>
    cases b' with
    | nil => simp [hexPair] at hChars
    | cons y b' =>
      obtain ⟨hHead, hTail⟩ := append_inj hChars rfl
      rw [hexPair_inj hHead, ih hTail]

theorem parseHex_hexStr (b : Bytes) : parseHex (hexStr b) = b := by
  have hValue : ∀ n < 16, hexValue (hexDigit n) = some n := by decide
  rw [parseHex, toList_hexStr]
  induction b with
  | nil => rfl
  | cons x b ih =>
    have hx := x.toNat_lt
    rw [flatMap_cons, hexPair, cons_append, cons_append, nil_append,
      parseHexDigits, hValue _ (by omega), hValue _ (by omega)]
    dsimp only
    rw [ih, Nat.div_add_mod, UInt8.ofNat_toNat]

theorem leNat_map_range (n k : Nat) :
    leNat ((List.range k).map fun i => UInt8.ofNat (n / 256 ^ i % 256)) = n % 256 ^ k := by
  induction k generalizing n with
  | zero => simp [leNat, Nat.mod_one]
  | succ k ih =>
    have hByte : (UInt8.ofNat (n % 256)).toNat = n % 256 :=
      UInt8.toNat_ofNat_of_lt (Nat.mod_lt n (by decide))
    have hTail : ∀ i, n / 256 ^ (i + 1) = n / 256 / 256 ^ i := by
      intro i
      rw [Nat.pow_succ', Nat.div_div_eq_div_mul]
    rw [range_succ_eq_map, map_cons, map_map, leNat, Nat.pow_zero, Nat.div_one,
      hByte, Nat.pow_succ', Nat.mod_mul, ← ih (n / 256)]
    simp only [Function.comp_def, Nat.succ_eq_add_one, hTail]

theorem leNat_bytes (x : Uint256) : leNat x.bytes = x.toNat := by
  rw [Uint256.bytes, leNat_map_range]
  exact Nat.mod_eq_of_lt x.isLt

theorem Uint256.bytes_inj {x y : Uint256} (h : x.bytes = y.bytes) : x = y := by
  have hNat := congrArg leNat h
  rw [leNat_bytes, leNat_bytes] at hNat
  exact BitVec.eq_of_toNat_eq hNat

@[simp] theorem Uint256.length_bytes (x : Uint256) : x.bytes.length = 32 := by
  simp [Uint256.bytes]

@[simp] theorem Uint256.length_toList_getHex (x : Uint256) : x.getHex.toList.length = 64 := by
  rw [Uint256.getHex, length_toList_hexStr, length_reverse, Uint256.length_bytes]

theorem Uint256.getHex_inj {x y : Uint256} (h : x.getHex = y.getHex) : x = y :=
  Uint256.bytes_inj (reverse_injective (hexStr_inj h))

end CloudService
