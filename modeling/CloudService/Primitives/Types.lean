/-
  The machine-level types (`uint256.h`, `amount.h`, `script/standard.cpp`). Amounts are exact
  integers; what the source computes modulo `2^32` is explicit.
-/

import Mathlib.Algebra.Order.Ring.Int
import Mathlib.Data.List.Basic

namespace CloudService

/-! ## Fixed-width integers -/

/-- `CAmount`: an amount in the smallest unit of the coin. -/
abbrev CAmount := Int

/-- One coin (`COIN`). -/
def COIN : CAmount := 100000000

/-- Conversion to `uint32_t`. -/
def u32 (n : Nat) : Nat := n % 4294967296

/-- Subtraction of two `uint32_t` values, modulo `2^32`. -/
def subU32 (a b : Nat) : Nat := (a + (4294967296 - b % 4294967296)) % 4294967296

/-- The cast `(int)` of a `uint32_t` value. -/
def asInt32 (n : Nat) : Int :=
  if n % 4294967296 < 2147483648 then (n % 4294967296 : Nat)
  else ((n % 4294967296 : Nat) : Int) - 4294967296

/-- `+` and `+=` on `int64_t`, modulo `2^64`. -/
def addInt64 (a b : Int) : Int := (a + b).bmod 18446744073709551616

/-- `*` on `int64_t`, modulo `2^64`. -/
def mulInt64 (a b : Int) : Int := (a * b).bmod 18446744073709551616

/-- A loop that adds to an `int64_t`, from zero. -/
def sumInt64 (xs : List Int) : Int := xs.foldl addInt64 0

/-- Only the whole sum decides what the variable holds in the end. -/
theorem sumInt64_eq (xs : List Int) : sumInt64 xs = xs.sum.bmod 18446744073709551616 := by
  have hFold : ∀ (xs : List Int) (a : Int), xs.foldl addInt64 (a.bmod 18446744073709551616) =
      (a + xs.sum).bmod 18446744073709551616 := by
    intro xs
    induction xs with
    | nil => intro a; simp
    | cons x xs ih =>
      intro a
      rw [List.foldl_cons, addInt64, Int.bmod_add_bmod, ih, List.sum_cons, Int.add_assoc]
  have hZero := hFold xs 0
  rw [Int.zero_add] at hZero
  exact hZero

/-- `++` on a `uint8_t` counter. -/
def incU8 (n : Nat) : Nat := (n + 1) % 256

/-- The cast `(uint32_t)` of an `int`. -/
def u32OfInt (i : Int) : Nat := (i % 4294967296).toNat

/-! ## Bytes and hashes -/

/-- `std::vector<unsigned char>`. -/
abbrev Bytes := List UInt8

/-- The hexadecimal digit of a nibble. -/
def hexDigit (n : Nat) : Char :=
  if n < 10 then Char.ofNat (48 + n) else Char.ofNat (87 + n)

/-- `HexStr`: two lower-case hexadecimal digits for each byte. -/
def hexStr (b : Bytes) : String :=
  String.ofList (b.flatMap fun x => [hexDigit (x.toNat / 16), hexDigit (x.toNat % 16)])

/-- The value of a hexadecimal digit, if the character is one. -/
def hexValue (c : Char) : Option Nat :=
  if '0' ≤ c ∧ c ≤ '9' then some (c.toNat - 48)
  else if 'a' ≤ c ∧ c ≤ 'f' then some (c.toNat - 87)
  else if 'A' ≤ c ∧ c ≤ 'F' then some (c.toNat - 55)
  else none

/-- The digit pairs read by `ParseHex`, up to the first character that is not a
    hexadecimal digit. -/
def parseHexDigits : List Char → Bytes
  | a :: b :: rest =>
    match hexValue a, hexValue b with
    | some x, some y => UInt8.ofNat (16 * x + y) :: parseHexDigits rest
    | _, _ => []
  | _ => []

/-- `ParseHex` on strings without white space. -/
def parseHex (s : String) : Bytes := parseHexDigits s.toList

/-- The bytes of a `std::string`. -/
def strBytes (s : String) : Bytes := s.toUTF8.data.toList

/-- The number whose little-endian representation is the byte vector
    (`UintToArith256(uint256(bytes))`). -/
def leNat : Bytes → Nat
  | [] => 0
  | b :: bs => b.toNat + 256 * leNat bs

/-- `CPubKey`, as its serialised bytes (empty when invalid). -/
abbrev CPubKey := Bytes

abbrev Uint256 := BitVec 256

instance Uint256.transOrd : Std.TransOrd Uint256 := BitVec.instTransOrd

def Uint256.isNull (x : Uint256) : Bool := x == 0

/-- The 32 bytes `uint256::begin() .. end()`. -/
def Uint256.bytes (x : Uint256) : Bytes :=
  (List.range 32).map fun i => UInt8.ofNat (x.toNat / 256 ^ i % 256)

/-- `uint256::GetHex`: the bytes from the last to the first. -/
def Uint256.getHex (x : Uint256) : String := hexStr x.bytes.reverse

/-! ## Outpoints, outputs and destinations -/

/-- `COutPoint`: a transaction id and an output index. -/
structure COutPoint where
  hash : Uint256 := 0
  n : Nat := 4294967295
deriving Repr, DecidableEq

def COutPoint.isNull (o : COutPoint) : Bool := o.hash.isNull && o.n == 4294967295

/-- The order of `COutPoint`: by transaction id, then by index. -/
instance : Ord COutPoint where
  compare := compareLex (compareOn COutPoint.hash) (compareOn COutPoint.n)

instance : Std.TransOrd COutPoint :=
  inferInstanceAs (Std.TransCmp (compareLex (compareOn COutPoint.hash) (compareOn COutPoint.n)))

instance : Std.LawfulEqOrd COutPoint where
  eq_of_compare := by
    intro a b h
    change compareLex _ _ a b = .eq at h
    rw [compareLex_eq_eq] at h
    obtain ⟨hHash, hIndex⟩ := h
    simp only [compareOn, Std.compare_eq_iff_eq] at hHash hIndex
    cases a
    cases b
    simp_all

/-- `CScript`, as its bytes. -/
abbrev CScript := Bytes

/-- `CScript::IsUnspendable`: `OP_RETURN` first, or longer than `MAX_SCRIPT_SIZE`. -/
def isUnspendable (s : CScript) : Bool := s.head? == some 0x6a || decide (10000 < s.length)

structure CTxOut where
  nValue : CAmount := -1
  scriptPubKey : CScript := []
deriving Repr, DecidableEq

def CTxOut.isNull (o : CTxOut) : Bool := o.nValue == -1

/-- `CTxIn` (only the outpoint it spends is read by the modelled code). -/
structure CTxIn where
  prevout : COutPoint
deriving Repr, DecidableEq

/-- `CTxDestination`: the alternatives of the variant. Hashes are raw bytes. -/
inductive CTxDestination where
  | noDestination
  | keyID (hash : Bytes)
  | scriptID (hash : Bytes)
deriving Repr, DecidableEq

def isValidDestination : CTxDestination → Bool
  | .noDestination => false
  | _ => true

/-- `GetScriptForDestination`: `OP_DUP OP_HASH160 <hash> OP_EQUALVERIFY OP_CHECKSIG`
    for a key hash, `OP_HASH160 <hash> OP_EQUAL` for a script hash. -/
def getScriptForDestination : CTxDestination → CScript
  | .noDestination => []
  | .keyID hash => [0x76, 0xa9, UInt8.ofNat hash.length] ++ hash ++ [0x88, 0xac]
  | .scriptID hash => [0xa9, UInt8.ofNat hash.length] ++ hash ++ [0x87]

end CloudService
