/-
  Where the fields of a signed message stand. There are no separators, but an address has a
  character that is in no numeral.
-/

import CloudService.Library.Trailing
import CloudService.Primitives.Hex
import CloudService.Signatures.Messages

namespace CloudService

open Numerals List

/-! ## Numerals and addresses -/

/-- A character of a numeral: a hexadecimal digit or the sign of a negative number. -/
def isFieldChar (c : Char) : Bool := isHexDigit c || c == '-'

theorem isFieldChar_of_isHexDigit {c : Char} (h : isHexDigit c = true) : isFieldChar c = true := by
  simp [isFieldChar, h]

theorem all_getHex (x : Uint256) : x.getHex.toList.all isFieldChar = true :=
  all_eq_true.mpr fun _ hMem => isFieldChar_of_isHexDigit (isHexDigit_of_mem_hexStr hMem)

theorem all_hexStr (b : Bytes) : (hexStr b).toList.all isFieldChar = true :=
  all_eq_true.mpr fun _ hMem => isFieldChar_of_isHexDigit (isHexDigit_of_mem_hexStr hMem)

theorem toList_toString_nat (n : Nat) : (toString n).toList = Nat.toDigits 10 n := by
  rw [Nat.toString_eq_repr, Nat.toList_repr]

theorem all_toString_nat (n : Nat) : (toString n).toList.all isFieldChar = true := by
  rw [toList_toString_nat]
  exact all_eq_true.mpr fun _ hMem =>
    isFieldChar_of_isHexDigit (isHexDigit_of_mem_toDigits hMem)

theorem toList_toString_of_nonneg {i : Int} (h : 0 ≤ i) :
    (toString i).toList = Nat.toDigits 10 i.toNat := by
  rw [Int.toString_eq_repr, Int.repr_eq_if, if_pos h, Nat.toList_repr]

theorem all_toString_int (i : Int) : (toString i).toList.all isFieldChar = true := by
  by_cases h : 0 ≤ i
  · rw [toList_toString_of_nonneg h, ← toList_toString_nat]
    exact all_toString_nat _
  · rw [Int.toString_eq_repr, Int.repr_eq_if, if_neg h, String.toList_append, all_append,
      ← Nat.toString_eq_repr, all_toString_nat]
    decide

/-- The characters of `isspace`. -/
def isSpace (c : Char) : Bool := c == ' ' || (9 ≤ c.toNat && c.toNat ≤ 13)

/-- A text in which `DecodeBase58` finds a key address. It skips spaces on both sides, and ends at
    a NUL, whatever follows. The address has the version bytes `base58Prefixes[PUBKEY_ADDRESS]`,
    which are `1CB8` (addresses `t1...`) or `1D25` (addresses `tm...`). -/
def KeyText (a : String) : Prop :=
  ∃ before address after rest : List Char, a.toList = before ++ (address ++ (after ++ rest)) ∧
    before.all isSpace = true ∧ address.length = 35 ∧ address.head? = some 't' ∧
    address.all Char.isAlphanum = true ∧ after.all isSpace = true ∧
    (rest = [] ∨ rest.head? = some (Char.ofNat 0))

variable {a : String} {p t : List Char}

theorem KeyText.mem (h : KeyText a) : 't' ∈ a.toList := by
  obtain ⟨_, _, _, _, hText, _, _, hFirst, _⟩ := h
  rw [hText]
  exact mem_append_right _ (mem_append_left _ (mem_of_head? hFirst))

section Parts

variable (tx : CTransaction)

def front : MsgKind → String
  | .request | .responseCommit | .responseReveal | .challengeCommit | .challengeReveal =>
    tx.opoiRequestId
  | .stake | .auditorVerify => ""
  | .unstake => "UNSTAKE"
  | .renew => "RENEW"
  | .modelRegister | .modelVote => tx.opoiModelId
  | .coordinatorClaim => "COORD" ++ tx.opoiRequestId
  | .shardResult => "SHARD" ++ tx.opoiRequestId ++ toString tx.opoiShardIndex

def middle : MsgKind → String
  | .request => tx.opoiModel
  | .auditorVerify => tx.opoiRequestId
  | _ => ""

def numerals : MsgKind → String
  | .request =>
    tx.opoiPromptHash.getHex ++ toString tx.opoiMaxTokens ++ toString tx.opoiPayment ++
      toString tx.opoiFeePerToken ++ toString tx.opoiTaskType ++ toString tx.opoiTaskClass ++
      tx.opoiTestSuite.getHex ++ toString tx.opoiPromptTokenCount ++ toString tx.opoiIsCanary
  | .responseCommit => hexStr tx.opoiResponseCommitHash
  | .responseReveal | .shardResult =>
    tx.opoiResponseHash.getHex ++ tx.opoiCommitment.getHex ++ toString tx.opoiTokenCount
  | .stake => tx.opoiCollateralIn.hash.getHex ++ toString tx.opoiCollateralIn.n
  | .unstake | .renew | .coordinatorClaim => ""
  | .challengeCommit =>
    hexStr tx.opoiCommitHash ++ tx.opoiChallengerCollateralIn.hash.getHex ++
      toString tx.opoiChallengerCollateralIn.n
  | .challengeReveal => hexStr tx.opoiProofData ++ hexStr tx.opoiChallengeNonce
  | .modelRegister => toString tx.opoiModelArchType ++ tx.opoiPomRoot.getHex
  | .modelVote => toString tx.opoiModelVoteApprove
  | .auditorVerify =>
    tx.opoiAuditorCollateralIn.hash.getHex ++ toString tx.opoiAuditorCollateralIn.n ++
      toString tx.opoiShardIndex

theorem sigMsg_eq (k : MsgKind) :
    sigMsg tx k = front tx k ++ (signer tx k ++ (middle tx k ++ numerals tx k)) := by
  cases k <;>
    simp only [sigMsg, front, signer, middle, numerals, requestSigMsg, responseCommitSigMsg,
      responseRevealSigMsg, stakeSigMsg, unstakeSigMsg, renewSigMsg, challengeCommitSigMsg,
      challengeRevealSigMsg, modelRegisterSigMsg, modelVoteSigMsg, coordinatorClaimSigMsg,
      shardResultSigMsg, auditorVerifySigMsg, String.append_assoc, String.empty_append,
      String.append_empty]

theorem toList_sigMsg (k : MsgKind) :
    (sigMsg tx k).toList = (front tx k).toList ++ ((signer tx k).toList ++
      ((middle tx k).toList ++ (numerals tx k).toList)) := by
  rw [sigMsg_eq, String.toList_append, String.toList_append, String.toList_append]

theorem all_numerals (k : MsgKind) : (numerals tx k).toList.all isFieldChar = true := by
  cases k <;>
    simp only [numerals, String.toList_append, String.toList_empty, all_append, all_nil,
      all_getHex, all_hexStr, all_toString_nat, all_toString_int, Bool.and_self]

variable {tx} {k : MsgKind}

end Parts

/-! ## The lengths of the numerals -/

section Lengths

variable {env : Env} {tx : CTransaction} {k : MsgKind}

theorem length_archType (h : ShapeFits tx) : (toString tx.opoiModelArchType).toList.length = 1 := by
  rcases h.arch with hArch | hArch | hArch <;> rw [hArch] <;> decide

end Lengths

end CloudService
