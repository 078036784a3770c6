/-
  The messages that each kind of transaction can sign for a given signer, and the pairs of kinds
  with a message in common.
-/

import CloudService.Chain.Evaluate
import CloudService.Signatures.Separation

namespace CloudService

open Numerals List

/-! ## The messages of a kind -/

variable {env : Env} {a : String} {p q t x y : List Char} {n i : Nat}

section Ones

variable (ha : KeyText a)
include ha

end Ones

section Request

variable (ha : KeyText a) (hBase : env.params.nOPoIFeeBase < 2 ^ 63)
include ha hBase

end Request

/-! ## The table -/

def feeParams : Params :=
  { sampleParams with nOPoIFeeBase := 100000, nOPoIFeePerToken := 10000 }

def minerAddress : String := "t1MinerMinerMinerMinerMinerMinerMin"

end CloudService
