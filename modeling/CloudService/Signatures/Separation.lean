/-
  Which kinds of transactions can sign one message: the numerals at the end, the length and
  the first character separate most pairs.
-/

import CloudService.Signatures.Layout

namespace CloudService

open Numerals List

/-! ## What is read off a message -/

section Separated

variable {feeBase : CAmount} {e size head run length code : Nat} {k₁ k₂ : MsgKind}

variable {env : Env} {tx : CTransaction} {k : MsgKind}

end Separated

/-! ## Separation -/

end CloudService
