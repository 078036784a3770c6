/-
  The verifiable random function of opoi_vrf.cpp, over a group of prime order in place of
  libsecp256k1: the verifier accepts what the prover makes.
-/

import CloudService.OPoI.Check
import CloudService.Primitives.Hex
import Mathlib.Data.ZMod.Basic

namespace CloudService

/-- libsecp256k1 and SHA-256. `serialize` gives the compressed form of a point, which only the
    points other than infinity have. -/
structure Secp256k1 (G : Type) [AddCommGroup G] where
  order : Nat
  generator : G
  serialize : G → Bytes
  parse : Bytes → Option G
  sha256 : Bytes → Bytes
  order_prime : order.Prime
  order_lt : order < 2 ^ 256
  card_eq : Nat.card G = order
  generator_ne : generator ≠ 0
  length_serialize : ∀ P, (serialize P).length = 33
  length_sha256 : ∀ b, (sha256 b).length = 32
  parse_serialize : ∀ P, P ≠ 0 → parse (serialize P) = some P
  parse_ne : ∀ b, parse b ≠ some 0

namespace Secp256k1

variable {G : Type} [AddCommGroup G] (lib : Secp256k1 G)

/-! ## libsecp256k1 -/

/-- The number of a scalar in bytes, the most significant first. -/
def scalar (b : Bytes) : Nat := leNat b.reverse

/-- `secp256k1_scalar_get_b32`. -/
def getB32 (n : Nat) : Bytes := (Uint256.bytes (BitVec.ofNat 256 n)).reverse

/-- `secp256k1_scalar_set_b32` sees neither an overflow nor zero. -/
def isScalar (b : Bytes) : Bool := 0 < scalar b && scalar b < lib.order

def pubkeyCreate (seckey : Bytes) : Option G :=
  if lib.isScalar seckey then some (scalar seckey • lib.generator) else none

def pubkeyTweakMul (P : G) (tweak : Bytes) : Option G :=
  if lib.isScalar tweak then some (scalar tweak • P) else none

/-- `secp256k1_ec_pubkey_combine` of two points. -/
def pubkeyCombine [DecidableEq G] (P Q : G) : Option G := if P + Q = 0 then none else some (P + Q)

def privkeyTweakMul (seckey tweak : Bytes) : Option Bytes :=
  if lib.isScalar tweak then some (getB32 (scalar seckey * scalar tweak % lib.order)) else none

def privkeyTweakAdd (seckey tweak : Bytes) : Option Bytes :=
  let sum := (scalar seckey + scalar tweak) % lib.order
  if lib.order ≤ scalar tweak ∨ sum = 0 then none else some (getB32 sum)

/-! ## opoi_vrf.cpp -/

def SUITE : UInt8 := 0xC5
def DOM_HASH_TO_CURVE : UInt8 := 0x01
def DOM_CHALLENGE : UInt8 := 0x02
def DOM_PROOF_TO_HASH : UInt8 := 0x03
def DOM_NONCE : UInt8 := 0x04

def hashToCurve (pk alpha : Bytes) : Option G :=
  (List.range 255).findSome? fun ctr => lib.parse (0x02 ::
    lib.sha256 ([SUITE, DOM_HASH_TO_CURVE] ++ pk ++ alpha ++ [UInt8.ofNat ctr, 0]))

def challenge (H gamma U V : G) : Bytes :=
  (lib.sha256 ([SUITE, DOM_CHALLENGE] ++ lib.serialize H ++ lib.serialize gamma ++
    lib.serialize U ++ lib.serialize V ++ [0])).take 16

/-- The loop of `GenerateNonce`. -/
def firstScalar : Nat → Bytes → Option Bytes
  | 0, _ => none
  | tries + 1, k => if lib.isScalar k then some k else firstScalar tries (lib.sha256 k)

def generateNonce (sk : Bytes) (H : G) : Option Bytes :=
  lib.firstScalar 16 (lib.sha256 ([SUITE, DOM_NONCE] ++ sk ++ lib.serialize H ++ [0]))

def padChallenge (c : Bytes) : Bytes := List.replicate 16 0 ++ c

/-- The output of the function, the hash of the point Gamma. -/
def proofToHash (gamma : G) : Bytes :=
  lib.sha256 ([SUITE, DOM_PROOF_TO_HASH] ++ lib.serialize gamma ++ [0])

/-- `OPoIVRFProve`: the proof, `Gamma ‖ c ‖ s`. -/
def opoiVRFProve (sk pk alpha : Bytes) : Option Bytes := do
  let derivedPk ← lib.pubkeyCreate sk
  if lib.serialize derivedPk ≠ pk then none else
  let H ← lib.hashToCurve pk alpha
  let gamma ← lib.pubkeyTweakMul H sk
  let k ← lib.generateNonce sk H
  let U ← lib.pubkeyCreate k
  let V ← lib.pubkeyTweakMul H k
  let c := lib.challenge H gamma U V
  let tmp ← lib.privkeyTweakMul sk (padChallenge c)
  let s ← lib.privkeyTweakAdd k tmp
  some (lib.serialize gamma ++ c ++ s)

/-- `OPoIVRFVerify`: the output, if the proof is accepted. -/
def opoiVRFVerify [DecidableEq G] (pk alpha proof : Bytes) : Option Bytes := do
  if proof.length ≠ OPOI_VRF_PROOF_SIZE then none else
  let gamma ← lib.parse (proof.take 33)
  let c := (proof.drop 33).take 16
  let s := proof.drop 49
  let pkParsed ← lib.parse pk
  let H ← lib.hashToCurve pk alpha
  let sG ← lib.pubkeyCreate s
  let cPk ← lib.pubkeyTweakMul pkParsed (padChallenge c)
  let U ← pubkeyCombine sG (-cPk)
  let sH ← lib.pubkeyTweakMul H s
  let cGamma ← lib.pubkeyTweakMul gamma (padChallenge c)
  let V ← pubkeyCombine sH (-cGamma)
  if lib.challenge H gamma U V ≠ c then none else
  some (lib.proofToHash gamma)

/-! ## Scalars -/

theorem scalar_getB32 {n : Nat} (h : n < 2 ^ 256) : scalar (getB32 n) = n := by
  rw [scalar, getB32, List.reverse_reverse, leNat_bytes, BitVec.toNat_ofNat, Nat.mod_eq_of_lt h]

theorem scalar_mod (n : Nat) : scalar (getB32 (n % lib.order)) = n % lib.order :=
  scalar_getB32 (Nat.lt_trans (Nat.mod_lt n lib.order_prime.pos) lib.order_lt)

theorem mod_smul (n : Nat) (P : G) : (n % lib.order) • P = n • P := by
  rw [← lib.card_eq, mod_natCard_nsmul]

theorem smul_ne {k : Bytes} {P : G} (hk : lib.isScalar k = true) (hP : P ≠ 0) :
    scalar k • P ≠ 0 := by
  simp only [isScalar, Bool.and_eq_true, decide_eq_true_eq] at hk
  have : Fact lib.order.Prime := ⟨lib.order_prime⟩
  have hTorsion : lib.order • P = 0 := by rw [← lib.card_eq, card_nsmul_eq_zero']
  refine nsmul_ne_zero_of_lt_addOrderOf (Nat.ne_of_gt hk.1) ?_
  rw [addOrderOf_eq_prime hTorsion hP]
  exact hk.2

theorem hashToCurve_ne {pk alpha : Bytes} {H : G} (h : lib.hashToCurve pk alpha = some H) :
    H ≠ 0 := by
  rintro rfl
  obtain ⟨ctr, _, hParse⟩ := List.exists_of_findSome?_eq_some h
  exact lib.parse_ne _ hParse

/-! ## The equations -/

variable {sk pk alpha proof : Bytes}

/-- What a proof that the prover has made is, and that its scalars are as they have to be. -/
theorem opoiVRFProve_eq_some (h : lib.opoiVRFProve sk pk alpha = some proof) :
    ∃ (H : G) (k c : Bytes) (n : Nat), lib.hashToCurve pk alpha = some H ∧
      lib.isScalar sk = true ∧ lib.isScalar k = true ∧ lib.isScalar (padChallenge c) = true ∧
      pk = lib.serialize (scalar sk • lib.generator) ∧
      c = lib.challenge H (scalar sk • H) (scalar k • lib.generator) (scalar k • H) ∧
      n = (scalar k + scalar sk * scalar (padChallenge c)) % lib.order ∧ n ≠ 0 ∧
      proof = lib.serialize (scalar sk • H) ++ c ++ getB32 n := by
  simp only [opoiVRFProve, Option.bind_eq_bind, Option.bind_eq_some_iff, pubkeyCreate,
    pubkeyTweakMul, privkeyTweakMul, privkeyTweakAdd, Option.ite_none_right_eq_some,
    Option.ite_none_left_eq_some, Option.some.injEq, not_or] at h
  obtain ⟨_, ⟨hSk, rfl⟩, hPk, H, hH, _, ⟨-, rfl⟩, k, hk, _, ⟨-, rfl⟩, _, ⟨hValid, rfl⟩, _,
    ⟨hC, rfl⟩, _, ⟨hSum, rfl⟩, rfl⟩ := h
  rw [scalar_mod, Nat.add_mod_mod] at hSum
  refine ⟨H, k, _, _, hH, hSk, hValid, hC, (not_not.mp hPk).symm, rfl, rfl, hSum.2, ?_⟩
  rw [scalar_mod, Nat.add_mod_mod]

variable [DecidableEq G]

/-- The verifier takes the same points: `s` times a point less `c` times its multiple by the
    secret key is the nonce times the point. -/
theorem pubkeyCombine_eq {k : Bytes} {P : G} (hk : lib.isScalar k = true) (hP : P ≠ 0) (x c : Nat) :
    pubkeyCombine (((scalar k + x * c) % lib.order) • P) (-(c • x • P)) = some (scalar k • P) := by
  have hSum : ((scalar k + x * c) % lib.order) • P + -(c • x • P) = scalar k • P := by
    rw [lib.mod_smul, add_nsmul, ← mul_nsmul, add_neg_cancel_right]
  rw [pubkeyCombine, hSum, if_neg (lib.smul_ne hk hP)]

/-- The parts of a proof, as the verifier cuts it. -/
theorem parts_of_proof {gamma c s : Bytes} (hGamma : gamma.length = 33) (hc : c.length = 16) :
    (gamma ++ c ++ s).take 33 = gamma ∧ ((gamma ++ c ++ s).drop 33).take 16 = c ∧
      (gamma ++ c ++ s).drop 49 = s := by
  simp [List.drop_append, hGamma, hc]

theorem opoiVRFVerify_of_prove (h : lib.opoiVRFProve sk pk alpha = some proof) :
    ∃ H, lib.hashToCurve pk alpha = some H ∧
      lib.opoiVRFVerify pk alpha proof = some (lib.proofToHash (scalar sk • H)) := by
  obtain ⟨H, k, c, n, hH, hSk, hk, hC, rfl, hChallenge, hn, hNe, rfl⟩ := lib.opoiVRFProve_eq_some h
  refine ⟨H, hH, ?_⟩
  have hPoint := lib.hashToCurve_ne hH
  have hLength : c.length = 16 := by simp [hChallenge, challenge, lib.length_sha256]
  have hLt : n < lib.order := hn ▸ Nat.mod_lt _ lib.order_prime.pos
  have hScalar : scalar (getB32 n) = n := scalar_getB32 (Nat.lt_trans hLt lib.order_lt)
  have hValid : lib.isScalar (getB32 n) = true := by
    simpa [isScalar, hScalar, hLt] using Nat.pos_of_ne_zero hNe
  have hCombine : ∀ P : G, P ≠ 0 →
      pubkeyCombine (n • P) (-(scalar (padChallenge c) • scalar sk • P)) = some (scalar k • P) :=
    fun P hP => hn ▸ lib.pubkeyCombine_eq hk hP _ _
  have hSize : (lib.serialize (scalar sk • H) ++ c ++ getB32 n).length = OPOI_VRF_PROOF_SIZE := by
    simp [lib.length_serialize, hLength, getB32, OPOI_VRF_PROOF_SIZE]
  obtain ⟨hTake, hMiddle, hDrop⟩ := parts_of_proof (s := getB32 n)
    (lib.length_serialize (scalar sk • H)) hLength
  unfold opoiVRFVerify
  rw [hTake, hMiddle, hDrop, lib.parse_serialize _ (lib.smul_ne hSk hPoint),
    lib.parse_serialize _ (lib.smul_ne hSk lib.generator_ne), hH, if_neg (not_not.mpr hSize)]
  simp only [Option.bind_eq_bind, Option.bind_some, pubkeyCreate, pubkeyTweakMul, hValid, hC,
    if_true, hScalar, hCombine _ lib.generator_ne, hCombine _ hPoint]
  rw [← hChallenge, if_neg (not_not.mpr rfl)]

theorem opoiVRFVerify_gamma {out : Bytes} (h : lib.opoiVRFVerify pk alpha proof = some out) :
    (lib.parse (proof.take 33)).map lib.proofToHash = some out := by
  simp only [opoiVRFVerify, Option.bind_eq_bind, Option.bind_eq_some_iff,
    Option.ite_none_left_eq_some] at h
  obtain ⟨-, gamma, hGamma, _, _, _, _, _, _, _, _, _, _, _, _, _, _, _, _, -, hOut⟩ := h
  rw [hGamma, Option.map_some, hOut]

/-- The verifier accepts the proof of the prover and gives the hash of the point that the prover
    has computed; for one key and input the output depends on Gamma alone. -/
theorem opoiVRF_complete (sk pk alpha : Bytes) :
    (∀ proof, lib.opoiVRFProve sk pk alpha = some proof → ∃ H, lib.hashToCurve pk alpha = some H ∧
      lib.opoiVRFVerify pk alpha proof = some (lib.proofToHash (scalar sk • H))) ∧
    ∀ proof₁ proof₂ out₁ out₂, lib.parse (proof₁.take 33) = lib.parse (proof₂.take 33) →
      lib.opoiVRFVerify pk alpha proof₁ = some out₁ →
      lib.opoiVRFVerify pk alpha proof₂ = some out₂ → out₁ = out₂ := by
  refine ⟨fun _ => lib.opoiVRFVerify_of_prove, fun proof₁ proof₂ out₁ out₂ hSame h₁ h₂ => ?_⟩
  have hOut := lib.opoiVRFVerify_gamma h₁
  rw [hSame, lib.opoiVRFVerify_gamma h₂] at hOut
  exact (Option.some.inj hOut).symm

/-- The group of order five, with a hash that depends on the domain byte. -/
def sample : Secp256k1 (ZMod 5) where
  order := 5
  generator := 1
  serialize P := 2 :: (List.replicate 31 0 ++ [UInt8.ofNat P.val])
  parse b := ([1, 2, 3, 4] : List (ZMod 5)).find? fun P =>
    b == 2 :: (List.replicate 31 0 ++ [UInt8.ofNat P.val])
  sha256 b :=
    if b[1]? = some DOM_CHALLENGE then List.replicate 15 0 ++ 1 :: List.replicate 16 0
    else List.replicate 31 0 ++ [1]
  order_prime := Nat.prime_five
  order_lt := by decide
  card_eq := Nat.card_zmod 5
  generator_ne := by decide
  length_serialize _ := rfl
  length_sha256 b := by split <;> rfl
  parse_serialize := by decide
  parse_ne _ h := absurd (List.mem_of_find?_eq_some h) (by decide)

theorem opoiVRF_complete_of_sample :
    ∃ proof, sample.opoiVRFProve (getB32 2) (sample.serialize 2) [] = some proof ∧
      (sample.opoiVRFVerify (sample.serialize 2) [] proof).isSome = true := by
  have hProve : (sample.opoiVRFProve (getB32 2) (sample.serialize 2) []).isSome = true := by
    decide +kernel
  obtain ⟨proof, hProof⟩ := Option.isSome_iff_exists.mp hProve
  obtain ⟨_, _, hVerify⟩ := (sample.opoiVRF_complete _ _ _).1 proof hProof
  exact ⟨proof, hProof, by rw [hVerify]; rfl⟩

end Secp256k1

end CloudService
