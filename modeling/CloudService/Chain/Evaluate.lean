/-
  Runs over concrete blocks can be evaluated. The environment and the transaction builders for
  such runs are at the end.
-/

import CloudService.Chain.Node

namespace CloudService

instance {env : Env} {p : NodeState → LoopState → CTransaction → Prop}
    [∀ node st tx, Decidable (p node st tx)] {node : NodeState} {block : CBlock} :
    Decidable (onBlock env p node block) :=
  inferInstanceAs (Decidable (∀ e ∈ Run.trace _ _ _, p node e.1 e.2))

instance {p : NodeState → LoopState → CTransaction → Prop}
    [∀ node st tx, Decidable (p node st tx)] (m : Machine) (input : Input) :
    Decidable (onTx p m input) :=
  match m, input with
  | .busy node _ _ st, .tx tx => inferInstanceAs (Decidable (p node st tx))
  | .busy _ _ _ _, .start _ | .busy _ _ _ _, .finish | .idle _, _ =>
    inferInstanceAs (Decidable True)

/-- A condition on the state at the end of a loop. -/
instance {env : Env} {node : NodeState} {block : CBlock} {P : LoopState → Prop}
    [∀ st, Decidable (P st)] :
    Decidable (∀ st, connectLoop env {} node.context block node.cache = .ok st → P st) :=
  match connectLoop env {} node.context block node.cache with
  | .ok st => decidable_of_iff (P st) ⟨fun h _ hEq => by cases hEq; exact h, fun h => h st rfl⟩
  | .error _ => .isTrue fun _ hEq => by cases hEq

/-- Roots of trees for runs on concrete blocks, which tell small trees of different sizes
    apart. -/
def sampleRoot (tree : MerkleTree) : Uint256 := BitVec.ofNat 256 (tree.length % 1000 + 1)

theorem sampleRoot_ne_null (tree : MerkleTree) : sampleRoot tree ≠ 0 := by
  intro hNull
  have hNat : (tree.length % 1000 + 1) % 2 ^ 256 = 0 := by
    simpa [sampleRoot] using congrArg BitVec.toNat hNull
  omega

/-- A small environment for runs on concrete blocks. The key hash that an address encodes is
    the address itself, a signature recovers to itself, the id of a transaction is read off
    its fields, and every check outside the modelled code passes. -/
def sampleEnv (params : Params) : Env where
  params := params
  chainParams := regtestParams
  acadiaActive _ := false
  coinbaseProtected _ := false
  roots := ⟨sampleRoot, sampleRoot, sampleRoot_ne_null, sampleRoot_ne_null⟩
  hashFinalSaplingRoot _ := 0
  getHash tx := BitVec.ofNat 256 (1000 * tx.vout.length + 10 * tx.opoiSigTime + tx.vin.length + 1)
  messageHash _ := 0
  recoverCompact _ sig := some sig
  getID pubKey := pubKey
  decodeDestination address := .keyID (strBytes address)
  sha256 bytes := bytes.take 32
  vrfVerify _ _ _ := some []
  topologyHash _ _ _ _ _ := 0
  canaryTestSuiteHash := 1
  opoiBudget _ := 1000
  opoiBudget_nonneg _ := by decide
  startFluxnodePayments := 0
  getNextPayment _ _ := none
  getFluxnodeSubsidy _ _ := 0
  treasuryAddress := "treasury"
  treasury_valid := rfl
  genesis := { hash := 1, vtx := [] }
  genesis_no_opoi := by simp
  checkTransactionOther _ _ := true
  connectPrologue _ _ _ := true
  connectTxBefore _ _ _ _ _ := true
  connectTxRequirements _ _ _ _ _ := true
  connectTxInputs _ _ _ _ _ := true
  connectEpilogue _ _ _ _ := true

/-- A coinbase with the given outputs, each an address and an amount. The signature time
    makes its id unique. -/
def sampleCoinbase (outputs : List (String × CAmount)) (sigTime : Nat := 0) : CTransaction :=
  { vin := [⟨{}⟩]
    vout := outputs.map fun o =>
      ⟨o.2, getScriptForDestination (.keyID (strBytes o.1))⟩
    opoiSigTime := sigTime }

/-- The parameters of the concrete runs: one auditor decides, and responses are revealed one
    block after their commit. -/
def sampleParams : Params :=
  { nOPoIMinStake := 10, nOPoIMinAuditors := 1, nOPoIVrfThreshold := 1
    nOPoIResponseCommitWindowBlocks := 1 }

abbrev sampleNet : Env := sampleEnv sampleParams

/-- A block with a number and transactions after a coinbase that pays 5 to a miner. -/
def sampleBlock (n : Nat) (txs : List CTransaction) : CBlock :=
  ⟨BitVec.ofNat 256 n, sampleCoinbase [("miner", 5)] n :: txs⟩

def sampleMiner : String := "mmmmmmmmmmmmmmmmmmmmmmmmmmmmmmmmm"

/-- A first block that pays 100 to each of four addresses, in transaction 4002. -/
def sampleFunding : CBlock :=
  ⟨2, [sampleCoinbase [(sampleMiner, 100), ("alice", 100), ("bob", 100), ("carol", 100)]]⟩

section Transactions

variable (id address : String) (collateral : COutPoint) (sigTime : Nat)

def sampleStake : CTransaction :=
  { nVersion := 8, nType := 3, opoiMinerAddress := address, opoiCollateralIn := collateral
    opoiPayment := 50, opoiSigTime := sigTime, opoiSig := strBytes address }
def sampleRenew : CTransaction :=
  { nVersion := 8, nType := 11, opoiMinerAddress := address, opoiSigTime := sigTime
    opoiSig := strBytes address }
def sampleUnstake : CTransaction :=
  { nVersion := 8, nType := 4, opoiMinerAddress := address, opoiSigTime := sigTime
    opoiSig := strBytes address }
def sampleRequest (taskType : Int) : CTransaction :=
  { nVersion := 8, nType := 1, opoiRequestId := id, opoiRequester := address, opoiModel := "model"
    opoiPromptHash := 1, opoiTestSuite := 1, opoiTaskType := taskType, opoiPayment := 5
    opoiSigTime := sigTime, opoiSig := strBytes address }
def sampleResponseCommit : CTransaction :=
  { nVersion := 8, nType := 2, opoiRequestId := id, opoiMinerAddress := address
    opoiResponseCommitHash := Uint256.bytes 1, opoiSigTime := sigTime, opoiSig := strBytes address }
def sampleResponseReveal : CTransaction :=
  { nVersion := 8, nType := 2, opoiRequestId := id, opoiMinerAddress := address
    opoiResponsePhase := 1, opoiResponseHash := 1, opoiResponseNonce := [1]
    opoiVrfProof := List.replicate 81 0, opoiSigTime := sigTime, opoiSig := strBytes address }
def sampleShardResult (shard : Nat) : CTransaction :=
  { nVersion := 8, nType := 10, opoiRequestId := id, opoiMinerAddress := address
    opoiShardIndex := shard, opoiResponseHash := 1, opoiVrfProof := List.replicate 81 0
    opoiSigTime := sigTime, opoiSig := strBytes address }
def sampleChallengeCommit : CTransaction :=
  { nVersion := 8, nType := 5, opoiRequestId := id, opoiRequester := address
    opoiCommitHash := List.replicate 32 7, opoiChallengerCollateralIn := collateral
    opoiSigTime := sigTime, opoiSig := strBytes address }
def sampleChallengeReveal : CTransaction :=
  { nVersion := 8, nType := 5, opoiRequestId := id, opoiRequester := address
    opoiChallengePhase := 1, opoiProofData := List.replicate 32 7, opoiChallengeNonce := [7]
    opoiChallengerCollateralIn := collateral, opoiSigTime := sigTime, opoiSig := strBytes address }
def sampleVote (result : Nat) : CTransaction :=
  { nVersion := 8, nType := 6, opoiRequestId := id, opoiAuditorAddress := address
    opoiAuditorVerifyResult := result, opoiAuditorCollateralIn := collateral
    opoiShardIndex := OPOI_AUDITOR_VERIFY_NO_SHARD, opoiSigTime := sigTime
    opoiSig := strBytes address }
def sampleModelRegister : CTransaction :=
  { nVersion := 8, nType := 7, opoiModelId := id, opoiRequester := address, opoiPomRoot := 1
    opoiModelNumLayers := 4, opoiModelNumDenseShards := 2, opoiSigTime := sigTime
    opoiSig := strBytes address }
def sampleModelVote (approve : Nat) : CTransaction :=
  { nVersion := 8, nType := 8, opoiModelId := id, opoiRequester := address
    opoiModelVoteApprove := approve, opoiSigTime := sigTime, opoiSig := strBytes address }

end Transactions

/-- The same, and a model is decided in the block after its registration and active at once. -/
def governedParams : Params :=
  { sampleParams with nOPoIModelVoteWindowBlocks := 1, nOPoIModelActivationDelayBlocks := 0 }

/-- The parameters of the runs with shards: a number of submissions makes a majority. -/
def shardParams (submissions : Int) : Params :=
  { governedParams with nOPoIShardThreshold := 1, nOPoIShardMinSubmissions := submissions }

abbrev votingNet : Env := sampleEnv governedParams

/-- A STAKE, and further blocks. -/
def sampleStaked (blocks : List CBlock) : List CBlock :=
  [sampleFunding, sampleBlock 3 [sampleStake sampleMiner ⟨4002, 0⟩ 1]] ++ blocks

/-- A STAKE, a VERIFIABLE request and its response by the staker, and further blocks. -/
def sampleAnswered (blocks : List CBlock) : List CBlock := sampleStaked <|
  [sampleBlock 4 [sampleRequest "r" "alice" 2 1],
   sampleBlock 5 [sampleResponseCommit "r" sampleMiner 3],
   sampleBlock 6 [sampleResponseReveal "r" sampleMiner 4]] ++ blocks

/-- Two VERIFIABLE requests and the answers of the staker to them. -/
def sampleTwoAnswers : List CBlock :=
  [sampleBlock 4 [sampleRequest "r" "alice" 2 1, sampleRequest "q" "alice" 3 1],
   sampleBlock 5 [sampleResponseCommit "r" sampleMiner 4, sampleResponseCommit "q" sampleMiner 5],
   sampleBlock 6 [sampleResponseReveal "r" sampleMiner 6, sampleResponseReveal "q" sampleMiner 7]]

/-- The blocks up to a challenge of a response that one FAIL vote has decided. -/
def sampleChallengedBlocks : List CBlock := sampleAnswered
  [sampleBlock 7 [sampleChallengeCommit "r" "bob" ⟨4002, 2⟩ 5,
     sampleVote "r" "carol" ⟨4002, 3⟩ 6 AUDITOR_VERIFY_FAIL]]

/-- The block that settles the challenge, with further transactions after the REVEAL. -/
def sampleSettlement (txs : List CTransaction) : CBlock :=
  sampleBlock 8 (sampleChallengeReveal "r" "bob" ⟨4002, 2⟩ 7 :: txs)

/-- A block that pays a reward of 25 to a challenger and 25 to the treasury. -/
def samplePayout (n : Nat) (challenger : String) (txs : List CTransaction) : CBlock :=
  ⟨BitVec.ofNat 256 n, sampleCoinbase [(challenger, 25), ("treasury", 25)] n :: txs⟩

end CloudService
