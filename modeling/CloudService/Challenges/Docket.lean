/-
  The disputes over the answer to a request, whose record has room for one. A docket is a
  monitor that accepts a COMMIT only where no dispute is live.
-/

import CloudService.Auditors.Majority
import CloudService.Chain.Turns
import CloudService.Library.Monitor
import CloudService.Locks.Burned

namespace CloudService

open OPoICache TreeMap OPoIChallenge

/-- Who opened a challenge, and with what collateral. -/
structure Dispute where
  challenger : String
  collateral : COutPoint
deriving DecidableEq

/-- A COMMIT opens a dispute, or the record of a dispute gets a status. -/
inductive DocketEvent where
  | opened (d : Dispute)
  | became (d : Dispute) (status : ChallengeStatus)
deriving DecidableEq

def ChallengeStatus.isFinal : ChallengeStatus → Bool
  | .slashed | .expired | .resolvedNoOracle => true
  | .opened | .revealedPending => false

/-- A dispute opens when none is live, and only the live one gets a status. -/
def docketStep : Option Dispute → DocketEvent → Option (Option Dispute)
  | none, .opened d => some (some d)
  | some d, .became d' status =>
    if d' = d then some (if status.isFinal then none else some d) else none
  | _, _ => none

def OPoIChallenge.dispute (ch : OPoIChallenge) : Dispute :=
  ⟨ch.challengerAddress, ch.challengerCollateral⟩

/-- The dispute on record, unless its status is final. -/
def OPoICache.liveDispute (c : OPoICache) (r : String) : Option Dispute :=
  (c.mapChallenges[r]?).bind fun ch =>
    if ch.challengeStatus.isFinal then none else some ch.dispute

def isChallengeCommit (tx : CTransaction) : Bool :=
  tx.opoiType == .challenge && tx.opoiChallengePhase == 0

/-- What an observer of the record sees of a step that is not a COMMIT for it. -/
def recordEvents (r : String) (c c' : OPoICache) : List DocketEvent :=
  match c'.mapChallenges[r]? with
  | none => []
  | some ch =>
    if (c.mapChallenges[r]?).map (fun old => (old.dispute, old.challengeStatus)) =
        some (ch.dispute, ch.challengeStatus) then []
    else [.became ch.dispute ch.challengeStatus]

def turnEvents (env : Env) (node : NodeState) (r : String) (e : OPoICache × CTransaction) :
    List DocketEvent :=
  if isChallengeCommit e.2 = true ∧ e.2.opoiRequestId = r then
    [.opened ⟨e.2.opoiRequester, e.2.opoiChallengerCollateralIn⟩]
  else recordEvents r e.1 (applyOPoITransaction env node.chainActive node.nextHeight e.1 e.2)

/-- The events of a block: those of its turns, and those of the passes. -/
def blockEvents (env : Env) (r : String) (e : NodeState × CBlock) : List DocketEvent :=
  (turns env e.1 e.2).flatMap (turnEvents env e.1 r) ++
    if env.params.opoiActive e.1.nextHeight then
      recordEvents r (afterTxs env e.1 e.2.vtx)
        (connectPasses env e.1.nextHeight e.2.vtx (afterTxs env e.1 e.2.vtx))
    else []

/-- What happens to the disputes of a request in a run. -/
def docketEvents (env : Env) (r : String) (blocks : List CBlock) : List DocketEvent :=
  (blockTrace env blocks).flatMap (blockEvents env r)

/-- No COMMIT is for a challenge that waits for the auditors or comes after another one of the
    block; no REVEAL finds its challenge ended at its turn and would end it otherwise. -/
@[mk_iff]
structure DisputesKept (env : Env) (node : NodeState) (block : CBlock) : Prop where
  pending : ∀ tx ∈ opoiTxs block.vtx, isChallengeCommit tx = true →
    (node.cache.mapChallenges[tx.opoiRequestId]?).all (!·.isPendingResolution) = true
  distinct : (opoiTxs block.vtx).Pairwise fun tx tx' => isChallengeCommit tx = true →
    isChallengeCommit tx' = true → tx.opoiRequestId ≠ tx'.opoiRequestId
  settled : ∀ e ∈ turns env node block, settlesOnce env e.1 e.2 = true

instance {env : Env} {node : NodeState} {block : CBlock} :
    Decidable (DisputesKept env node block) := decidable_of_iff' _ (disputesKept_iff ..)

/-- A challenge is open only within the blocks for its REVEAL, and waits only for undecided
    auditors. -/
def InTime (env : Env) (height : Nat) (r : String) (c : OPoICache) : Prop :=
  ∀ ch : OPoIChallenge, c.mapChallenges[r]? = some ch →
    (ch.isOpen = true → asInt32 (subU32 height ch.commitHeight) <
      env.params.nOPoIChallengeCommitRevealBlocks) ∧
    (ch.isPendingResolution = true →
      c.getAuditorMajorityResult ch.requestId env.params.nOPoIMinAuditors ≠
          some AUDITOR_VERIFY_PASS ∧
        c.getAuditorMajorityResult ch.requestId env.params.nOPoIMinAuditors ≠
          some AUDITOR_VERIFY_FAIL)

section Docket

variable {env : Env} {chainActive : List Uint256} {height : Nat} {node node' : NodeState}
  {block : CBlock} {c c' : OPoICache} {tx : CTransaction} {r : String}

/-! ## Records -/

theorem isFinal_eq_false {ch : OPoIChallenge} :
    ch.challengeStatus.isFinal = false ↔ (ch.isOpen || ch.isPendingResolution) = true := by
  unfold isOpen isPendingResolution
  cases ch.challengeStatus <;> decide

theorem reads_same (hSame : c'.mapChallenges[r]? = c.mapChallenges[r]?) {p : Prop} (hp : p) :
    Run.Reads docketStep (recordEvents r c c') (c.liveDispute r) (c'.liveDispute r) p := by
  have hLive : c'.liveDispute r = c.liveDispute r := by
    rw [liveDispute, liveDispute, hSame]
  have hEvents : recordEvents r c c' = [] := by
    rw [recordEvents, hSame]
    cases c.mapChallenges[r]? with
    | none => rfl
    | some ch => exact if_pos rfl
  rw [hLive, hEvents]
  exact .nil hp

theorem reads_status {ch ch' : OPoIChallenge} (hCh : c.mapChallenges[r]? = some ch)
    (hCh' : c'.mapChallenges[r]? = some ch') (hDispute : ch'.dispute = ch.dispute) :
    Run.Reads docketStep (recordEvents r c c') (c.liveDispute r) (c'.liveDispute r)
      (ch.challengeStatus.isFinal = false ∨ ch'.challengeStatus = ch.challengeStatus) := by
  simp only [recordEvents, liveDispute, hCh, hCh', Option.map_some, Option.bind_some,
    hDispute, Option.some.injEq, Prod.mk.injEq, true_and]
  by_cases hStatus : ch.challengeStatus = ch'.challengeStatus
  · rw [if_pos hStatus, ← hStatus]
    exact .nil (.inr rfl)
  · rw [if_neg hStatus]
    cases hFinal : ch.challengeStatus.isFinal with
    | false =>
      refine ⟨fun _ => ?_, fun hNot => absurd (.inl rfl) hNot⟩
      simp [docketStep]
    | true =>
      refine ⟨fun hEither => ?_, fun _ => rfl⟩
      rcases hEither with hLive | hSame
      · cases hLive
      · exact absurd hSame.symm hStatus

/-! ## One turn -/

theorem reads_turn (e : OPoICache × CTransaction) :
    Run.Reads docketStep (turnEvents env node r e) (e.1.liveDispute r)
      ((applyOPoITransaction env node.chainActive node.nextHeight e.1 e.2).liveDispute r)
      (e.2.opoiRequestId = r → (isChallengeCommit e.2 = true → e.1.liveDispute r = none) ∧
          settlesOnce env e.1 e.2 = true) := by
  obtain ⟨c, tx⟩ := e
  rcases mapChallenges_cases env node.chainActive node.nextHeight c tx with
    ⟨hType, hPhase, hMap⟩ | ⟨hType, hPhase, hMap⟩ | ⟨hType, hMap⟩
  · have hCommit : isChallengeCommit tx = true := by simp [isChallengeCommit, hType, hPhase]
    have hSettles : settlesOnce env c tx = true := by
      simp [settlesOnce, revealedBy, hPhase]
    by_cases hId : tx.opoiRequestId = r
    · have hLive : (applyOPoITransaction env node.chainActive node.nextHeight c tx).liveDispute r =
          some ⟨tx.opoiRequester, tx.opoiChallengerCollateralIn⟩ := by
        rw [liveDispute, hMap, getElem?_insert_eq, if_pos hId]
        rfl
      rw [turnEvents, if_pos ⟨hCommit, hId⟩, hLive]
      -- A COMMIT over a live dispute is what the docket refuses.
      cases hBefore : c.liveDispute r with
      | none => exact ⟨fun _ => rfl, fun hNot => absurd (fun _ => ⟨fun _ => rfl, hSettles⟩) hNot⟩
      | some d =>
        refine ⟨fun h => ?_, fun _ => rfl⟩
        cases (h hId).1 hCommit
    · rw [turnEvents, if_neg fun h => hId h.2]
      refine reads_same ?_ fun h => absurd h hId
      rw [hMap, getElem?_insert_eq, if_neg hId]
  · have hReveal : ¬isChallengeCommit tx = true := by simp [isChallengeCommit, hPhase]
    rw [turnEvents, if_neg fun h => hReveal h.1]
    by_cases hId : tx.opoiRequestId = r
    · subst hId
      cases hCh : c.mapChallenges[tx.opoiRequestId]? with
      | none =>
        refine reads_same ?_ fun _ => ⟨fun h => absurd h hReveal, ?_⟩
        · rw [hMap, getElem?_modify_eq, if_pos rfl, hCh]
          rfl
        · simp [settlesOnce, revealedBy, hCh]
      | some ch =>
        have hCh' : (applyOPoITransaction env node.chainActive node.nextHeight c
            tx).mapChallenges[tx.opoiRequestId]? =
            some { revealedChallenge env tx ch with
              challengeStatus := revealOutcome env c tx } := by
          rw [hMap, getElem?_modify_eq, if_pos rfl, hCh]
          rfl
        refine (reads_status hCh hCh' rfl).congr ?_
        rw [isFinal_eq_false]
        simp [settlesOnce, revealedBy, hType, hPhase, hCh, hReveal]
    · refine reads_same ?_ fun h => absurd h hId
      rw [hMap, getElem?_modify_eq, if_neg hId]
  · have hOther : ¬isChallengeCommit tx = true := by simp [isChallengeCommit, hType]
    rw [turnEvents, if_neg fun h => hOther h.1]
    refine reads_same (by rw [hMap]) fun _ => ⟨fun h => absurd h hOther, ?_⟩
    simp [settlesOnce, revealedBy, hType]

/-! ## The passes -/

def Settles (c c' : OPoICache) : Prop :=
  ∀ r : String, c'.mapChallenges[r]? = c.mapChallenges[r]? ∨ ∃ ch ch' : OPoIChallenge,
    c.mapChallenges[r]? = some ch ∧ c'.mapChallenges[r]? = some ch' ∧
      ch.challengeStatus.isFinal = false ∧ ch'.dispute = ch.dispute

theorem Settles.expireChallenge (h : Settles c c') (key : String) :
    Settles c (expireChallenge env height c' key) := by
  intro r
  -- the two ways in which the loop rewrites the record under its key
  have hSet : ∀ (status : ChallengeStatus) (ch : OPoIChallenge),
      c'.mapChallenges[key]? = some ch → (ch.isOpen || ch.isPendingResolution) = true →
      ∀ m : StrMap OPoIChallenge,
        m = c'.mapChallenges.modify key (fun ch => { ch with challengeStatus := status }) →
        m[r]? = c.mapChallenges[r]? ∨ ∃ ch ch' : OPoIChallenge,
          c.mapChallenges[r]? = some ch ∧ m[r]? = some ch' ∧
            ch.challengeStatus.isFinal = false ∧ ch'.dispute = ch.dispute := by
    rintro status ch hCh hLive m rfl
    rw [getElem?_modify_eq]
    split
    · rename_i hKey
      subst hKey
      rw [hCh]
      rcases h key with hSame | ⟨old, ch', hOld, hNow, hFinal, hDispute⟩
      · exact .inr ⟨ch, _, hSame ▸ hCh, rfl, isFinal_eq_false.mpr hLive, rfl⟩
      · rw [hCh] at hNow
        cases hNow
        exact .inr ⟨old, _, hOld, rfl, hFinal, hDispute⟩
    · exact h r
  rcases expireChallenge_cases env height c' key with hEq | ⟨ch, hCh, hLive, hEq⟩ |
    ⟨ch, hCh, hPending, _, hEq⟩
  · rw [hEq]
    exact h r
  · rw [hEq]
    exact hSet .expired ch hCh hLive _ rfl
  · rw [hEq]
    exact hSet .slashed ch hCh (by rw [hPending, Bool.or_true]) _ rfl

theorem passPreserved_settles (env : Env) (height : Nat) (c : OPoICache) :
    PassPreserved env height (Settles c) where
  toLatePreserved := latePreserved_fixed env height (Settles c)
  rewardPaid _ _ h := h
  expireChallenge _ key h := h.expireChallenge key

theorem Settles.reads (h : Settles c c') {p : Prop} (hp : p) :
    Run.Reads docketStep (recordEvents r c c') (c.liveDispute r) (c'.liveDispute r) p := by
  rcases h r with hSame | ⟨ch, ch', hCh, hCh', hFinal, hDispute⟩
  · exact reads_same hSame hp
  · exact (reads_status hCh hCh' hDispute).congr ⟨fun _ => hp, fun _ => .inl hFinal⟩

def TurnKept (env : Env) (e : OPoICache × CTransaction) : Prop :=
  (isChallengeCommit e.2 = true → e.1.liveDispute e.2.opoiRequestId = none) ∧
    settlesOnce env e.1 e.2 = true

theorem reads_block (hTip : connectTip env node block = .ok node') :
    Run.Reads docketStep (blockEvents env r (node, block)) (node.cache.liveDispute r)
      (node'.cache.liveDispute r)
      (∀ e ∈ turns env node block, e.2.opoiRequestId = r → TurnKept env e) := by
  obtain ⟨hBlock, _, hCache⟩ := connectTip_cache hTip
  have hTurns : Run.Reads docketStep ((turns env node block).flatMap (turnEvents env node r))
      (node.cache.liveDispute r) ((afterTxs env node block.vtx).liveDispute r)
      (∀ e ∈ turns env node block, e.2.opoiRequestId = r → TurnKept env e) :=
    .withStates (fun c => c.liveDispute r) _ _ fun e _ =>
      (reads_turn e).congr (forall_congr' fun hId => by rw [TurnKept, hId])
  rw [hCache, blockEvents]
  split
  · exact (hTurns.append (((passPreserved_settles env node.nextHeight _).connectPasses
      (fun _ => .inl rfl) block.vtx).reads trivial)).congr (and_iff_left trivial)
  · rename_i hInactive
    have hNone := opoiTxs_of_inactive hBlock (by simpa using hInactive)
    rw [List.append_nil]
    rw [afterTxs, hNone, List.foldl_nil] at hTurns
    exact hTurns

/-! ## The condition -/

theorem liveDispute_foldl (txs : List CTransaction)
    (hReveals : ∀ tx ∈ txs, tx.opoiType = .challenge → tx.opoiRequestId = r →
      tx.opoiChallengePhase = 0) :
    (txs.foldl (applyOPoITransaction env chainActive height) c).liveDispute r = none ↔
      c.liveDispute r = none ∧
        ∀ tx ∈ txs, isChallengeCommit tx = true → tx.opoiRequestId ≠ r := by
  induction txs generalizing c with
  | nil => simp
  | cons tx txs ih =>
    rw [List.foldl_cons, ih fun tx' hMem => hReveals tx' (List.mem_cons_of_mem _ hMem),
      List.forall_mem_cons, liveDispute, liveDispute]
    rcases mapChallenges_cases env chainActive height c tx with
      ⟨hType, hPhase, hMap⟩ | ⟨hType, hPhase, hMap⟩ | ⟨hType, hMap⟩
    · have hCommit : isChallengeCommit tx = true := by simp [isChallengeCommit, hType, hPhase]
      rw [hMap, getElem?_insert_eq]
      by_cases hId : tx.opoiRequestId = r
      · simp [hId, hCommit, openedChallenge, ChallengeStatus.isFinal]
      · simp [hId]
    · have hId : tx.opoiRequestId ≠ r := fun hId =>
        hPhase (hReveals tx List.mem_cons_self hType hId)
      rw [hMap, getElem?_modify_eq, if_neg hId]
      simp [isChallengeCommit, hPhase]
    · rw [hMap]
      simp [isChallengeCommit, hType]

/-- A block does not hold a COMMIT and a REVEAL for one request: a COMMIT is refused while the
    challenge is open, and a REVEAL unless it is. -/
theorem no_reveal_of_commit (hBlock : AcceptedBlock env node block)
    (hTx : tx ∈ opoiTxs block.vtx) (hCommit : isChallengeCommit tx = true) :
    (∀ ch, node.cache.mapChallenges[tx.opoiRequestId]? = some ch → ch.isOpen = false) ∧
    ∀ tx' ∈ opoiTxs block.vtx, tx'.opoiType = .challenge →
      tx'.opoiRequestId = tx.opoiRequestId → tx'.opoiChallengePhase = 0 := by
  simp only [isChallengeCommit, Bool.and_eq_true, beq_iff_eq] at hCommit
  have hAccepted : ∀ tx ∈ opoiTxs block.vtx, tx.opoiType = .challenge →
      (if tx.opoiChallengePhase = 0 then checkChallengeCommit env false node.cache tx
        else checkChallengeReveal env false node.cache tx) = .ok () := by
    intro tx hMem hType
    obtain ⟨hIn, hOPoI⟩ := mem_opoiTxs.mp hMem
    have hBranch := checkOPoITransaction_branch (hBlock.txs tx hIn).checked hOPoI
    simp only [hType] at hBranch
    exact (checkChallenge_eq_ok hBranch).2.2
  have hOpened := hAccepted tx hTx hCommit.1
  rw [if_pos hCommit.2] at hOpened
  refine ⟨(checkChallengeCommit_eq_ok hOpened).2.1, fun tx' hTx' hType' hId => ?_⟩
  by_contra hPhase
  have hRevealed := hAccepted tx' hTx' hType'
  rw [if_neg hPhase] at hRevealed
  obtain ⟨ch, hCh, hOpen, _⟩ := checkChallengeReveal_eq_ok hRevealed
  rw [hId] at hCh
  rw [(checkChallengeCommit_eq_ok hOpened).2.1 ch hCh] at hOpen
  cases hOpen

theorem liveDispute_turn (hBlock : AcceptedBlock env node block) {before after : List CTransaction}
    (hTxs : opoiTxs block.vtx = before ++ tx :: after) (hCommit : isChallengeCommit tx = true) :
    (before.foldl (applyOPoITransaction env node.chainActive node.nextHeight)
        node.cache).liveDispute tx.opoiRequestId = none ↔
      (node.cache.mapChallenges[tx.opoiRequestId]?).all (!·.isPendingResolution) = true ∧
        ∀ tx' ∈ before, isChallengeCommit tx' = true → tx'.opoiRequestId ≠ tx.opoiRequestId := by
  have hTx : tx ∈ opoiTxs block.vtx := by
    rw [hTxs]
    exact List.mem_append_right _ List.mem_cons_self
  obtain ⟨hClosed, hReveals⟩ := no_reveal_of_commit hBlock hTx hCommit
  rw [liveDispute_foldl before fun tx' hMem =>
    hReveals tx' (by rw [hTxs]; exact List.mem_append_left _ hMem)]
  refine and_congr_left fun _ => ?_
  rw [liveDispute]
  cases hCh : node.cache.mapChallenges[tx.opoiRequestId]? with
  | none => simp
  | some ch =>
    rw [Option.bind_some, Option.all_some]
    have hFinal := @isFinal_eq_false ch
    rw [hClosed ch hCh, Bool.false_or] at hFinal
    cases hStatus : ch.challengeStatus.isFinal with
    | false => simp [hFinal.mp hStatus]
    | true =>
      have hNot : ch.isPendingResolution = false := by
        rw [← Bool.not_eq_true, ← hFinal, hStatus]
        exact Bool.true_eq_false.mp
      simp [hNot]

theorem turnKept_iff_disputesKept (hBlock : AcceptedBlock env node block) :
    (∀ e ∈ turns env node block, TurnKept env e) ↔ DisputesKept env node block := by
  constructor
  · intro h
    have hTurn : ∀ before tx after, opoiTxs block.vtx = before ++ tx :: after →
        isChallengeCommit tx = true →
        (node.cache.mapChallenges[tx.opoiRequestId]?).all (!·.isPendingResolution) = true ∧
        ∀ tx' ∈ before, isChallengeCommit tx' = true → tx'.opoiRequestId ≠ tx.opoiRequestId := by
      intro before tx after hTxs hCommit
      rw [← liveDispute_turn hBlock hTxs hCommit]
      exact (h (_, tx) (Run.mem_withStates.mpr ⟨before, after, hTxs, rfl⟩)).1 hCommit
    refine ⟨fun tx hTx hCommit => ?_, ?_, fun e he => (h e he).2⟩
    · obtain ⟨before, after, hTxs⟩ := List.append_of_mem hTx
      exact (hTurn before tx after hTxs hCommit).1
    · exact Run.pairwise_of_split fun before tx after hTxs tx' hMem hCommit' hCommit =>
        (hTurn before tx after hTxs hCommit).2 tx' hMem hCommit'
  · intro h e he
    refine ⟨fun hCommit => ?_, h.settled e he⟩
    obtain ⟨before, after, hTxs, hState⟩ := Run.mem_withStates.mp he
    rw [hState, liveDispute_turn hBlock hTxs hCommit]
    have hDistinct := h.distinct
    rw [hTxs, List.pairwise_append] at hDistinct
    exact ⟨h.pending e.2 (by rw [hTxs]; simp) hCommit, fun tx' hMem hCommit' =>
      hDistinct.2.2 tx' hMem e.2 List.mem_cons_self hCommit' hCommit⟩

/-! ## The ends of the disputes -/

theorem inTime_of_final (h : ∀ ch, c.mapChallenges[r]? = some ch →
    ch.challengeStatus.isFinal = true) : InTime env height r c := by
  intro ch hCh
  have hFinal := h ch hCh
  have hNot : ¬(ch.isOpen || ch.isPendingResolution) = true := by
    rw [← isFinal_eq_false, hFinal]
    exact Bool.true_eq_false.mp
  rw [Bool.or_eq_true, not_or] at hNot
  exact ⟨fun hOpen => absurd hOpen hNot.1, fun hPending => absurd hPending hNot.2⟩

theorem inTime_setChallengeStatus {status : ChallengeStatus} (hFinal : status.isFinal = true) :
    InTime env height r (setChallengeStatus c r status) := by
  refine inTime_of_final fun ch hCh => ?_
  rw [setChallengeStatus, modifyChallenge, getElem?_modify_eq, if_pos rfl] at hCh
  obtain ⟨old, _, rfl⟩ := Option.map_eq_some_iff.mp hCh
  exact hFinal

theorem inTime_expireChallenge : InTime env height r (expireChallenge env height c r) := by
  unfold expireChallenge
  split
  · rename_i hNone
    intro ch hCh
    rw [hNone] at hCh
    cases hCh
  · rename_i ch hCh
    split
    · rename_i hOpen
      split
      · rename_i hRecent
        intro ch' hCh'
        rw [hCh] at hCh'
        cases hCh'
        refine ⟨fun _ => hRecent, fun hPending => ?_⟩
        simp only [isOpen, isPendingResolution, beq_iff_eq]
          at hOpen hPending
        rw [hOpen] at hPending
        cases hPending
      · exact inTime_setChallengeStatus rfl
    · rename_i hNotOpen
      split
      · split
        · exact inTime_setChallengeStatus rfl
        · exact inTime_setChallengeStatus rfl
        · rename_i hFail hPass
          intro ch' hCh'
          rw [hCh] at hCh'
          cases hCh'
          exact ⟨fun hOpen => absurd hOpen hNotOpen, fun _ => ⟨hPass, hFail⟩⟩
      · rename_i hNotPending
        intro ch' hCh'
        rw [hCh] at hCh'
        cases hCh'
        exact ⟨fun hOpen => absurd hOpen hNotOpen, fun hPending => absurd hPending hNotPending⟩

theorem InTime.expireChallenge (h : InTime env height r c) (key : String) :
    InTime env height r (expireChallenge env height c key) := by
  by_cases hKey : key = r
  · rw [hKey]
    exact inTime_expireChallenge
  · rcases expireChallenge_cases env height c key with hEq | ⟨_, _, _, hEq⟩ | ⟨_, _, _, _, hEq⟩
    · rw [hEq]
      exact h
    · rw [hEq]
      intro ch hCh
      rw [getElem?_modify_eq, if_neg hKey] at hCh
      exact h ch hCh
    · rw [hEq]
      intro ch hCh
      rw [getElem?_modify_eq, if_neg hKey] at hCh
      exact h ch hCh

theorem inTime_expireChallenges : InTime env height r (expireChallenges env height c) := by
  by_cases hMem : r ∈ c.mapChallenges.keys
  · exact Run.foldl_of_mem hMem c (fun _ => inTime_expireChallenge)
      fun _ key h => h.expireChallenge key
  · refine List.foldlRecOn _ _ ?_ fun _ h key _ => h.expireChallenge key
    intro ch hCh
    exact absurd (Std.ExtTreeMap.mem_keys.mpr (Std.ExtTreeMap.mem_iff_isSome_getElem?.mpr
      (by rw [hCh]; rfl))) hMem

theorem inTime_connectPasses (vtx : List CTransaction) :
    InTime env height r (connectPasses env height vtx c) := by
  rw [connectPasses, blockPasses_eq]
  generalize hExpired : expireChallenges env height (processChallengerRewardPayments env vtx c) = d
  have hTime : InTime env height r d := hExpired ▸ inTime_expireChallenges
  have hSame := (SameMajorities.passPreserved env height d).toLatePreserved.latePasses
    (.refl d) vtx
  intro ch hCh
  rw [(latePasses_frame env height d vtx).1] at hCh
  rw [hSame.getAuditorMajorityResult]
  exact hTime ch hCh

end Docket

/-- On every forward run the dockets of all requests accept what happens to their challenges,
    and hold the disputes that are live at the end, exactly when every block meets the condition.
    After every block of the run no challenge that could have ended is still live. -/
theorem docket_iff_disputesKept (env : Env) (blocks : List CBlock) (node : NodeState)
    (hRun : PlainRun env blocks node) :
    ((∀ r, (docketEvents env r blocks).foldlM docketStep none = some (node.cache.liveDispute r)) ↔
      ∀ e ∈ blockTrace env blocks, DisputesKept env e.1 e.2) ∧
    ∀ e ∈ blockTrace env blocks, ∀ node',
      connectTip env e.1 e.2 = .ok node' → env.params.opoiActive e.1.nextHeight = true →
      ∀ r, InTime env e.1.nextHeight r node'.cache := by
  constructor
  · have hReads : ∀ r, (docketEvents env r blocks).foldlM docketStep none =
        some (node.cache.liveDispute r) ↔
        ∀ e ∈ blockTrace env blocks, ∀ t ∈ turns env e.1 e.2,
          t.2.opoiRequestId = r → TurnKept env t := fun r =>
      (Run.Reads.trace (fun node => node.cache.liveDispute r)
        (fun _ _ _ hTip => reads_block hTip) hRun).iff
    simp only [hReads]
    constructor
    · intro h e he
      obtain ⟨_, _, _, _, _, hTip, _⟩ := hRun.split_trace e he
      exact (turnKept_iff_disputesKept (connectTip_cache hTip).1).mp fun t ht =>
        h t.2.opoiRequestId e he t ht rfl
    · intro h r e he t ht _
      obtain ⟨_, _, _, _, _, hTip, _⟩ := hRun.split_trace e he
      exact (turnKept_iff_disputesKept (connectTip_cache hTip).1).mpr (h e he) t ht
  · intro e _ node' hTip hActive r
    rw [(connectTip_cache hTip).2.2, if_pos hActive]
    exact inTime_connectPasses e.2.vtx

/-- A challenge that is opened, revealed and proven. -/
theorem docket_of_proven_challenge :
    (∃ node, PlainRun sampleNet (sampleChallengedBlocks ++ [sampleSettlement []]) node ∧
      (docketEvents sampleNet "r"
        (sampleChallengedBlocks ++ [sampleSettlement []])).foldlM docketStep none =
        some (node.cache.liveDispute "r")) ∧
    docketEvents sampleNet "r" (sampleChallengedBlocks ++ [sampleSettlement []]) =
      [.opened ⟨"bob", ⟨4002, 2⟩⟩, .became ⟨"bob", ⟨4002, 2⟩⟩ .slashed] := by
  have hKept : ∀ e ∈ blockTrace sampleNet (sampleChallengedBlocks ++ [sampleSettlement []]),
      DisputesKept sampleNet e.1 e.2 := by decide +kernel
  exact ⟨Run.exists_steps_imp .other (fun _ => True) (by decide +kernel) fun node hRun _ =>
    (docket_iff_disputesKept _ _ node hRun).1.mpr hKept "r", by decide +kernel⟩

/-- The challenge of bob waits for the auditors. A COMMIT of alice for the same request is
    accepted and takes its place. -/
def sampleDisplaced : List CBlock := sampleAnswered
  [sampleBlock 7 [sampleChallengeCommit "r" "bob" ⟨4002, 2⟩ 5],
   sampleBlock 8 [sampleChallengeReveal "r" "bob" ⟨4002, 2⟩ 6],
   sampleBlock 9 [sampleChallengeCommit "r" "alice" ⟨4002, 1⟩ 7]]

theorem docket_fails_of_second_commit :
    (∃ node, PlainRun sampleNet sampleDisplaced node) ∧
    docketEvents sampleNet "r" sampleDisplaced =
      [.opened ⟨"bob", ⟨4002, 2⟩⟩, .became ⟨"bob", ⟨4002, 2⟩⟩ .revealedPending,
        .opened ⟨"alice", ⟨4002, 1⟩⟩] ∧
    (docketEvents sampleNet "r" sampleDisplaced).foldlM docketStep none = none := by
  have hEvents : docketEvents sampleNet "r" sampleDisplaced =
      [.opened ⟨"bob", ⟨4002, 2⟩⟩, .became ⟨"bob", ⟨4002, 2⟩⟩ .revealedPending,
        .opened ⟨"alice", ⟨4002, 1⟩⟩] := by decide +kernel
  exact ⟨Run.exists_run .other (by decide +kernel), hEvents, by rw [hEvents]; rfl⟩

end CloudService
