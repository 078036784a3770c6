/-
  What a block may issue (`main.cpp`, `chainparams.h`): the subsidy with its slow start and
  halvings, and the funds.
-/

import CloudService.Primitives.Types
import Mathlib.Tactic.Linarith

namespace CloudService

def MAX_MONEY : CAmount := 2000000000 * COIN

def moneyRange (nValue : CAmount) : Bool := decide (0 ≤ nValue) && decide (nValue ≤ MAX_MONEY)

theorem moneyRange_iff {nValue : CAmount} :
    moneyRange nValue = true ↔ 0 ≤ nValue ∧ nValue ≤ MAX_MONEY := by
  simp [moneyRange]

/-- A fund that is paid in instalments. -/
structure FundSchedule where
  nStartHeight : Int
  nAmount : CAmount
  nInterval : Int
  nMaxTimes : Int
  nAmount_nonneg : 0 ≤ nAmount := by decide

/-- The part of `CChainParams` that the coinbase limit reads. -/
structure ChainParams where
  nSubsidySlowStartInterval : Int
  nSubsidyHalvingInterval : Int
  nExchangeFundingHeight : Int
  nExchangeFundingAmount : CAmount
  nFoundationFundingHeight : Int
  nFoundationFundingAmount : CAmount
  swapPool : FundSchedule
  devFund : FundSchedule
  marketingFund : FundSchedule
  exchange_nonneg : 0 ≤ nExchangeFundingAmount := by decide
  foundation_nonneg : 0 ≤ nFoundationFundingAmount := by decide

/-- `CMainParams`. -/
def mainParams : ChainParams where
  nSubsidySlowStartInterval := 20000
  nSubsidyHalvingInterval := 655350
  nExchangeFundingHeight := 100000
  nExchangeFundingAmount := 100000000 * COIN
  nFoundationFundingHeight := 101000
  nFoundationFundingAmount := 10000000 * COIN
  swapPool :=
    { nStartHeight := 102000, nAmount := 20000000 * COIN, nInterval := 21600, nMaxTimes := 10 }
  devFund :=
    { nStartHeight := 150000, nAmount := 5000000 * COIN, nInterval := 21600, nMaxTimes := 100 }
  marketingFund :=
    { nStartHeight := 150001, nAmount := 5000000 * COIN, nInterval := 21600, nMaxTimes := 100 }

/-- `CRegTestParams`. -/
def regtestParams : ChainParams where
  nSubsidySlowStartInterval := 0
  nSubsidyHalvingInterval := 150
  nExchangeFundingHeight := 10
  nExchangeFundingAmount := 3000000 * COIN
  nFoundationFundingHeight := 10
  nFoundationFundingAmount := 2500000 * COIN
  swapPool := { nStartHeight := 10, nAmount := 2100000 * COIN, nInterval := 10, nMaxTimes := 5 }
  devFund := { nStartHeight := 50, nAmount := 500000 * COIN, nInterval := 10, nMaxTimes := 100 }
  marketingFund :=
    { nStartHeight := 51, nAmount := 500000 * COIN, nInterval := 10, nMaxTimes := 100 }

section Amounts

variable (p : ChainParams) (nHeight : Int)

def ChainParams.subsidySlowStartShift : Int := p.nSubsidySlowStartInterval.tdiv 2

/-- `GetBlockSubsidy`. The shift of a positive amount is a division. -/
def getBlockSubsidy : CAmount :=
  let nSubsidy := 150 * COIN
  if nHeight = 1 then 13020000 * COIN
  -- Mining slow start: a linear ramp that skips the middle payout.
  else if nHeight < p.nSubsidySlowStartInterval.tdiv 2 then
    nSubsidy.tdiv p.nSubsidySlowStartInterval * nHeight
  else if nHeight < p.nSubsidySlowStartInterval then
    nSubsidy.tdiv p.nSubsidySlowStartInterval * (nHeight + 1)
  else
    let halvings := (nHeight - p.subsidySlowStartShift).tdiv p.nSubsidyHalvingInterval
    if 64 ≤ halvings then 0
    -- After two halvings the reward stays where it is.
    else if 2 ≤ halvings then nSubsidy / 4
    else nSubsidy / 2 ^ halvings.toNat

def getExchangeFundAmount : CAmount :=
  if nHeight = p.nExchangeFundingHeight then p.nExchangeFundingAmount else 0

def getFoundationFundAmount : CAmount :=
  if nHeight = p.nFoundationFundingHeight then p.nFoundationFundingAmount else 0

/-- The common body of the three interval tests. -/
def isFundInterval (f : FundSchedule) : Bool :=
  if nHeight < f.nStartHeight then false
  else if f.nStartHeight + f.nInterval * f.nMaxTimes < nHeight then false
  else (List.range f.nMaxTimes.toNat).any fun i => nHeight == f.nStartHeight + f.nInterval *
    (i : Int)

/-- `IsSwapPoolInterval`, `IsDevFundInterval` and `IsMarketingFundInterval`. -/
def isSwapPoolInterval : Bool := isFundInterval nHeight p.swapPool
def isDevFundInterval : Bool := isFundInterval nHeight p.devFund
def isMarketingFundInterval : Bool := isFundInterval nHeight p.marketingFund

/-- What the coinbase may pay beyond the fees: the subsidy and the funds due. -/
def coinbaseAllowance : CAmount :=
  getBlockSubsidy p nHeight + getExchangeFundAmount p nHeight +
    (if isSwapPoolInterval p nHeight then p.swapPool.nAmount else 0) +
    getFoundationFundAmount p nHeight +
    (if isDevFundInterval p nHeight then p.devFund.nAmount else 0) +
    (if isMarketingFundInterval p nHeight then p.marketingFund.nAmount else 0)

theorem getBlockSubsidy_nonneg (h : 0 ≤ nHeight) : 0 ≤ getBlockSubsidy p nHeight := by
  have hBase : (0 : Int) ≤ 150 * COIN := by decide
  unfold getBlockSubsidy
  dsimp only
  split
  · decide
  · split
    · rename_i hSlow
      have hInterval : 0 ≤ p.nSubsidySlowStartInterval := by
        by_contra hNeg
        have hHalf : p.nSubsidySlowStartInterval.tdiv 2 ≤ 0 := by
          rw [← Int.neg_neg p.nSubsidySlowStartInterval, Int.neg_tdiv, Int.neg_nonpos_iff]
          exact Int.tdiv_nonneg (by omega) (by decide)
        omega
      exact Int.mul_nonneg (Int.tdiv_nonneg hBase hInterval) h
    · split
      · exact Int.mul_nonneg (Int.tdiv_nonneg hBase (by omega)) (by omega)
      · split
        · exact Int.le_refl 0
        · split
          · decide
          · exact Int.ediv_nonneg hBase (Int.pow_nonneg (by decide))

theorem coinbaseAllowance_nonneg (h : 0 ≤ nHeight) : 0 ≤ coinbaseAllowance p nHeight := by
  have hSubsidy := getBlockSubsidy_nonneg p nHeight h
  have hExchange : 0 ≤ getExchangeFundAmount p nHeight := by
    unfold getExchangeFundAmount
    split
    · exact p.exchange_nonneg
    · exact Int.le_refl 0
  have hFoundation : 0 ≤ getFoundationFundAmount p nHeight := by
    unfold getFoundationFundAmount
    split
    · exact p.foundation_nonneg
    · exact Int.le_refl 0
  have hFund : ∀ (f : FundSchedule) (due : Bool), 0 ≤ if due then f.nAmount else 0 := by
    intro f due
    split
    · exact f.nAmount_nonneg
    · exact Int.le_refl 0
  have hSwap := hFund p.swapPool (isSwapPoolInterval p nHeight)
  have hDev := hFund p.devFund (isDevFundInterval p nHeight)
  have hMarketing := hFund p.marketingFund (isMarketingFundInterval p nHeight)
  unfold coinbaseAllowance
  linarith

end Amounts

end CloudService
