import CloudService.Locks.Control
import CloudService.Challenges.Payouts
import CloudService.Coinbase.RewardOnce
import CloudService.Coinbase.OwnOutputs
import CloudService.Chain.ProcessNewBlock
import CloudService.Responses.Verdicts
import CloudService.Signatures.Coverage
import CloudService.Responses.TokenLimit
import CloudService.Responses.AuditSample
import CloudService.Responses.RequestStatus
import CloudService.Challenges.Docket
import CloudService.Auditors.ShardVotes
import CloudService.Governance.Approval
import CloudService.Shards.Resolved
import CloudService.Auditors.Final
import CloudService.Amounts.Issuance
import CloudService.Locks.Unspent
import CloudService.Coins.Disconnect
import CloudService.CSApp.Control
import CloudService.Fluxnode.Reorg
import CloudService.Coinbase.Allowance
import CloudService.Consensus.Pow
import CloudService.Chain.Redelivery
import CloudService.Chain.BlockIndex
import CloudService.Responses.Sortition
import CloudService.OPoI.Vrf
