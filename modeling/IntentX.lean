import IntentX.Lib.Prog
import IntentX.Lib.Fault
import IntentX.Lib.Tx
import IntentX.Lib.Interleave
import IntentX.Lib.Pool
import IntentX.Lib.Table
import IntentX.Lib.Rely
import IntentX.Lib.Log
import IntentX.Lib.Guard
import IntentX.Lib.Ledger
import IntentX.Lib.Solana
import IntentX.Lib.Crash
import IntentX.Lib.Text
import IntentX.Lib.Radix
import IntentX.Lib.Bytes
import IntentX.Lib.Abi
import IntentX.Lib.Keyed
import IntentX.Lib.ShortVec
import IntentX.Lib.Rlp
import IntentX.Lib.Group
import IntentX.Basic
import IntentX.Sql
import IntentX.Balances
import IntentX.Settlement
import IntentX.Intents
import IntentX.Auction
import IntentX.Holdings
import IntentX.Transactions
import IntentX.Conservation
import IntentX.SettlementConc
import IntentX.Reconcile
import IntentX.Checker
import IntentX.Atomicity
import IntentX.Serial
import IntentX.LockAccounting
import IntentX.NonNegative
import IntentX.Terminal
import IntentX.Htlc
import IntentX.HtlcRuns
import IntentX.HtlcSafety
import IntentX.HtlcRelease
import IntentX.Streams
import IntentX.Delivery
import IntentX.MinOutput
import IntentX.SettlementWorker
import IntentX.Pipeline
import IntentX.Retries
import IntentX.Overfill
import IntentX.Release
import IntentX.EvmVault
import IntentX.SolanaVault
import IntentX.SolanaSolvency
import IntentX.VaultAgreement
import IntentX.SolanaHtlc
import IntentX.SolanaEscrow
import IntentX.Bridges
import IntentX.CrossChain
import IntentX.CrossRuns
import IntentX.Legs
import IntentX.MessageIds
import IntentX.HtlcOnce
import IntentX.BridgeOnce
import IntentX.AllOrNothing
import IntentX.Cascade
import IntentX.Finalize
import IntentX.Breaker
import IntentX.Signing
import IntentX.Idempotency
import IntentX.RateLimit
import IntentX.KeyRotation
import IntentX.UserLimits
import IntentX.IntentFaults
import IntentX.Lib.Ranking
import IntentX.Matching
import IntentX.Transfer
import IntentX.Amendment
import IntentX.AuctionOutcome
import IntentX.Twap
import IntentX.TwapProgress
import IntentX.TwapOrder
import IntentX.TwapCancel
import IntentX.Wallet
import IntentX.WalletNonces
import IntentX.WalletFailed
import IntentX.Vaa
import IntentX.Rlp
import IntentX.EthSign
import IntentX.SolanaTx
import IntentX.SolanaPrivileges
import IntentX.Confirmation
import IntentX.Positions
import IntentX.TwapSchedule
import IntentX.Receipts
import IntentX.BreakerClock
import IntentX.TokenBalance
import IntentX.Base58
import IntentX.Base64
import IntentX.SolanaSign
import IntentX.SolanaPda
import IntentX.Recipients
import IntentX.Calldata
import IntentX.Events
import IntentX.SignedText
import IntentX.Candles
import IntentX.Access
import IntentX.ApiKeys
import IntentX.Csrf
import IntentX.Gateway
import IntentX.GatewayRuns
import IntentX.TokenKeys
import IntentX.SolverReputation
import IntentX.Cache
import IntentX.EthPayment
import IntentX.Partitions
