import VyomQuant.Paper.Channel.Replay
import VyomQuant.Marketplace.Recorded
import VyomQuant.Marketplace.Entitlement
import VyomQuant.Paper.Session.BalanceLedger
import VyomQuant.Paper.Simulator.Provenance
import VyomQuant.Paper.Simulator.OneOrder
import VyomQuant.Marketplace.PayoutSweep
import VyomQuant.Signals.AuditChain
import VyomQuant.Referral.Conservation
import VyomQuant.Marketplace.ExpiryEnforcement
import VyomQuant.Execution.FillDeduplication
import VyomQuant.Execution.DistributedIdempotency
import VyomQuant.Plans.UsageLedger
import VyomQuant.Risk.Exits
import VyomQuant.Risk.DailyLoss
import VyomQuant.Billing.WebhookIdempotency
import VyomQuant.MarketData.StreamAndBatch
import VyomQuant.Paper.Service.Reservations
import VyomQuant.Paper.Service.RiskGates
import VyomQuant.Execution.CircuitBreaker
import VyomQuant.Paper.Accounting.Drawdown
import VyomQuant.Paper.Feed.Duplicates
import VyomQuant.Paper.Simulator.StaticAcceptance
import VyomQuant.Paper.Simulator.Fingerprint
import VyomQuant.Paper.Accounting.Reconciliation
import VyomQuant.Marketplace.EligibilityGate
import VyomQuant.Lifecycle.HonestLabels
import VyomQuant.Paper.Feed.PersistedState
import VyomQuant.Paper.Simulator.ClosingOrders
import VyomQuant.Paper.Session.Revaluation
import VyomQuant.StrategyDag.StoredGraph
import VyomQuant.StrategyDag.LongestWarmups
import VyomQuant.StrategyDag.ConnectGate
import VyomQuant.Marketplace.PriceEvidence
import VyomQuant.Execution.IdempotencyKeys
import VyomQuant.Backtest.SignalPath
import VyomQuant.Execution.OrderStateMachine
import VyomQuant.Execution.CanonicalLifecycle
import VyomQuant.Execution.ProtectedCalls
import VyomQuant.Execution.TradeHistory
import VyomQuant.Execution.JournalReplay
import VyomQuant.StrategyDag.FeatureMatrix
import VyomQuant.StrategyDag.SignalIntents
import VyomQuant.Execution.LeaderLease
import VyomQuant.Execution.TokenBucket
import VyomQuant.Risk.PortfolioEngine
import VyomQuant.Paper.Service.BotLedger
