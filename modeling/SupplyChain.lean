import SupplyChain.Async.Proofs.OutlineProofs
import SupplyChain.Collections.Proofs.InsertionMapProofs
import SupplyChain.Inventory.Proofs.ScriptLedgerProofs
import SupplyChain.Inventory.Proofs.StandInProofs
import SupplyChain.Inventory.Proofs.ContentionProofs
import SupplyChain.Inventory.Proofs.KnownStockProofs
import SupplyChain.Resp.Proofs.ServerRepliesProofs
import SupplyChain.Events.Proofs.DeliveryProofs
import SupplyChain.Events.Proofs.PassBoundProofs
import SupplyChain.Events.Proofs.FailingHandlersProofs
import SupplyChain.Warehouse.Proofs.ConvergenceProofs
import SupplyChain.Orders.Proofs.RejectionProofs
import SupplyChain.Orders.Proofs.RedeliveryProofs
import SupplyChain.Orders.Proofs.ConcurrentRecoveryProofs
import SupplyChain.Orders.Proofs.RaceProofs
import SupplyChain.Orders.Proofs.TerminalProofs
import SupplyChain.Orders.Proofs.AuditTrailProofs
import SupplyChain.Orders.Proofs.PgReadsProofs
import SupplyChain.Orders.Proofs.TenantsProofs
import SupplyChain.Orders.Proofs.SweepProofs
import SupplyChain.Orders.Proofs.PublishedLogProofs
import SupplyChain.Orders.Proofs.HoldsProofs
import SupplyChain.Orders.Proofs.IntakeProofs
import SupplyChain.Api.Proofs.SseHubProofs
import SupplyChain.Inventory.Proofs.ExactScriptsProofs
import SupplyChain.Resp.Proofs.CommandsProofs
import SupplyChain.Auth.Proofs.SessionProofs
import SupplyChain.Auth.Proofs.CookiesProofs
import SupplyChain.Metrics.Proofs.MetricsProofs
import SupplyChain.Resp.Proofs.UnsupportedRepliesProofs
import SupplyChain.Resp.Proofs.ConnectionProofs
import SupplyChain.Orders.Proofs.RecoveryTrailProofs
import SupplyChain.Orders.Proofs.PgAloneProofs
import SupplyChain.Business.Proofs.BusinessStoresProofs
import SupplyChain.Api.JsonFormat
import SupplyChain.Api.LiveFeed
import SupplyChain.Api.Proofs.HubProgressProofs
import SupplyChain.Api.Proofs.LiveFeedProofs
import SupplyChain.Inventory.Proofs.RedisServerProofs
import SupplyChain.Inventory.Proofs.SharedStockProofs
import SupplyChain.Orders.Proofs.SerialOrderProofs
import SupplyChain.Api.BusinessRoutes
import SupplyChain.Api.BusinessServer
import SupplyChain.Api.Proofs.BusinessServerProofs
import SupplyChain.Api.Proofs.KeptAccountProofs
import SupplyChain.Api.Proofs.OneAccountProofs
import SupplyChain.Api.Proofs.PrivateAccountProofs
