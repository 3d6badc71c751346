import TradingAgent.PortfolioReducer.SnapshotReplay
import TradingAgent.PortfolioReducer.BustCorrection
import TradingAgent.PortfolioReducer.FillDigits
import TradingAgent.EventLedger.Convergence
import TradingAgent.EventLedger.JsonEncoders
import TradingAgent.RuntimeRisk.ApprovalBacking
import TradingAgent.RuntimeRisk.Recovery
import TradingAgent.RuntimeRisk.DerivedExposure
import TradingAgent.Nautilus.StreamAgreement
import TradingAgent.Nautilus.ProjectedTime
import TradingAgent.Nautilus.PaperSessionRuns
import TradingAgent.Nautilus.ControlChannel
import TradingAgent.ExecutionSandbox.Redelivery
import TradingAgent.ExecutionSandbox.Submitting
import TradingAgent.JobPlane.Audit
import TradingAgent.JobWorker.Settling
import TradingAgent.Nautilus.PaperReconciliation
import TradingAgent.AlphaCampaign.HoldoutSafety
import TradingAgent.AlphaCampaign.PublicationSafety
import TradingAgent.SafetySources.Freshness
import TradingAgent.LocalAuthority.Effects
import TradingAgent.OperatorControl.Admitted
import TradingAgent.SecurityMaster.Admission
import TradingAgent.Domain.OrderRuns
