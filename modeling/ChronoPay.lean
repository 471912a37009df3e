import ChronoPay.CheckoutSafety
import ChronoPay.ConflictPreview
import ChronoPay.DisputeFinality
import ChronoPay.EpsilonBudget
import ChronoPay.EscrowHoldings
import ChronoPay.EscrowPartialRelease
import ChronoPay.EscrowProjection
import ChronoPay.FeeBump
import ChronoPay.GdprErasureSafety
import ChronoPay.GraphqlAppend
import ChronoPay.HorizonBucket
import ChronoPay.HorizonHosts
import ChronoPay.HorizonStream
import ChronoPay.Idempotency
import ChronoPay.KekRotationCompleteness
import ChronoPay.KekRotationSafety
import ChronoPay.KeyWrap
import ChronoPay.MemoHash
import ChronoPay.MerkleTree
import ChronoPay.MfaLockout
import ChronoPay.OccurrenceSeries
import ChronoPay.PartialRefundApproval
import ChronoPay.PartnerQuota
import ChronoPay.PaymentRefunds
import ChronoPay.PgReversals
import ChronoPay.RecurringSafety
import ChronoPay.RedemptionLedger
import ChronoPay.RefundBackdating
import ChronoPay.RefundLedger
import ChronoPay.RefundSettlementSafety
import ChronoPay.Reminders
import ChronoPay.RescheduleSafety
import ChronoPay.ReversalReleases
import ChronoPay.RoleHierarchy
import ChronoPay.SlotOwnership
import ChronoPay.SubscriptionRecurrence
import ChronoPay.SubscriptionSafety
import ChronoPay.TaxRefund
import ChronoPay.TokenIssuance
