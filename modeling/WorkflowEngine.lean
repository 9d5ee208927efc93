import WorkflowEngine.Fallible.Returns
import WorkflowEngine.Interleave.Answers
import WorkflowEngine.Interleave.Transfer
import WorkflowEngine.Proofs.AllowList
import WorkflowEngine.Proofs.AuditChain
import WorkflowEngine.Proofs.CompositeKeys
import WorkflowEngine.Proofs.ConnectorPins
import WorkflowEngine.Proofs.Convergence
import WorkflowEngine.Proofs.CustomerIsolation
import WorkflowEngine.Proofs.Deliveries
import WorkflowEngine.Proofs.DeskTasks
import WorkflowEngine.Proofs.Disclosure
import WorkflowEngine.Proofs.Eligibility
import WorkflowEngine.Proofs.EndpointTasks
import WorkflowEngine.Proofs.Evidence
import WorkflowEngine.Proofs.FactCommits
import WorkflowEngine.Proofs.Freshness
import WorkflowEngine.Proofs.Guidance
import WorkflowEngine.Proofs.HandoffAgents
import WorkflowEngine.Proofs.Intents
import WorkflowEngine.Proofs.KernelStore
import WorkflowEngine.Proofs.Lease
import WorkflowEngine.Proofs.Linkage
import WorkflowEngine.Proofs.Mediation
import WorkflowEngine.Proofs.PolicyRestart
import WorkflowEngine.Proofs.PolicyTampering
import WorkflowEngine.Proofs.Previewed
import WorkflowEngine.Proofs.ProposalKeys
import WorkflowEngine.Proofs.ProviderResponses
import WorkflowEngine.Proofs.RateLimit
import WorkflowEngine.Proofs.Redaction
import WorkflowEngine.Proofs.Refunds
import WorkflowEngine.Proofs.Replays
import WorkflowEngine.Proofs.RequestUrls
import WorkflowEngine.Proofs.SessionIsolation
import WorkflowEngine.Proofs.SessionMirror
import WorkflowEngine.Proofs.Steering
import WorkflowEngine.Proofs.Submission
import WorkflowEngine.Proofs.Sweeps
import WorkflowEngine.Proofs.TimestampOrder
import WorkflowEngine.Proofs.ToolTasks
import WorkflowEngine.Proofs.Validation
import WorkflowEngine.Proofs.Verifiable
import WorkflowEngine.Proofs.Withdrawal
import WorkflowEngine.Sanity.Amounts
import WorkflowEngine.Sanity.Endpoints
import WorkflowEngine.Separator.Escaped
import WorkflowEngine.Spec.ActionApi
import WorkflowEngine.Spec.ActionRequests
import WorkflowEngine.Spec.HandoffDesk
import WorkflowEngine.Spec.ModelTools
import WorkflowEngine.Spec.ToolCatalog
import WorkflowEngine.Proofs.HandoffDesk
import WorkflowEngine.Proofs.ServicePlane
