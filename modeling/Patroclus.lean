import Patroclus.Properties.EmergencyStop
import Patroclus.Properties.Revocation
import Patroclus.Properties.TokenKinds
import Patroclus.Properties.Attenuation
import Patroclus.Properties.DelegationChain
import Patroclus.Properties.Cascade
import Patroclus.Properties.DefaultDeny
import Patroclus.Properties.ScopeWords
import Patroclus.Properties.AuditLog
import Patroclus.Properties.Tampering
import Patroclus.Properties.Truncation
import Patroclus.Properties.DecisionLog
import Patroclus.Properties.AgentIsolation
import Patroclus.Properties.DryRunTruth
import Patroclus.Properties.DryRunEffect
import Patroclus.Properties.PolicyPublication
import Patroclus.Properties.HotReload
import Patroclus.Properties.LoginConfinement
import Patroclus.Properties.FederatedIdentity
import Patroclus.Properties.AuthGate
import Patroclus.Properties.SlidingWindow
import Patroclus.Properties.CounterIndependence
import Patroclus.Properties.ApprovalResolution
import Patroclus.Properties.ApprovalExpiry
import Patroclus.Properties.ClientKeys
import Patroclus.Properties.SpendLedger
import Patroclus.Properties.WorkflowOrder
import Patroclus.Properties.KillRace
import Patroclus.Properties.ActionCap
import Patroclus.Properties.RateSpread
import Patroclus.Properties.LoginStates
import Patroclus.Properties.DelegationExpiry
import Patroclus.Properties.OneExpiry
import Patroclus.Properties.GrantTree
import Patroclus.Properties.Attribution
import Patroclus.Properties.FailedIssuance
import Patroclus.Properties.VaultCustody
import Patroclus.Properties.Vending
import Patroclus.Properties.EnvOverride
import Patroclus.Properties.ForeignEnv
import Patroclus.Properties.LifetimeArithmetic
import Patroclus.Properties.CascadeReach
import Patroclus.Properties.CascadeAtomicity
import Patroclus.Properties.FailedLookup
import Patroclus.Properties.AuditReader
import Patroclus.Properties.EmptyDenial
import Patroclus.Properties.GrantExpiry
import Patroclus.Properties.CredentialMap
import Patroclus.Properties.TrustDecay
import Patroclus.Properties.PatternMeaning
import Patroclus.Properties.FailClosed
import Patroclus.Properties.AuthorizationUrl
import Patroclus.Properties.DatabaseIntegrity
import Patroclus.Properties.LoginProtocol
import Patroclus.Properties.SessionHistory
import Patroclus.Properties.TokenLineage
import Patroclus.Properties.MetricCounts
import Patroclus.Properties.HttpAccess
import Patroclus.Properties.SdkRequests
import Patroclus.Properties.SdkAnswers
