import Patroclus.Platform
import Patroclus.Foundation.Hex

/-!
# Audit entries

`AuditEntry::compute_hash` feeds the fields of an entry to one hasher, one after
the other and without separators or lengths between them.
-/

namespace Patroclus

open Foundation

structure AuditEntry where
  id : Int
  prevHash : String
  rowHash : String
  agentId : Uuid
  principalId : Option Uuid
  action : String
  resource : String
  decision : String
  reason : String
  delegationChain : Option Json
  tokenJti : Option String
  dryRun : Bool
  timestamp : Instant
deriving DecidableEq, Repr

structure CreateAuditEntry where
  agentId : Uuid
  principalId : Option Uuid
  action : String
  resource : String
  decision : Decision
  reason : String
  delegationChain : Option Json
  tokenJti : Option String
  dryRun : Bool
deriving DecidableEq, Repr

namespace AuditEntry

variable (p : Platform)

/-- The bytes that the hasher has seen in the end. -/
def hashInput (entry : AuditEntry) : List UInt8 :=
  utf8 entry.prevHash ++ utf8 entry.agentId.toString ++
  (entry.principalId.elim [] fun principalId => utf8 principalId.toString) ++
  utf8 entry.action ++ utf8 entry.resource ++ utf8 entry.decision ++ utf8 entry.reason ++
  utf8 (p.toRfc3339 entry.timestamp) ++
  (entry.delegationChain.elim [] fun chain => utf8 (p.jsonToString chain)) ++
  (entry.tokenJti.elim [] utf8) ++
  [if entry.dryRun then 1 else 0]

def computeHash (entry : AuditEntry) : String :=
  String.ofList (hexBytes (p.sha256 (entry.hashInput p)))

end AuditEntry

end Patroclus
