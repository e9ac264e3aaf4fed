import ZeroStack.Abi

/-! Roots of objects: the digest of a preimage that names the algorithm, the class and the version of the bytes. -/

open Wire

namespace Zero.Identity

def rootedAbiVersion : String := "zerostack.racc"
def rootHashAlgorithm : String := "sha256"

inductive IdentityKernelError where
  | wrongAbiVersion (actual : String)
  | nonCanonicalBytes (detail : String)
  | invalidEventRecord (detail : String)
  | tornEventLog (seq : ℕ) (expected actual : Sha256Digest)
  | reorderedEventLog (seq : ℕ) (expectedParent actualParent : Sha256Digest)
  deriving DecidableEq

def toHex (d : Sha256Digest) : String :=
  String.ofList ((digestBytes d).flatMap fun b => [Nat.digitChar (b.toNat / 16), Nat.digitChar (b.toNat % 16)])

def IdentityKernelError.display : IdentityKernelError → String
  | .wrongAbiVersion actual => s!"abi version must be {rootedAbiVersion}, got {actual}"
  | .nonCanonicalBytes detail => s!"noncanonical bytes: {detail}"
  | .invalidEventRecord detail => s!"invalid event record: {detail}"
  | .tornEventLog seq expected actual =>
    "torn event log at seq " ++ toString seq ++ ": expected head " ++ toHex expected ++ ", record chained to " ++
      toHex actual
  | .reorderedEventLog seq expected actual =>
    "reordered event log at seq " ++ toString seq ++ ": expected parent " ++ toHex expected ++ ", got " ++ toHex actual

inductive ObjectClass where
  | taskContract
  | protectedScope
  | formationReceipt
  | eventRecord
  | successorRecord
  | executeResult
  | continuationHandle
  | continuationCompactRecord
  | decisionView
  | delta
  | authorityObject
  | safeExpandHandle
  | migrationReceipt
  deriving DecidableEq

def ObjectClass.domain : ObjectClass → String
  | .taskContract => "zerostack.object.task_contract"
  | .protectedScope => "zerostack.object.protected_scope"
  | .formationReceipt => "zerostack.object.formation_receipt"
  | .eventRecord => "zerostack.object.event_record"
  | .successorRecord => "zerostack.object.successor_record"
  | .executeResult => "zerostack.object.execute_result"
  | .continuationHandle => "zerostack.object.continuation_handle"
  | .continuationCompactRecord => "zerostack.object.continuation_compact_record"
  | .decisionView => "zerostack.object.decision_view"
  | .delta => "zerostack.object.delta"
  | .authorityObject => "zerostack.object.authority_object"
  | .safeExpandHandle => "zerostack.object.safe_expand_handle"
  | .migrationReceipt => "zerostack.object.migration_receipt"

def rootPreimage (objectClass : ObjectClass) (abiVersion : String) (canonicalPayload : List UInt8) : List UInt8 :=
  utf8Bytes rootHashAlgorithm ++ [0] ++ utf8Bytes objectClass.domain ++ [0] ++ utf8Bytes abiVersion ++ [0] ++
    canonicalPayload

/-- The class is bound by the caller of `objectRoot`, not here. -/
def canonicalObjectBytes (_objectClass : ObjectClass) (abiVersion : String) (payload : Json) :
    Except IdentityKernelError (List UInt8) :=
  if abiVersion ≠ rootedAbiVersion then .error (.wrongAbiVersion abiVersion)
  else if payload.canonical = [] then .error (.nonCanonicalBytes "empty canonical payload")
  else .ok payload.canonical

def objectRoot (sha256 : List UInt8 → Sha256Digest) (objectClass : ObjectClass) (abiVersion : String)
    (canonicalPayload : List UInt8) : Except IdentityKernelError Sha256Digest :=
  if abiVersion ≠ rootedAbiVersion then .error (.wrongAbiVersion abiVersion)
  else .ok (sha256 (rootPreimage objectClass abiVersion canonicalPayload))

end Zero.Identity
