import ZeroStack.Store.Canonical

/-! The bindings, records and receipts of the durable journal and their validators. The
SHA-256 digests are parameters; a record stands for its canonical bytes. -/

namespace Zero.DurableJournal
open Zero.Store

def durableJournalSchemaVersion : ℕ := 2
def durableLeaseJournalSchemaVersion : ℕ := 3
def durableBindingSchemaVersion : ℕ := 1
def durableLeaseBindingSchemaVersion : ℕ := 2
def durableLeaseSchemaVersion : ℕ := 1
def durableReceiptSchemaVersion : ℕ := 1

inductive JournalState where
  | prepared
  | committed
  | aborted
  deriving DecidableEq

inductive AbortReason where
  | explicitAbort
  | recoveryObservedOldRoot
  | ownerDeathObservedOldRoot
  deriving DecidableEq

inductive RecoveryOutcome where
  | notStartedOldRoot
  | oldRootAborted
  | newRootCommitted
  | alreadyCommitted
  | alreadyAborted
  deriving DecidableEq

inductive JournalFailureCode where
  | schemaVersionMismatch
  | invalidBinding
  | profileSubstitution
  | journalMissing
  | rootMissing
  | tornOrNoncanonicalRecord
  | recordTooLarge
  | cartridgeMismatch
  | ownerIdentityMismatch
  | sequenceMismatch
  | rootMismatch
  | journalRootDisagreement
  | alreadyTerminal
  | leaseExpired
  | immutableReceiptConflict
  | ioBeforePublish
  | directorySyncFailedAfterPublish
  | injectedCrash
  | ownerDeath
  | indeterminate
  deriving DecidableEq

inductive JournalWrite where
  | rootInitialize
  | cartridge
  | prepare
  | rootPublish
  | commit
  | abort
  | ownerDeath
  | recovery
  deriving DecidableEq

inductive JournalBoundary where
  | beforeWrite (w : JournalWrite)
  | afterFileSync (w : JournalWrite)
  | afterRename (w : JournalWrite)
  | afterDirectorySync (w : JournalWrite)
  deriving DecidableEq

def boundaries (w : JournalWrite) : WriteBoundaries JournalBoundary :=
  ⟨.beforeWrite w, .afterFileSync w, .afterRename w, .afterDirectorySync w⟩

abbrev JournalError := StoreError JournalFailureCode JournalBoundary

def wording : Wording JournalFailureCode where
  noun := "record"
  tornOrNoncanonical := .tornOrNoncanonicalRecord
  recordTooLarge := .recordTooLarge
  immutableConflict := .immutableReceiptConflict
  ioBeforePublish := .ioBeforePublish
  directorySyncFailedAfterPublish := .directorySyncFailedAfterPublish
  injectedCrash := .injectedCrash

abbrev ProfileDigest := DurableProfileId → Sha256Digest

/-- The trait of the same name. The last field is what the validators of both bindings
ensure, and all that the journal's correctness asks of them. -/
class JournalBindingLike (B : Type) where
  bindingValidate : ProfileDigest → B → Except JournalError Unit
  oldRoot : B → Sha256Digest
  newRoot : B → Sha256Digest
  transactionId : B → Sha256Digest
  durableProfileDigest : B → Sha256Digest
  ownerIdentityDigest : B → Sha256Digest
  leaseExpiresAtUnixNs : B → Option ℕ
  recordSchemaVersion : ℕ
  validated : ∀ profile b, bindingValidate profile b = .ok () →
    oldRoot b ≠ .zero ∧ newRoot b ≠ .zero ∧ transactionId b ≠ .zero ∧
      ownerIdentityDigest b ≠ .zero ∧ oldRoot b ≠ newRoot b

open JournalBindingLike

structure JournalBinding where
  schemaVersion : ℕ
  transactionId : Sha256Digest
  assemblyManifestDigest : Sha256Digest
  durableProfileId : DurableProfileId
  durableProfileDigest : Sha256Digest
  oldRoot : Sha256Digest
  newRoot : Sha256Digest
  ownerIdentityDigest : Sha256Digest
  deriving DecidableEq

variable (profile : ProfileDigest)

def JournalBinding.new (transactionId assemblyManifestDigest : Sha256Digest)
    (durableProfileId : DurableProfileId) (oldRoot newRoot ownerIdentityDigest : Sha256Digest) : JournalBinding where
  schemaVersion := durableBindingSchemaVersion
  transactionId := transactionId
  assemblyManifestDigest := assemblyManifestDigest
  durableProfileId := durableProfileId
  durableProfileDigest := profile durableProfileId
  oldRoot := oldRoot
  newRoot := newRoot
  ownerIdentityDigest := ownerIdentityDigest

def JournalBinding.validate (b : JournalBinding) : Except JournalError Unit :=
  if b.schemaVersion ≠ durableBindingSchemaVersion then
    .error (.new .schemaVersionMismatch "journal binding schema version is not supported")
  else if Sha256Digest.zero ∈ [b.transactionId, b.assemblyManifestDigest, b.oldRoot, b.newRoot,
      b.ownerIdentityDigest] then
    .error (.new .invalidBinding "binding digests must be nonzero")
  else if b.oldRoot = b.newRoot then
    .error (.new .invalidBinding "old and new roots must differ")
  else if b.durableProfileDigest ≠ profile b.durableProfileId then
    .error (.new .profileSubstitution "durable profile identity does not match its frozen digest")
  else .ok ()

instance : JournalBindingLike JournalBinding where
  bindingValidate := JournalBinding.validate
  oldRoot := JournalBinding.oldRoot
  newRoot := JournalBinding.newRoot
  transactionId := JournalBinding.transactionId
  durableProfileDigest := JournalBinding.durableProfileDigest
  ownerIdentityDigest := JournalBinding.ownerIdentityDigest
  leaseExpiresAtUnixNs := fun _ => none
  recordSchemaVersion := durableJournalSchemaVersion
  validated := by
    intro profile b h
    unfold JournalBinding.validate at h
    split_ifs at h with _ hzero hroots
    simp only [List.mem_cons, not_or] at hzero
    exact ⟨Ne.symm hzero.2.2.1, Ne.symm hzero.2.2.2.1, Ne.symm hzero.1, Ne.symm hzero.2.2.2.2.1, hroots⟩

structure BindingLease where
  schemaVersion : ℕ
  leaseId : Sha256Digest
  epoch : ℕ
  expiresAtUnixNs : ℕ
  deriving DecidableEq

def BindingLease.validate (l : BindingLease) : Except JournalError Unit :=
  if l.schemaVersion ≠ durableLeaseSchemaVersion then
    .error (.new .schemaVersionMismatch "lease schema version is not supported")
  else if l.leaseId = .zero then
    .error (.new .invalidBinding "lease identity must be nonzero")
  else if l.epoch = 0 then
    .error (.new .invalidBinding "lease epoch must be positive")
  else if l.expiresAtUnixNs = 0 then
    .error (.new .invalidBinding "lease expiry must be nonzero")
  else .ok ()

structure JournalLeaseBinding where
  schemaVersion : ℕ
  transactionId : Sha256Digest
  assemblyManifestDigest : Sha256Digest
  durableProfileId : DurableProfileId
  durableProfileDigest : Sha256Digest
  oldRoot : Sha256Digest
  newRoot : Sha256Digest
  ownerIdentityDigest : Sha256Digest
  nonce : Sha256Digest
  protectedScope : Sha256Digest
  lease : BindingLease
  deriving DecidableEq

def JournalLeaseBinding.validate (b : JournalLeaseBinding) : Except JournalError Unit :=
  if b.schemaVersion ≠ durableLeaseBindingSchemaVersion then
    .error (.new .schemaVersionMismatch "five-term binding schema version is not supported")
  else if Sha256Digest.zero ∈ [b.transactionId, b.assemblyManifestDigest, b.oldRoot, b.newRoot,
      b.ownerIdentityDigest, b.nonce, b.protectedScope] then
    .error (.new .invalidBinding "five-term binding digests must be nonzero")
  else if b.oldRoot = b.newRoot then
    .error (.new .invalidBinding "old and new roots must differ")
  else if b.durableProfileDigest ≠ profile b.durableProfileId then
    .error (.new .profileSubstitution "durable profile identity does not match its frozen digest")
  else b.lease.validate

instance : JournalBindingLike JournalLeaseBinding where
  bindingValidate := JournalLeaseBinding.validate
  oldRoot := JournalLeaseBinding.oldRoot
  newRoot := JournalLeaseBinding.newRoot
  transactionId := JournalLeaseBinding.transactionId
  durableProfileDigest := JournalLeaseBinding.durableProfileDigest
  ownerIdentityDigest := JournalLeaseBinding.ownerIdentityDigest
  leaseExpiresAtUnixNs := fun b => some b.lease.expiresAtUnixNs
  recordSchemaVersion := durableLeaseJournalSchemaVersion
  validated := by
    intro profile b h
    unfold JournalLeaseBinding.validate at h
    split_ifs at h with _ hzero hroots
    simp only [List.mem_cons, not_or] at hzero
    exact ⟨Ne.symm hzero.2.2.1, Ne.symm hzero.2.2.2.1, Ne.symm hzero.1, Ne.symm hzero.2.2.2.2.1, hroots⟩

structure DurableJournalRecord (B : Type) where
  schemaVersion : ℕ
  binding : B
  state : JournalState
  sequence : ℕ
  predecessorRecordDigest : Option Sha256Digest
  abortReason : Option AbortReason
  deriving DecidableEq

structure RootPublicationReceipt where
  schemaVersion : ℕ
  transactionId : Sha256Digest
  rootDigest : Sha256Digest
  generation : ℕ
  preparedRecordDigest : Sha256Digest
  deriving DecidableEq

/-- The parameter keeps the cartridges of the two binding formats apart. -/
structure ContinuationCartridgeRecord (B : Type) where
  schemaVersion : ℕ
  bindingDigest : Sha256Digest
  preparedRecordDigest : Sha256Digest
  transactionId : Sha256Digest
  oldRoot : Sha256Digest
  newRoot : Sha256Digest
  durableProfileDigest : Sha256Digest
  ownerIdentityDigest : Sha256Digest
  deriving DecidableEq

structure OwnerDeathReceipt where
  schemaVersion : ℕ
  bindingDigest : Sha256Digest
  preparedRecordDigest : Sha256Digest
  ownerIdentityDigest : Sha256Digest
  observedJournalState : JournalState
  observedRoot : Sha256Digest
  observedAtUnixNs : ℕ
  failureCode : JournalFailureCode
  recoveryRequired : Bool
  deriving DecidableEq

structure RecoveryReceipt where
  schemaVersion : ℕ
  bindingDigest : Sha256Digest
  preparedRecordDigest : Sha256Digest
  terminalRecordDigest : Option Sha256Digest
  ownerDeathReceiptDigest : Option Sha256Digest
  observedRoot : Sha256Digest
  outcome : RecoveryOutcome
  journalRootCorrespondence : Bool
  promotable : Bool
  failureCode : Option JournalFailureCode
  deriving DecidableEq

/-- The five files of `JournalPaths`, which are distinct by construction there. -/
inductive Artefact where
  | rootRecord
  | journalRecord
  | cartridge
  | ownerDeathReceipt
  | recoveryReceipt
  deriving DecidableEq

abbrev Content (B : Type) : Artefact → Type
  | .rootRecord => RootPublicationReceipt
  | .journalRecord => DurableJournalRecord B
  | .cartridge => ContinuationCartridgeRecord B
  | .ownerDeathReceipt => OwnerDeathReceipt
  | .recoveryReceipt => RecoveryReceipt

instance {B : Type} [DecidableEq B] : ∀ k, DecidableEq (Content B k)
  | .rootRecord => inferInstanceAs (DecidableEq RootPublicationReceipt)
  | .journalRecord => inferInstanceAs (DecidableEq (DurableJournalRecord B))
  | .cartridge => inferInstanceAs (DecidableEq (ContinuationCartridgeRecord B))
  | .ownerDeathReceipt => inferInstanceAs (DecidableEq OwnerDeathReceipt)
  | .recoveryReceipt => inferInstanceAs (DecidableEq RecoveryReceipt)

/-- SHA-256 in its domains: of profiles, of bindings, and of the records of each file. -/
structure Hashes (B : Type) where
  profile : ProfileDigest
  binding : B → Sha256Digest
  content : (k : Artefact) → Content B k → Sha256Digest

variable {B : Type} [JournalBindingLike B] (H : Hashes B)

def bindingDigest (b : B) : Except JournalError Sha256Digest := do
  bindingValidate H.profile b
  pure (H.binding b)

namespace DurableJournalRecord

def prepared (binding : B) : DurableJournalRecord B :=
  ⟨recordSchemaVersion B, binding, .prepared, 1, none, none⟩

def committed (prepared : DurableJournalRecord B) (digest : Sha256Digest) : DurableJournalRecord B :=
  ⟨prepared.schemaVersion, prepared.binding, .committed, 2, some digest, none⟩

def aborted (prepared : DurableJournalRecord B) (digest : Sha256Digest) (reason : AbortReason) :
    DurableJournalRecord B :=
  ⟨prepared.schemaVersion, prepared.binding, .aborted, 2, some digest, some reason⟩

variable (r : DurableJournalRecord B)

def valid : Bool :=
  match r.state with
  | .prepared => r.sequence == 1 && r.predecessorRecordDigest.isNone && r.abortReason.isNone
  | .committed => r.sequence == 2 && r.predecessorRecordDigest.isSome && r.abortReason.isNone
  | .aborted => r.sequence == 2 && r.predecessorRecordDigest.isSome && r.abortReason.isSome

def validate : Except JournalError Unit :=
  if r.schemaVersion ≠ recordSchemaVersion B then
    .error (.new .schemaVersionMismatch "journal record schema version is not supported")
  else do
    bindingValidate H.profile r.binding
    if r.valid = false then
      .error (.new .sequenceMismatch "journal state and sequence commitments disagree")
    else .ok ()

def digest : Except JournalError Sha256Digest := do
  r.validate H
  pure (H.content .journalRecord r)

end DurableJournalRecord

namespace RootPublicationReceipt

def initial (rootDigest : Sha256Digest) : Except JournalError RootPublicationReceipt :=
  if rootDigest = .zero then
    .error (.new .invalidBinding "initial root digest must be nonzero")
  else .ok ⟨durableReceiptSchemaVersion, .zero, rootDigest, 0, .zero⟩

def published (binding : B) (preparedRecordDigest : Sha256Digest) : RootPublicationReceipt :=
  ⟨durableReceiptSchemaVersion, JournalBindingLike.transactionId binding, newRoot binding, 1, preparedRecordDigest⟩

variable (r : RootPublicationReceipt)

def isInitial : Bool :=
  r.generation == 0 && r.transactionId == .zero && r.preparedRecordDigest == .zero

def isTransactional : Bool :=
  r.generation == 1 && r.transactionId != .zero && r.preparedRecordDigest != .zero

def validate : Except JournalError Unit :=
  if r.schemaVersion ≠ durableReceiptSchemaVersion then
    .error (.new .schemaVersionMismatch "published root schema version is not supported")
  else if r.rootDigest = .zero ∨ (r.isInitial || r.isTransactional) = false then
    .error (.new .rootMismatch "root generation and transaction commitments disagree")
  else .ok ()

end RootPublicationReceipt

namespace ContinuationCartridgeRecord

def new (binding : B) (preparedRecordDigest : Sha256Digest) : Except JournalError (ContinuationCartridgeRecord B) := do
  let digest ← DurableJournal.bindingDigest H binding
  pure {
    schemaVersion := durableReceiptSchemaVersion
    bindingDigest := digest
    preparedRecordDigest := preparedRecordDigest
    transactionId := JournalBindingLike.transactionId binding
    oldRoot := JournalBindingLike.oldRoot binding
    newRoot := JournalBindingLike.newRoot binding
    durableProfileDigest := JournalBindingLike.durableProfileDigest binding
    ownerIdentityDigest := JournalBindingLike.ownerIdentityDigest binding }

def mismatch : JournalError :=
  .new .cartridgeMismatch "continuation cartridge does not bind the journal transaction"

def validateAgainst (c : ContinuationCartridgeRecord B) (binding : B) : Except JournalError Unit :=
  if c.schemaVersion ≠ durableReceiptSchemaVersion then .error mismatch
  else do
    let digest ← DurableJournal.bindingDigest H binding
    if c.bindingDigest ≠ digest ∨ c.transactionId ≠ JournalBindingLike.transactionId binding ∨
        c.oldRoot ≠ JournalBindingLike.oldRoot binding ∨ c.newRoot ≠ JournalBindingLike.newRoot binding ∨
        c.durableProfileDigest ≠ JournalBindingLike.durableProfileDigest binding ∨
        c.ownerIdentityDigest ≠ JournalBindingLike.ownerIdentityDigest binding ∨
        c.preparedRecordDigest = .zero then .error mismatch
    else .ok ()

end ContinuationCartridgeRecord

def OwnerDeathReceipt.validate (r : OwnerDeathReceipt) : Except JournalError Unit :=
  if r.schemaVersion ≠ durableReceiptSchemaVersion ∨ r.failureCode ≠ .ownerDeath ∨
      r.recoveryRequired = false ∨ r.bindingDigest = .zero ∨ r.preparedRecordDigest = .zero ∨
      r.ownerIdentityDigest = .zero ∨ r.observedRoot = .zero then
    .error (.new .invalidBinding "owner-death receipt is incomplete")
  else .ok ()

def RecoveryReceipt.validate (r : RecoveryReceipt) : Except JournalError Unit :=
  if r.schemaVersion ≠ durableReceiptSchemaVersion ∨ r.bindingDigest = .zero ∨
      r.observedRoot = .zero ∨ r.journalRootCorrespondence = false ∨ r.promotable = false ∨ r.failureCode.isSome then
    .error (.new .invalidBinding "successful recovery receipt is incomplete or non-promotable")
  else .ok ()

end Zero.DurableJournal
