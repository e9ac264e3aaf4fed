import ZeroStack.Store.Canonical

/-! The entries of an attempt journal and their validators. The SHA-256 digests are parameters, so nothing below rests
on a property of the hash. -/

namespace Zero.AttemptJournal
open Zero.Store

def attemptJournalSchemaVersion : ℕ := 1
def attemptBindingSchemaVersion : ℕ := 1
def attemptReceiptSchemaVersion : ℕ := 1
def attemptJournalMaxEntries : ℕ := 8

inductive AttemptState where
  | prepared
  | dispatchCrossed
  | succeeded
  | failed
  | indeterminate
  | safeToRetry
  | aborted
  deriving DecidableEq

def AttemptState.asStr : AttemptState → String
  | .prepared => "prepared"
  | .dispatchCrossed => "dispatch_crossed"
  | .succeeded => "succeeded"
  | .failed => "failed"
  | .indeterminate => "indeterminate"
  | .safeToRetry => "safe_to_retry"
  | .aborted => "aborted"

def AttemptState.isTerminal : AttemptState → Bool
  | .succeeded | .failed | .indeterminate | .safeToRetry | .aborted => true
  | .prepared | .dispatchCrossed => false

inductive AttemptAbortReason where
  | explicitAbort
  deriving DecidableEq

inductive AttemptRecoveryOutcome where
  | alreadySucceeded
  | alreadyFailed
  | alreadyIndeterminate
  | alreadySafeToRetry
  | alreadyAborted
  | classifiedSucceeded
  | classifiedFailed
  | classifiedIndeterminate
  | classifiedSafeToRetry
  deriving DecidableEq

inductive AttemptFailureCode where
  | schemaVersionMismatch
  | invalidBinding
  | profileSubstitution
  | journalMissing
  | entryMissing
  | tornOrNoncanonicalRecord
  | recordTooLarge
  | tooManyEntries
  | sequenceMismatch
  | invalidTransition
  | invalidEvidence
  | receiptMismatch
  | immutableEntryConflict
  | alreadyTerminal
  | ioBeforePublish
  | directorySyncFailedAfterPublish
  | injectedCrash
  deriving DecidableEq

inductive AttemptWrite where
  | prepare
  | dispatchCross
  | succeed
  | fail
  | indeterminate
  | abort
  | recover
  deriving DecidableEq

inductive AttemptBoundary where
  | beforeWrite (w : AttemptWrite)
  | afterFileSync (w : AttemptWrite)
  | afterRename (w : AttemptWrite)
  | afterDirectorySync (w : AttemptWrite)
  deriving DecidableEq

def boundaries (w : AttemptWrite) : WriteBoundaries AttemptBoundary :=
  ⟨.beforeWrite w, .afterFileSync w, .afterRename w, .afterDirectorySync w⟩

abbrev AttemptJournalError := StoreError AttemptFailureCode AttemptBoundary

def wording : Wording AttemptFailureCode where
  noun := "entry"
  tornOrNoncanonical := .tornOrNoncanonicalRecord
  recordTooLarge := .recordTooLarge
  immutableConflict := .immutableEntryConflict
  ioBeforePublish := .ioBeforePublish
  directorySyncFailedAfterPublish := .directorySyncFailedAfterPublish
  injectedCrash := .injectedCrash

structure AttemptBinding where
  schemaVersion : ℕ
  attemptId : Sha256Digest
  effectDigest : Sha256Digest
  effectClass : EffectClass
  admissionAnchorDigest : Sha256Digest
  durableProfileId : DurableProfileId
  durableProfileDigest : Sha256Digest
  ownerIdentityDigest : Sha256Digest
  deriving DecidableEq

inductive AttemptEvidence where
  | completion (receiptDigest : Sha256Digest) (observedAtUnixNs : ℕ)
  | failure (failureReceiptDigest : Sha256Digest) (observedAtUnixNs : ℕ)
  deriving DecidableEq

structure AttemptEntry where
  schemaVersion : ℕ
  binding : AttemptBinding
  state : AttemptState
  sequence : ℕ
  predecessorEntryDigest : Option Sha256Digest
  crossedAtUnixNs : Option ℕ
  abortReason : Option AttemptAbortReason
  evidence : Option AttemptEvidence
  deriving DecidableEq

structure AttemptRecoveryReceipt where
  schemaVersion : ℕ
  bindingDigest : Sha256Digest
  outcome : AttemptRecoveryOutcome
  terminalEntryDigest : Sha256Digest
  terminalState : AttemptState
  deriving DecidableEq

structure Hashes where
  profile : DurableProfileId → Sha256Digest
  binding : AttemptBinding → Sha256Digest
  entry : AttemptEntry → Sha256Digest

def AttemptBinding.new (H : Hashes) (attemptId effectDigest : Sha256Digest)
    (effectClass : EffectClass) (admissionAnchorDigest : Sha256Digest)
    (durableProfileId : DurableProfileId) (ownerIdentityDigest : Sha256Digest) : AttemptBinding where
  schemaVersion := attemptBindingSchemaVersion
  attemptId := attemptId
  effectDigest := effectDigest
  effectClass := effectClass
  admissionAnchorDigest := admissionAnchorDigest
  durableProfileId := durableProfileId
  durableProfileDigest := H.profile durableProfileId
  ownerIdentityDigest := ownerIdentityDigest

def AttemptBinding.validate (H : Hashes) (b : AttemptBinding) : Except AttemptJournalError Unit :=
  if b.schemaVersion ≠ attemptBindingSchemaVersion then
    .error (.new .schemaVersionMismatch "attempt binding schema version is not supported")
  else if Sha256Digest.zero ∈
      [b.attemptId, b.effectDigest, b.admissionAnchorDigest, b.ownerIdentityDigest] then
    .error (.new .invalidBinding "attempt binding digests must be nonzero")
  else if b.durableProfileDigest ≠ H.profile b.durableProfileId then
    .error (.new .profileSubstitution
      "durable profile identity does not match the canonical digest")
  else .ok ()

def AttemptBinding.digest (H : Hashes) (b : AttemptBinding) : Except AttemptJournalError Sha256Digest := do
  b.validate H
  pure (H.binding b)

theorem AttemptBinding.digest_of_valid {H : Hashes} {b : AttemptBinding}
    (h : b.validate H = .ok ()) : b.digest H = .ok (H.binding b) := by
  simp only [digest, h]
  rfl

def AttemptEvidence.validate : AttemptEvidence → Except AttemptJournalError Unit
  | .completion receiptDigest _ =>
    if receiptDigest = .zero then
      .error (.new .invalidEvidence "completion receipt digest must be nonzero")
    else .ok ()
  | .failure failureReceiptDigest _ =>
    if failureReceiptDigest = .zero then
      .error (.new .invalidEvidence "failure receipt digest must be nonzero")
    else .ok ()

namespace AttemptEntry

def prepared (binding : AttemptBinding) (sequence : ℕ) : AttemptEntry :=
  ⟨attemptJournalSchemaVersion, binding, .prepared, sequence, none, none, none, none⟩

def successor (previous : AttemptEntry) (digest : Sha256Digest) (sequence : ℕ)
    (state : AttemptState) (crossedAtUnixNs : Option ℕ)
    (abortReason : Option AttemptAbortReason) (evidence : Option AttemptEvidence) : AttemptEntry :=
  ⟨attemptJournalSchemaVersion, previous.binding, state, sequence, some digest, crossedAtUnixNs, abortReason, evidence⟩

variable (prepared : AttemptEntry)

def dispatchCrossed (preparedDigest : Sha256Digest) (sequence : ℕ) (crossedAtUnixNs : ℕ) : AttemptEntry :=
  successor prepared preparedDigest sequence .dispatchCrossed (some crossedAtUnixNs) none none

variable (dispatch : AttemptEntry)

def succeeded (dispatchDigest : Sha256Digest) (sequence : ℕ) (evidence : AttemptEvidence) : AttemptEntry :=
  successor dispatch dispatchDigest sequence .succeeded none none (some evidence)

def failed (dispatchDigest : Sha256Digest) (sequence : ℕ) (evidence : AttemptEvidence) : AttemptEntry :=
  successor dispatch dispatchDigest sequence .failed none none (some evidence)

def indeterminate (dispatchDigest : Sha256Digest) (sequence : ℕ) :
    AttemptEntry := successor dispatch dispatchDigest sequence .indeterminate none none none

def safeToRetry (preparedDigest : Sha256Digest) (sequence : ℕ) :
    AttemptEntry := successor prepared preparedDigest sequence .safeToRetry none none none

def aborted (preparedDigest : Sha256Digest) (sequence : ℕ) (reason : AttemptAbortReason) : AttemptEntry :=
  successor prepared preparedDigest sequence .aborted none (some reason) none

def structural (e : AttemptEntry) : Bool :=
  match e.state with
  | .prepared => e.sequence == 1 && e.predecessorEntryDigest.isNone &&
      e.crossedAtUnixNs.isNone && e.abortReason.isNone
  | .dispatchCrossed => e.sequence ≥ 2 && e.predecessorEntryDigest.isSome &&
      e.crossedAtUnixNs.isSome && e.abortReason.isNone
  | .succeeded | .failed | .indeterminate | .safeToRetry =>
      e.sequence ≥ 2 && e.predecessorEntryDigest.isSome &&
      e.crossedAtUnixNs.isNone && e.abortReason.isNone
  | .aborted => e.sequence ≥ 2 && e.predecessorEntryDigest.isSome &&
      e.crossedAtUnixNs.isNone && e.abortReason.isSome

def paired (e : AttemptEntry) : Bool :=
  match e.state, e.evidence with
  | .succeeded, some (.completion _ _) => true
  | .succeeded, _ => false
  | .failed, some (.failure _ _) => true
  | .failed, _ => false
  | _, evidence => evidence.isNone

def validate (H : Hashes) (e : AttemptEntry) : Except AttemptJournalError Unit :=
  if e.schemaVersion ≠ attemptJournalSchemaVersion then
    .error (.new .schemaVersionMismatch "attempt entry schema version is not supported")
  else do
    e.binding.validate H
    if e.structural = false then
      .error (.new .sequenceMismatch "attempt state and sequence commitments disagree")
    else if e.paired = false then
      .error (.new .invalidEvidence "attempt evidence does not match the entry state")
    else
      match e.evidence with
      | some evidence => evidence.validate
      | none => .ok ()

theorem validate_of_parts {H : Hashes} {e : AttemptEntry}
    (hv : e.schemaVersion = attemptJournalSchemaVersion) (hb : e.binding.validate H = .ok ())
    (hs : e.structural = true) (hp : e.paired = true)
    (he : ∀ evidence, e.evidence = some evidence → evidence.validate = .ok ()) : e.validate H = .ok () := by
  simp only [validate, hv, hb, hs, hp, bind, Except.bind]
  cases hev : e.evidence with
  | none => simp
  | some evidence => simpa using he evidence hev

def digest (H : Hashes) (e : AttemptEntry) : Except AttemptJournalError Sha256Digest := do
  e.validate H
  pure (H.entry e)

theorem digest_of_valid {H : Hashes} {e : AttemptEntry} (h : e.validate H = .ok ()) : e.digest H = .ok (H.entry e) := by
  simp only [digest, h]
  rfl

end AttemptEntry

namespace AttemptRecoveryReceipt

def paired (r : AttemptRecoveryReceipt) : Bool :=
  match r.outcome, r.terminalState with
  | .alreadySucceeded, .succeeded | .alreadyFailed, .failed
  | .alreadyIndeterminate, .indeterminate | .alreadyAborted, .aborted
  | .alreadySafeToRetry, .safeToRetry | .classifiedSucceeded, .succeeded
  | .classifiedFailed, .failed | .classifiedIndeterminate, .indeterminate
  | .classifiedSafeToRetry, .safeToRetry => true
  | _, _ => false

def validate (r : AttemptRecoveryReceipt) : Except AttemptJournalError Unit :=
  if r.schemaVersion ≠ attemptReceiptSchemaVersion then
    .error (.new .schemaVersionMismatch "attempt recovery receipt schema version is not supported")
  else if r.bindingDigest = .zero ∨ r.terminalEntryDigest = .zero ∨ r.terminalState.isTerminal = false then
    .error (.new .invalidBinding "attempt recovery receipt is incomplete")
  else if r.paired = false then
    .error (.new .invalidBinding "attempt recovery receipt outcome and terminal state disagree")
  else .ok ()

end AttemptRecoveryReceipt

end Zero.AttemptJournal
