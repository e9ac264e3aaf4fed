import ZeroStack.DurableJournal.Records

/-! The operations of the durable journal. Every read of one of the five files and every
publication of one is a step of the program. -/

open Durable.Fallible (fail ofExcept)

namespace Zero.DurableJournal
open Durable Zero.Store JournalBindingLike

abbrev JournalFiles (B : Type) := Files Artefact (Content B)

abbrev JournalM (B : Type) := FileProgram Artefact (Content B) JournalError

def optional {α : Type} (missing : JournalFailureCode) : Except JournalError α → Except JournalError (Option α)
  | .ok value => .ok (some value)
  | .error error => if error.code = missing then .ok none else .error error

def disagreement (detail : String) : JournalError := .new .journalRootDisagreement detail

variable {B : Type} [DecidableEq B] [JournalBindingLike B] (H : Hashes B)

def readOptional (missing : JournalFailureCode) (k : Artefact) : JournalM B (Option (CanonicalRead (Content B k))) := do
  let loaded ← FileProgram.load k
  ofExcept (optional missing (decode wording missing (H.content k) loaded))

def readRoot : JournalM B RootPublicationReceipt := do
  let read ← readCanonical wording .rootMissing Artefact.rootRecord (H.content .rootRecord)
  ofExcept read.value.validate
  pure read.value

def readJournal : JournalM B (CanonicalRead (DurableJournalRecord B)) :=
  readCanonical wording .journalMissing Artefact.journalRecord (H.content .journalRecord)

def readCartridge : JournalM B (ContinuationCartridgeRecord B) := do
  let read ← readCanonical wording .cartridgeMismatch Artefact.cartridge (H.content .cartridge)
  pure read.value

def preparedDigest (record : DurableJournalRecord B) (digest : Sha256Digest) : Except JournalError Sha256Digest :=
  match record.state, record.predecessorRecordDigest with
  | .prepared, _ => .ok digest
  | _, some predecessor => .ok predecessor
  | _, none => .error (.new .sequenceMismatch "terminal journal lacks prepared predecessor")

def verifyOld (root : RootPublicationReceipt) (binding : B) : Except JournalError Unit := do
  root.validate
  if root.rootDigest = oldRoot binding then .ok ()
  else .error (disagreement "aborted journal does not accompany old root")

def verifyNew (root : RootPublicationReceipt) (binding : B) (prepared : Sha256Digest) : Except JournalError Unit := do
  root.validate
  if root.rootDigest = newRoot binding ∧ root.transactionId = transactionId binding ∧
      root.preparedRecordDigest = prepared then .ok ()
  else .error (disagreement "committed journal does not accompany its bound new root")

variable (binding : B)

def ownerDeathDigest : JournalM B (Option Sha256Digest) := do
  match ← readOptional H .journalMissing .ownerDeathReceipt with
  | none => pure none
  | some read => do
    ofExcept read.value.validate
    let digest ← ofExcept (bindingDigest H binding)
    if read.value.bindingDigest ≠ digest ∨ read.value.ownerIdentityDigest ≠ ownerIdentityDigest binding then
      fail (.new .ownerIdentityMismatch "owner-death receipt differs from journal binding")
    else pure (some read.digest)

def makeRecovery (prepared : Sha256Digest) (terminal : Option Sha256Digest)
    (root : Sha256Digest) (outcome : RecoveryOutcome) (owner : Option Sha256Digest) :
    Except JournalError RecoveryReceipt := do
  let digest ← bindingDigest H binding
  pure {
    schemaVersion := durableReceiptSchemaVersion
    bindingDigest := digest
    preparedRecordDigest := prepared
    terminalRecordDigest := terminal
    ownerDeathReceiptDigest := owner
    observedRoot := root
    outcome := outcome
    journalRootCorrespondence := true
    promotable := true
    failureCode := none }

def existingRecovery (expected : Option B) : JournalM B (Option RecoveryReceipt) := do
  match ← readOptional H .journalMissing .recoveryReceipt with
  | none => pure none
  | some read => do
    ofExcept read.value.validate
    match expected with
    | none => pure (some read.value)
    | some binding => do
      let digest ← ofExcept (bindingDigest H binding)
      if read.value.bindingDigest ≠ digest then
        fail (.new .immutableReceiptConflict
          "existing recovery receipt belongs to another binding")
      else pure (some read.value)

def persistRecovery (receipt : RecoveryReceipt) : JournalM B RecoveryReceipt := do
  match ← readOptional H .journalMissing .recoveryReceipt with
  | some existing => do
    ofExcept existing.value.validate
    if existing.value.bindingDigest = receipt.bindingDigest then pure existing.value
    else fail (.new .immutableReceiptConflict "recovery receipt binding changed")
  | none => do
    ofExcept receipt.validate
    writeOnce wording Artefact.recoveryReceipt receipt (boundaries .recovery)
    pure receipt

def closeRecovery (prepared : Sha256Digest) (terminal : Option Sha256Digest)
    (root : Sha256Digest) (outcome : RecoveryOutcome) (owner : Option Sha256Digest) : JournalM B RecoveryReceipt := do
  let receipt ← ofExcept (makeRecovery H binding prepared terminal root outcome owner)
  persistRecovery H receipt

def publishTerminal (record : DurableJournalRecord B) (write : JournalWrite) : JournalM B Sha256Digest := do
  ofExcept (record.validate H)
  durableReplace wording Artefact.journalRecord record (boundaries write)
  ofExcept (record.digest H)

def initializePublishedRoot (root : Sha256Digest) : JournalM B RootPublicationReceipt := do
  let expected ← ofExcept (RootPublicationReceipt.initial root)
  match ← readOptional H .rootMissing .rootRecord with
  | some existing => do
    ofExcept existing.value.validate
    if existing.value = expected then pure existing.value
    else fail (.new .rootMismatch
      "initialization cannot replace an existing different root")
  | none => do
    ofExcept expected.validate
    durableReplace wording Artefact.rootRecord expected (boundaries .rootInitialize)
    pure expected

def checkLease : JournalM B Unit :=
  match leaseExpiresAtUnixNs binding with
  | none => pure ()
  | some expiresAt => do
    let now ← FileProgram.now
    if now ≥ expiresAt then
      fail (.new .leaseExpired "binding lease has expired before prepare")
    else pure ()

/-- `prepare` where a journal record is already stored. -/
def prepareAgain (existing : CanonicalRead (DurableJournalRecord B)) : JournalM B (ContinuationCartridgeRecord B) := do
  ofExcept (existing.value.validate H)
  if existing.value.state = .prepared ∧ existing.value.binding = binding then do
    let cartridge ← readCartridge H
    ofExcept (cartridge.validateAgainst H binding)
    if cartridge.preparedRecordDigest ≠ existing.digest then
      fail (.new .cartridgeMismatch
        "cartridge does not bind the persisted prepared record")
    else pure cartridge
  else fail (.new .alreadyTerminal
    "another or terminal transaction already occupies this journal")

/-- `prepare` where no journal record is stored. -/
def prepareFresh : JournalM B (ContinuationCartridgeRecord B) := do
  let prepared := DurableJournalRecord.prepared binding
  let digest ← ofExcept (prepared.digest H)
  let cartridge ← ofExcept (ContinuationCartridgeRecord.new H binding digest)
  writeOnce wording Artefact.cartridge cartridge (boundaries .cartridge)
  ofExcept (prepared.validate H)
  durableReplace wording Artefact.journalRecord prepared (boundaries .prepare)
  pure cartridge

/-- `prepare` once the binding and its lease are checked. -/
def prepareUnexpired : JournalM B (ContinuationCartridgeRecord B) := do
  let root ← readRoot H
  if root.rootDigest ≠ oldRoot binding then
    fail (.new .rootMismatch "prepare requires the preregistered old root")
  else do
    match ← readOptional H .journalMissing .recoveryReceipt with
    | some _ =>
      fail (.new .alreadyTerminal "recovered transaction cannot be prepared again")
    | none => do
      match ← readOptional H .journalMissing .journalRecord with
      | some existing => prepareAgain H binding existing
      | none => prepareFresh H binding

def prepareBoundJournal : JournalM B (ContinuationCartridgeRecord B) := do
  ofExcept (bindingValidate H.profile binding)
  checkLease binding
  prepareUnexpired H binding

variable (cartridge : ContinuationCartridgeRecord B)

def alreadyRecovered (existing : RecoveryReceipt) : Except JournalError RecoveryReceipt :=
  if existing.bindingDigest = cartridge.bindingDigest then .ok existing
  else .error (.new .immutableReceiptConflict
    "recovery receipt and continuation cartridge bindings differ")

variable (journal : CanonicalRead (DurableJournalRecord B))

def commitCommitted : JournalM B RecoveryReceipt := do
  let binding := journal.value.binding
  let root ← readRoot H
  let prepared ← ofExcept (preparedDigest journal.value journal.digest)
  ofExcept (verifyNew root binding prepared)
  let owner ← ownerDeathDigest H binding
  closeRecovery H binding prepared (some journal.digest) root.rootDigest .alreadyCommitted owner

def publishRoot (prepared : Sha256Digest) (root : RootPublicationReceipt) : JournalM B Unit :=
  if root.rootDigest = oldRoot binding then do
    let published := RootPublicationReceipt.published binding prepared
    ofExcept published.validate
    durableReplace wording Artefact.rootRecord published (boundaries .rootPublish)
  else ofExcept (verifyNew root binding prepared)

def digestMismatch : JournalError :=
  .new .cartridgeMismatch "prepared record digest differs from continuation cartridge"

def commitPrepared : JournalM B RecoveryReceipt := do
  if journal.digest ≠ cartridge.preparedRecordDigest then fail digestMismatch
  else do
    let binding := journal.value.binding
    let root ← readRoot H
    publishRoot binding journal.digest root
    let terminal ← publishTerminal H (.committed journal.value journal.digest) .commit
    let owner ← ownerDeathDigest H binding
    closeRecovery H binding journal.digest (some terminal) (newRoot binding) .newRootCommitted owner

def commitBoundJournal : JournalM B RecoveryReceipt := do
  match ← existingRecovery H none with
  | some existing => ofExcept (alreadyRecovered cartridge existing)
  | none => do
    let journal ← readJournal H
    ofExcept (journal.value.validate H)
    ofExcept (cartridge.validateAgainst H journal.value.binding)
    match journal.value.state with
    | .aborted => fail (.new .alreadyTerminal "aborted journal cannot commit")
    | .committed => commitCommitted H journal
    | .prepared => commitPrepared H cartridge journal

def abortAborted : JournalM B RecoveryReceipt := do
  let binding := journal.value.binding
  let root ← readRoot H
  ofExcept (verifyOld root binding)
  let prepared ← ofExcept (preparedDigest journal.value journal.digest)
  let owner ← ownerDeathDigest H binding
  closeRecovery H binding prepared (some journal.digest) root.rootDigest .alreadyAborted owner

def abortPrepared : JournalM B RecoveryReceipt := do
  if journal.digest ≠ cartridge.preparedRecordDigest then fail digestMismatch
  else do
    let binding := journal.value.binding
    let root ← readRoot H
    ofExcept (verifyOld root binding)
    let terminal ← publishTerminal H (.aborted journal.value journal.digest .explicitAbort) .abort
    let owner ← ownerDeathDigest H binding
    closeRecovery H binding journal.digest (some terminal) (oldRoot binding) .oldRootAborted owner

def abortBoundJournal : JournalM B RecoveryReceipt := do
  match ← existingRecovery H none with
  | some existing => ofExcept (alreadyRecovered cartridge existing)
  | none => do
    let journal ← readJournal H
    ofExcept (journal.value.validate H)
    ofExcept (cartridge.validateAgainst H journal.value.binding)
    match journal.value.state with
    | .committed => fail (.new .alreadyTerminal "committed journal cannot abort")
    | .aborted => abortAborted H journal
    | .prepared => abortPrepared H cartridge journal

def recordBoundOwnerDeath (owner : Sha256Digest) (observedAtUnixNs : ℕ) : JournalM B OwnerDeathReceipt := do
  let journal ← readJournal H
  ofExcept (journal.value.validate H)
  if ownerIdentityDigest journal.value.binding ≠ owner then
    fail (.new .ownerIdentityMismatch
      "owner-death identity differs from prepared binding")
  else if journal.value.state ≠ .prepared then
    fail (.new .alreadyTerminal "terminal journal does not require owner-death recovery")
  else do
    let root ← readRoot H
    let digest ← ofExcept (bindingDigest H journal.value.binding)
    let receipt : OwnerDeathReceipt := {
      schemaVersion := durableReceiptSchemaVersion
      bindingDigest := digest
      preparedRecordDigest := journal.digest
      ownerIdentityDigest := owner
      observedJournalState := journal.value.state
      observedRoot := root.rootDigest
      observedAtUnixNs := observedAtUnixNs
      failureCode := .ownerDeath
      recoveryRequired := true }
    ofExcept receipt.validate
    writeOnce wording Artefact.ownerDeathReceipt receipt (boundaries .ownerDeath)
    pure receipt

variable (expected : B)

def recoverCartridge (cartridge : ContinuationCartridgeRecord B) : JournalM B RecoveryReceipt := do
  ofExcept (cartridge.validateAgainst H expected)
  let prepared := DurableJournalRecord.prepared expected
  let digest ← ofExcept (prepared.digest H)
  if cartridge.preparedRecordDigest ≠ digest then
    fail (.new .cartridgeMismatch
      "continuation cartridge does not bind the reconstructable prepared record")
  else do
    let terminal ← publishTerminal H (.aborted prepared digest .recoveryObservedOldRoot) .abort
    closeRecovery H expected digest (some terminal) (oldRoot expected) .oldRootAborted none

variable (root : RootPublicationReceipt)

def recoverMissing : JournalM B RecoveryReceipt :=
  if root.rootDigest ≠ oldRoot expected then
    fail (disagreement "missing journal accompanies a non-old root")
  else do
    match ← readOptional H .cartridgeMismatch .cartridge with
    | none => closeRecovery H expected .zero none (oldRoot expected) .notStartedOldRoot none
    | some cartridge => recoverCartridge H expected cartridge.value

def recoverPrepared (journal : CanonicalRead (DurableJournalRecord B)) (prepared : Sha256Digest)
    (ownerDeath : Option Sha256Digest) : JournalM B RecoveryReceipt :=
  if root.rootDigest = oldRoot expected then do
    let reason : AbortReason :=
      if ownerDeath.isSome then .ownerDeathObservedOldRoot else .recoveryObservedOldRoot
    let terminal ← publishTerminal H (.aborted journal.value journal.digest reason) .abort
    closeRecovery H expected prepared (some terminal) (oldRoot expected) .oldRootAborted ownerDeath
  else if root.rootDigest = newRoot expected then do
    ofExcept (verifyNew root expected prepared)
    let terminal ← publishTerminal H (.committed journal.value journal.digest) .commit
    closeRecovery H expected prepared (some terminal) (newRoot expected) .newRootCommitted
      ownerDeath
  else fail (disagreement "prepared journal accompanies neither preregistered root")

def recoverStored (journal : CanonicalRead (DurableJournalRecord B)) : JournalM B RecoveryReceipt := do
  ofExcept (journal.value.validate H)
  let persisted ← ofExcept (bindingDigest H journal.value.binding)
  let digest ← ofExcept (bindingDigest H expected)
  if persisted ≠ digest then
    fail (.new .invalidBinding
      "persisted journal binding differs from recovery expectation")
  else do
    let prepared ← ofExcept (preparedDigest journal.value journal.digest)
    let ownerDeath ← ownerDeathDigest H expected
    match journal.value.state with
    | .prepared => recoverPrepared H expected root journal prepared ownerDeath
    | .committed => do
      ofExcept (verifyNew root expected prepared)
      closeRecovery H expected prepared (some journal.digest) (newRoot expected) .alreadyCommitted
        ownerDeath
    | .aborted => do
      ofExcept (verifyOld root expected)
      closeRecovery H expected prepared (some journal.digest) (oldRoot expected) .alreadyAborted
        ownerDeath

def recoverBoundJournal : JournalM B RecoveryReceipt := do
  ofExcept (bindingValidate H.profile expected)
  match ← existingRecovery H (some expected) with
  | some existing => pure existing
  | none => do
    let root ← readRoot H
    match ← readOptional H .journalMissing .journalRecord with
    | none => recoverMissing H expected root
    | some journal => recoverStored H expected root journal

end Zero.DurableJournal
