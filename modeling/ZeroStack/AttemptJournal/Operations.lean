import ZeroStack.AttemptJournal.Entries

/-! The operations of the attempt journal. Every read of an entry file and every publication of one is a step; the
files are named by sequence number. -/

open Durable.Fallible (fail ofExcept)

namespace Zero.AttemptJournal
open Durable Zero.Store

abbrev AttemptFiles := Files ℕ fun _ => AttemptEntry

abbrev AttemptM := FileProgram ℕ (fun _ => AttemptEntry) AttemptJournalError

variable (H : Hashes)

def readCanonicalEntry (sequence : ℕ) : AttemptM (CanonicalRead AttemptEntry) := do
  let read ← readCanonical wording .entryMissing sequence H.entry
  ofExcept (read.value.validate H)
  let digest ← ofExcept (read.value.digest H)
  pure { read with digest := digest }

def isValidTransition : AttemptState → AttemptState → Bool
  | .prepared, .dispatchCrossed | .prepared, .aborted | .prepared, .safeToRetry
  | .dispatchCrossed, .succeeded | .dispatchCrossed, .failed
  | .dispatchCrossed, .indeterminate => true
  | _, _ => false

/-- The first loop of `read_chain`: entries up to the first missing one, and the
sequence number at which it stopped. -/
def readEntries : (remaining sequence : ℕ) → List (CanonicalRead AttemptEntry) →
    AttemptM (List (CanonicalRead AttemptEntry) × ℕ)
  | 0, sequence, entries => pure (entries, sequence)
  | remaining + 1, sequence, entries => do
    match ← (readCanonicalEntry H sequence).observe with
    | .ok entry => readEntries remaining (sequence + 1) (entries ++ [entry])
    | .error (.err error) =>
      if error.code = .entryMissing then pure (entries, sequence) else fail error
    | .error (.panic message) => Fallible.panic message

def probeEntries : (remaining probe : ℕ) → AttemptM Unit
  | 0, _ => pure ()
  | remaining + 1, probe => do
    match ← (readCanonicalEntry H probe).observe with
    | .ok _ => fail (.new .sequenceMismatch "attempt entry chain is not contiguous")
    | .error _ => probeEntries remaining (probe + 1)

def checkEntries : (index : ℕ) → Option (CanonicalRead AttemptEntry) →
    List (CanonicalRead AttemptEntry) → Except AttemptJournalError Unit
  | _, _, [] => .ok ()
  | index, previous, entry :: rest =>
    if entry.value.sequence ≠ index + 1 then
      .error (.new .sequenceMismatch "attempt entry sequence does not match its chain position")
    else
      match previous with
      | none => checkEntries (index + 1) (some entry) rest
      | some previous =>
        if entry.value.predecessorEntryDigest ≠ some previous.digest then
          .error (.new .sequenceMismatch "attempt entry predecessor digest does not chain")
        else if isValidTransition previous.value.state entry.value.state = false then
          .error (.new .invalidTransition
            ("attempt chain contains a forbidden transition from " ++
              previous.value.state.asStr ++ " to " ++ entry.value.state.asStr))
        else checkEntries (index + 1) (some entry) rest

def readChain : AttemptM (List (CanonicalRead AttemptEntry)) := do
  let (entries, sequence) ← readEntries H attemptJournalMaxEntries 1 []
  if entries.isEmpty then
    pure entries
  else do
    probeEntries H (attemptJournalMaxEntries + 1 - sequence) sequence
    ofExcept (checkEntries 0 none entries)
    pure entries

def writeOnceEntry (sequence : ℕ) (entry : AttemptEntry) (write : AttemptWrite) : AttemptM Unit := do
  if sequence > attemptJournalMaxEntries then
    fail (.new .tooManyEntries "attempt journal entry bound exceeded")
  else do
    ofExcept (entry.validate H)
    writeOnce wording sequence entry (boundaries write)

def prepareAttempt (binding : AttemptBinding) : AttemptM AttemptEntry := do
  ofExcept (binding.validate H)
  let chain ← readChain H
  match chain.getLast? with
  | some current =>
    if current.value.state = .prepared then
      if current.value.binding = binding then pure current.value
      else fail (.new .immutableEntryConflict
        "attempt journal is already prepared with a different binding")
    else fail (.new .alreadyTerminal
      "attempt journal already crossed dispatch or is terminal")
  | none => do
    let prepared := AttemptEntry.prepared binding 1
    writeOnceEntry H 1 prepared .prepare
    pure prepared

def markDispatchCrossed (preparedEntryDigest : Sha256Digest) (crossedAtUnixNs : ℕ) : AttemptM AttemptEntry := do
  let chain ← readChain H
  match chain.getLast? with
  | none => fail (.new .journalMissing "no prepared attempt exists to dispatch")
  | some current =>
    match current.value.state with
    | .prepared =>
      if current.digest ≠ preparedEntryDigest then
        fail (.new .receiptMismatch
          "prepared entry digest does not match the persisted journal")
      else do
        let sequence := chain.length + 1
        let crossed :=
          AttemptEntry.dispatchCrossed current.value current.digest sequence crossedAtUnixNs
        writeOnceEntry H sequence crossed .dispatchCross
        pure crossed
    | .dispatchCrossed =>
      if current.value.predecessorEntryDigest = some preparedEntryDigest then pure current.value
      else fail (.new .receiptMismatch
        "dispatch already crossed for a different prepared entry")
    | state => fail (.new .alreadyTerminal
        ("terminal attempt cannot be redispatched (current state " ++ state.asStr ++ ")"))

/-- The calls of `expect` and `unreachable!` panic where the state and the evidence
do not fit. -/
def terminalEntry (dispatch : AttemptEntry) (dispatchDigest : Sha256Digest) (sequence : ℕ)
    (state : AttemptState) (evidence : Option AttemptEvidence) : AttemptM AttemptEntry :=
  match state, evidence with
  | .succeeded, some evidence => pure (.succeeded dispatch dispatchDigest sequence evidence)
  | .succeeded, none => Fallible.panic "succeeded requires completion evidence"
  | .failed, some evidence => pure (.failed dispatch dispatchDigest sequence evidence)
  | .failed, none => Fallible.panic "failed requires failure evidence"
  | .indeterminate, _ => pure (.indeterminate dispatch dispatchDigest sequence)
  | _, _ => Fallible.panic "terminal_entry only builds succeeded, failed, indeterminate"

def beforeLast (chain : List (CanonicalRead AttemptEntry)) : AttemptM (CanonicalRead AttemptEntry) :=
  match chain.dropLast.getLast? with
  | some entry => pure entry
  | none => Fallible.panic "index out of bounds"

def markTerminal (dispatchEntryDigest : Sha256Digest) (terminalState : AttemptState)
    (evidence : Option AttemptEvidence) (write : AttemptWrite) : AttemptM AttemptEntry := do
  let chain ← readChain H
  match chain.getLast? with
  | none => fail (.new .journalMissing "no dispatched attempt exists to resolve")
  | some current =>
    if current.value.state = terminalState then do
      let dispatch ← beforeLast chain
      if dispatch.digest ≠ dispatchEntryDigest then
        fail (.new .receiptMismatch
          "dispatch entry digest does not match the persisted journal")
      else do
        let candidate ←
          terminalEntry dispatch.value dispatch.digest chain.length terminalState evidence
        if candidate = current.value then pure current.value
        else fail (.new .immutableEntryConflict
          "terminal entry already exists with different evidence")
    else if current.value.state ≠ .dispatchCrossed then
      fail (.new .invalidTransition
        ("cannot transition from " ++ current.value.state.asStr ++ " to " ++ terminalState.asStr))
    else if current.digest ≠ dispatchEntryDigest then
      fail (.new .receiptMismatch
        "dispatch entry digest does not match the persisted journal")
    else do
      let sequence := chain.length + 1
      let terminal ← terminalEntry current.value current.digest sequence terminalState evidence
      writeOnceEntry H sequence terminal write
      pure terminal

def markSucceeded (dispatchEntryDigest receiptDigest : Sha256Digest) (observedAtUnixNs : ℕ) : AttemptM AttemptEntry :=
  if receiptDigest = .zero then
    fail (.new .invalidEvidence "completion receipt digest must be nonzero")
  else markTerminal H dispatchEntryDigest .succeeded
    (some (.completion receiptDigest observedAtUnixNs)) .succeed

def markFailed (dispatchEntryDigest failureReceiptDigest : Sha256Digest)
    (observedAtUnixNs : ℕ) : AttemptM AttemptEntry :=
  if failureReceiptDigest = .zero then
    fail (.new .invalidEvidence "failure receipt digest must be nonzero")
  else markTerminal H dispatchEntryDigest .failed
    (some (.failure failureReceiptDigest observedAtUnixNs)) .fail

def markIndeterminate (dispatchEntryDigest : Sha256Digest) : AttemptM AttemptEntry :=
  markTerminal H dispatchEntryDigest .indeterminate none .indeterminate

def abortAttempt (preparedEntryDigest : Sha256Digest) : AttemptM AttemptEntry := do
  let chain ← readChain H
  match chain.getLast? with
  | none => fail (.new .journalMissing "no prepared attempt exists to abort")
  | some current =>
    match current.value.state with
    | .prepared =>
      if current.digest ≠ preparedEntryDigest then
        fail (.new .receiptMismatch
          "prepared entry digest does not match the persisted journal")
      else do
        let sequence := chain.length + 1
        let aborted :=
          AttemptEntry.aborted current.value current.digest sequence .explicitAbort
        writeOnceEntry H sequence aborted .abort
        pure aborted
    | .aborted => do
      let prepared ← beforeLast chain
      if prepared.digest ≠ preparedEntryDigest then
        fail (.new .receiptMismatch
          "prepared entry digest does not match the persisted journal")
      else pure current.value
    | state => fail (.new .invalidTransition
        ("cannot transition from " ++ state.asStr ++ " to aborted"))

def makeRecoveryReceipt (bindingDigest : Sha256Digest) (outcome : AttemptRecoveryOutcome)
    (terminal : AttemptEntry) : Except AttemptJournalError AttemptRecoveryReceipt := do
  let terminalEntryDigest ← terminal.digest H
  let receipt : AttemptRecoveryReceipt :=
    ⟨attemptReceiptSchemaVersion, bindingDigest, outcome, terminalEntryDigest, terminal.state⟩
  receipt.validate
  pure receipt

def classifyDispatched (dispatch : AttemptEntry) (dispatchDigest : Sha256Digest)
    (sequence : ℕ) : Option AttemptEvidence → AttemptRecoveryOutcome × AttemptEntry
  | some (.completion receiptDigest observedAtUnixNs) => (.classifiedSucceeded,
      .succeeded dispatch dispatchDigest sequence (.completion receiptDigest observedAtUnixNs))
  | some (.failure failureReceiptDigest observedAtUnixNs) => (.classifiedFailed,
      .failed dispatch dispatchDigest sequence (.failure failureReceiptDigest observedAtUnixNs))
  | none => (.classifiedIndeterminate, .indeterminate dispatch dispatchDigest sequence)

def recoverAttempt (expected : AttemptBinding) (evidence : Option AttemptEvidence) :
    AttemptM AttemptRecoveryReceipt := do
  ofExcept (expected.validate H)
  let chain ← readChain H
  match chain.head?, chain.getLast? with
  | some first, some current =>
    if first.value.binding ≠ expected then
      fail (.new .invalidBinding
        "persisted attempt binding differs from recovery expectation")
    else do
      let bindingDigest ← ofExcept (expected.digest H)
      let already (outcome : AttemptRecoveryOutcome) :=
        ofExcept (makeRecoveryReceipt H bindingDigest outcome current.value)
      match current.value.state with
      | .succeeded => already .alreadySucceeded
      | .failed => already .alreadyFailed
      | .indeterminate => already .alreadyIndeterminate
      | .safeToRetry => already .alreadySafeToRetry
      | .aborted => already .alreadyAborted
      | .prepared => do
        let sequence := chain.length + 1
        let safeToRetry := AttemptEntry.safeToRetry current.value current.digest sequence
        writeOnceEntry H sequence safeToRetry .recover
        ofExcept
          (makeRecoveryReceipt H bindingDigest .classifiedSafeToRetry safeToRetry)
      | .dispatchCrossed => do
        let sequence := chain.length + 1
        let (outcome, terminal) :=
          classifyDispatched current.value current.digest sequence evidence
        writeOnceEntry H sequence terminal .recover
        ofExcept (makeRecoveryReceipt H bindingDigest outcome terminal)
  | _, _ => fail (.new .journalMissing "no attempt journal exists to recover")

end Zero.AttemptJournal
