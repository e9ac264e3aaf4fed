import ZeroStack.Program.Basic
import ZeroStack.Program.Directory

/-! What a cell of the kernel works on: the workspace files, the transaction records, the session's state root and the
event log. Every call into one of them is a `KernelOp`; how it ends, where the code does not decide that, is a
`KernelChoice`. -/

open Durable

namespace Zero.Kernel

abbrev PathBuf := String
abbrev ZeroHandle := String

inductive EngineErrorKind where
  | invalidInput | outsideWorkspace | notFound | conflict | cancelled | deadline | budget
  | unsupported | corrupt | io | internal
  deriving DecidableEq

def EngineErrorKind.debug : EngineErrorKind → String
  | .invalidInput => "InvalidInput"
  | .outsideWorkspace => "OutsideWorkspace"
  | .notFound => "NotFound"
  | .conflict => "Conflict"
  | .cancelled => "Cancelled"
  | .deadline => "Deadline"
  | .budget => "Budget"
  | .unsupported => "Unsupported"
  | .corrupt => "Corrupt"
  | .io => "Io"
  | .internal => "Internal"

def EngineErrorKind.precondition : EngineErrorKind → Bool
  | .notFound | .conflict => true
  | _ => false

structure EngineError where
  kind : EngineErrorKind
  detail : String
  retryable : Bool
  deriving DecidableEq

def EngineError.display (e : EngineError) : String := s!"{e.kind.debug}: {e.detail}"

inductive FileEffectKind where
  | write | edit | remove | restore
  deriving DecidableEq

structure FileEffectRequest where
  kind : FileEffectKind
  path : PathBuf
  content : Option (List UInt8)
  patch : Option String
  expectedPreimage : Option ZeroHandle
  expectAbsent : Bool
  deriving DecidableEq

structure FileEffectReceipt where
  kind : FileEffectKind
  path : PathBuf
  before : Option ZeroHandle
  after : Option ZeroHandle
  journal : ZeroHandle
  deriving DecidableEq

inductive TransactionState where
  | prepared | applying | committed | compensating | rolledBack | recoveryRequired
  deriving DecidableEq

def TransactionState.debug : TransactionState → String
  | .prepared => "Prepared"
  | .applying => "Applying"
  | .committed => "Committed"
  | .compensating => "Compensating"
  | .rolledBack => "RolledBack"
  | .recoveryRequired => "RecoveryRequired"

structure PreparedEffect where
  request : FileEffectRequest
  before : Option ZeroHandle
  preparation : ZeroHandle
  receipt : Option FileEffectReceipt
  restored : Bool
  deriving DecidableEq

structure TransactionRecord where
  sessionId : String
  cellId : String
  traceId : String
  state : TransactionState
  effects : List PreparedEffect
  rollbackErrors : List String
  deriving DecidableEq

structure EngineCallContext where
  sessionId : String
  cellId : String
  traceId : String
  deriving DecidableEq

structure RecordKey where
  session : String
  cell : String
  deriving DecidableEq

def EngineCallContext.key (c : EngineCallContext) : RecordKey := ⟨c.sessionId, c.cellId⟩

inductive JournalEntry where
  | record (r : TransactionRecord)
  | torn (error : String)
  | notFile
  deriving DecidableEq

inductive StateError where
  | io (detail : String)
  | conflict (expected current : Option ZeroHandle)
  | invalid (detail : String)
  deriving DecidableEq

inductive ZeroKernelOutcome where
  | completed | cancelled | failed
  deriving DecidableEq

structure EffectFacts where
  state : String
  receipts : List FileEffectReceipt
  deriving DecidableEq

structure ZeroKernelEvent where
  sessionId : String
  cellId : String
  stateRootBefore : Option ZeroHandle
  stateRootAfter : Option ZeroHandle
  outputHandles : List ZeroHandle
  outcome : ZeroKernelOutcome
  visible : String
  effects : EffectFacts
  deriving DecidableEq

structure Projection where
  visible : String
  exact : Option ZeroHandle
  deriving DecidableEq

abbrev StateValues := List (String × String)

/-- The constants of one installation: the file name of a record without its suffix, the file a path denotes, the
content address of a state object, and two coordinates of the response. -/
structure Layout where
  stem : RecordKey → PathBuf
  resolve : PathBuf → PathBuf
  rootOf : StateValues → ZeroHandle
  effectiveStateRoot : Option ZeroHandle → String
  contractRoot : String → String

def Layout.recordPath (L : Layout) (k : RecordKey) : PathBuf := L.stem k ++ ".json"

def Layout.poisonedPath (L : Layout) (k : RecordKey) : PathBuf := L.stem k ++ ".poisoned.json"

inductive Probe where
  | beforeApply | beforeDispatch | afterApply | afterFailure | beforeCommit | beforeFinish
  deriving DecidableEq

inductive RootRollback where
  | commitFailed | publicationFailed
  deriving DecidableEq

inductive PersistFault where
  | encode (error : String)
  | createDir (error : String)
  | openTemp (error : String)
  | write (error : String)
  | sync (error : String)
  | publish (error : String)
  | directorySync (error : String)
  deriving DecidableEq

inductive RecordRead where
  | statFailed (error : String)
  | readFailed (error : String)
  | missing
  | entry (e : JournalEntry)
  deriving DecidableEq

inductive ReadFault where
  | stat (error : String)
  | read (error : String)
  deriving DecidableEq

inductive KernelOp where
  | lease (context : EngineCallContext)
  | release
  | readFile (path : PathBuf)
  | applyFile (request : FileEffectRequest)
  | restoreFile (receipt : FileEffectReceipt)
  | isCancelled (key : RecordKey) (probe : Probe)
  | putPreparation (request : FileEffectRequest) (before : Option ZeroHandle) (traceId : String)
  | recordExists (key : RecordKey)
  | loadRecord (key : RecordKey)
  | persistRecord (key : RecordKey) (record : TransactionRecord)
  | listRecords (session : String)
  | quarantine (key : RecordKey)
  | commitState (expected : Option ZeroHandle) (values : StateValues)
  | compareAndSetRoot (site : RootRollback) (current target : Option ZeroHandle)
  | serializeResult (value : String)
  | project (bytes : String)
  | publishEvent (event : ZeroKernelEvent)

def KernelOp.Res : KernelOp → Type
  | .lease _ => Except EngineError Unit
  | .release => Unit
  | .readFile _ => Except EngineError ZeroHandle
  | .applyFile _ => Except EngineError FileEffectReceipt
  | .restoreFile _ => Except EngineError Unit
  | .isCancelled _ _ => Bool
  | .putPreparation _ _ _ => Except String ZeroHandle
  | .recordExists _ => Bool
  | .loadRecord _ => RecordRead
  | .persistRecord _ _ => Option PersistFault
  | .listRecords _ => Except String (List RecordKey)
  | .quarantine _ => Option String
  | .commitState _ _ => Except StateError ZeroHandle
  | .compareAndSetRoot _ _ _ => Except StateError Unit
  | .serializeResult _ => Except String String
  | .project _ => Except EngineError Projection
  | .publishEvent _ => Except String ZeroHandle

inductive ApplyChoice where
  | succeed (after : Option ZeroHandle) (path : PathBuf) (journal : ZeroHandle)
  | fail (error : EngineError) (wrote : Option (Option ZeroHandle))
  deriving DecidableEq

structure RestoreFailure where
  error : EngineError
  wrote : Bool
  deriving DecidableEq

inductive PublishChoice where
  | done (event : ZeroHandle)
  | failed (error : String) (appended : Bool)
  deriving DecidableEq

structure KernelChoice where
  lease : Option EngineError
  read : Option EngineError
  apply : ApplyChoice
  restore : Option RestoreFailure
  cancelled : Bool
  put : Except String ZeroHandle
  load : Option ReadFault
  persist : Option PersistFault
  list : Except String (List RecordKey)
  rename : Option String
  state : Option StateError
  serialize : Option String
  project : Except EngineError Projection
  publish : PublishChoice

structure World where
  files : PathBuf → Option ZeroHandle
  journal : Directory RecordKey JournalEntry
  poisoned : RecordKey → Option JournalEntry
  leased : Bool
  stateRoot : Option ZeroHandle
  events : List ZeroKernelEvent

namespace World

variable (s : World)

def setFile (path : PathBuf) (content : Option ZeroHandle) : World :=
  { s with files := Function.update s.files path content }

def putRecord (k : RecordKey) (r : TransactionRecord) : World :=
  { s with journal := s.journal.put k (.record r) }

def quarantine (k : RecordKey) : World :=
  { s with journal := s.journal.remove k, poisoned := Function.update s.poisoned k (s.journal.slot k) }

def reboot : World := { s with leased := false }

end World

def PersistFault.published : PersistFault → Bool
  | .directorySync _ => true
  | _ => false

def leaseHeld : EngineError := ⟨.conflict, "acquire FSZero transaction lease: deadline elapsed", true⟩

section Exec
variable (L : Layout)

def receiptPath (request : FileEffectRequest) (path : PathBuf) : PathBuf :=
  if L.resolve path = L.resolve request.path then path else request.path

def execApply (request : FileEffectRequest) (s : World) : ApplyChoice → Except EngineError FileEffectReceipt × World
  | .succeed after path journal =>
    (.ok ⟨request.kind, receiptPath L request path, s.files (L.resolve request.path), after, journal⟩,
      s.setFile (L.resolve request.path) after)
  | .fail error wrote =>
    (.error error, if error.kind.precondition then s
      else wrote.elim s (s.setFile (L.resolve request.path)))

def execRestore (receipt : FileEffectReceipt) (s : World) : Option RestoreFailure → Except EngineError Unit × World
  | none => (.ok (), s.setFile (L.resolve receipt.path) receipt.before)
  | some failure => (.error failure.error,
      if failure.wrote then s.setFile (L.resolve receipt.path) receipt.before else s)

def execRead (path : PathBuf) (s : World) (fault : Option EngineError) : Except EngineError ZeroHandle :=
  match fault.filter (·.kind ≠ .notFound), s.files (L.resolve path) with
  | some e, _ => .error e
  | none, some content => .ok content
  | none, none => .error ⟨.notFound, path, false⟩

def execLoad (k : RecordKey) (s : World) : Option ReadFault → RecordRead
  | some (.stat e) => .statFailed e
  | some (.read e) => .readFailed e
  | none => match s.journal.slot k with
    | none => .missing
    | some e => .entry e

def execPersist (k : RecordKey) (r : TransactionRecord) (s : World) : Option PersistFault → Option PersistFault × World
  | none => (none, s.putRecord k r)
  | some fault => (some fault, if fault.published then s.putRecord k r else s)

/-- `StateStore::commit` under its lock: the pointer moves only where the whole call succeeds. -/
def execCommitState (expected : Option ZeroHandle) (values : StateValues) (s : World) :
    Option StateError → Except StateError ZeroHandle × World
  | some e => (.error e, s)
  | none =>
    if s.stateRoot ≠ expected then (.error (.conflict expected s.stateRoot), s)
    else (.ok (L.rootOf values), { s with stateRoot := some (L.rootOf values) })

def execCompareAndSetRoot (current target : Option ZeroHandle) (s : World) :
    Option StateError → Except StateError Unit × World
  | some e => (.error e, s)
  | none =>
    if s.stateRoot ≠ current then (.error (.conflict current s.stateRoot), s)
    else (.ok (), { s with stateRoot := target })

def execPublish (event : ZeroKernelEvent) (s : World) : PublishChoice → Except String ZeroHandle × World
  | .done handle => (.ok handle, { s with events := s.events ++ [event] })
  | .failed error appended =>
    (.error error, if appended then { s with events := s.events ++ [event] } else s)

def execList (session : String) (s : World) : Except String (List RecordKey) → Except String (List RecordKey)
  | .error e => .error e
  | .ok order => .ok ((s.journal.listing order).filter (·.session = session))

def kernel : Machine KernelOp KernelOp.Res World KernelChoice where
  exec c o s := match o with
    | .lease _ => match c.lease with
      | some e => (.error e, s)
      | none => if s.leased then (.error leaseHeld, s) else (.ok (), { s with leased := true })
    | .release => ((), { s with leased := false })
    | .readFile path => (execRead L path s c.read, s)
    | .applyFile request => execApply L request s c.apply
    | .restoreFile receipt => execRestore L receipt s c.restore
    | .isCancelled _ _ => (c.cancelled, s)
    | .putPreparation _ _ _ => (c.put, s)
    | .recordExists k => ((s.journal.slot k).isSome, s)
    | .loadRecord k => (execLoad k s c.load, s)
    | .persistRecord k r => execPersist k r s c.persist
    | .listRecords session => (execList session s c.list, s)
    | .quarantine k => match c.rename with
      | some e => (some e, s)
      | none => (none, s.quarantine k)
    | .commitState expected values => execCommitState L expected values s c.state
    | .compareAndSetRoot _ current target => execCompareAndSetRoot current target s c.state
    | .serializeResult value => (match c.serialize with
      | some e => .error e
      | none => .ok value, s)
    | .project _ => (c.project, s)
    | .publishEvent event => execPublish event s c.publish

end Exec

abbrev KernelProgram (α : Type) := Program KernelOp KernelOp.Res α

def lease (c : EngineCallContext) : KernelProgram (Except EngineError Unit) :=
  Program.perform (KernelOp.lease c)

def release : KernelProgram Unit := Program.perform KernelOp.release

def readFile (path : PathBuf) : KernelProgram (Except EngineError ZeroHandle) :=
  Program.perform (KernelOp.readFile path)

def applyFile (request : FileEffectRequest) : KernelProgram (Except EngineError FileEffectReceipt) :=
  Program.perform (KernelOp.applyFile request)

def restoreFile (receipt : FileEffectReceipt) : KernelProgram (Except EngineError Unit) :=
  Program.perform (KernelOp.restoreFile receipt)

variable (k : RecordKey)

def isCancelled (probe : Probe) : KernelProgram Bool :=
  Program.perform (KernelOp.isCancelled k probe)

def putPreparation (request : FileEffectRequest) (before : Option ZeroHandle) (traceId : String) :
    KernelProgram (Except String ZeroHandle) := Program.perform (KernelOp.putPreparation request before traceId)

def recordExists : KernelProgram Bool := Program.perform (KernelOp.recordExists k)

def loadRecord : KernelProgram RecordRead := Program.perform (KernelOp.loadRecord k)

def writeRecord (r : TransactionRecord) : KernelProgram (Option PersistFault) :=
  Program.perform (KernelOp.persistRecord k r)

def listRecords (session : String) : KernelProgram (Except String (List RecordKey)) :=
  Program.perform (KernelOp.listRecords session)

def quarantine : KernelProgram (Option String) := Program.perform (KernelOp.quarantine k)

def commitState (expected : Option ZeroHandle) (values : StateValues) :
    KernelProgram (Except StateError ZeroHandle) := Program.perform (KernelOp.commitState expected values)

def compareAndSetRoot (site : RootRollback) (current target : Option ZeroHandle) :
    KernelProgram (Except StateError Unit) := Program.perform (KernelOp.compareAndSetRoot site current target)

def serializeResult (value : String) : KernelProgram (Except String String) :=
  Program.perform (KernelOp.serializeResult value)

def project (bytes : String) : KernelProgram (Except EngineError Projection) :=
  Program.perform (KernelOp.project bytes)

def publishEvent (event : ZeroKernelEvent) : KernelProgram (Except String ZeroHandle) :=
  Program.perform (KernelOp.publishEvent event)

end Zero.Kernel
