import ZeroStack.Abi
import ZeroStack.Program.FileStore

/-! Reading and writing of canonical records, which the attempt journal and the
durable journal each define with their own codes and their own word for a record. -/

namespace Zero.Store
open Durable

/-- `AttemptJournalError` and `JournalError`; `published` is the field `entry_published`
of the one and `publication_may_have_changed` of the other. -/
structure StoreError (Code Boundary : Type) where
  code : Code
  boundary : Option Boundary
  published : Bool
  detail : String
  deriving DecidableEq

def StoreError.new {Code Boundary : Type} (code : Code) (detail : String) :
    StoreError Code Boundary := ⟨code, none, false, detail⟩

def StoreError.at {Code Boundary : Type} (code : Code) (boundary : Boundary) (published : Bool)
    (detail : String) : StoreError Code Boundary := ⟨code, some boundary, published, detail⟩

structure WriteBoundaries (Boundary : Type) where
  before : Boundary
  fileSync : Boundary
  rename : Boundary
  dirSync : Boundary

structure Wording (Code : Type) where
  noun : String
  tornOrNoncanonical : Code
  recordTooLarge : Code
  immutableConflict : Code
  ioBeforePublish : Code
  directorySyncFailedAfterPublish : Code
  injectedCrash : Code

structure CanonicalRead (α : Type) where
  value : α
  digest : Sha256Digest
  deriving DecidableEq

variable {K : Type} {V : K → Type} {Code Boundary : Type}

def decode {α : Type} (w : Wording Code) (missing : Code) (digest : α → Sha256Digest) :
    Loaded α → Except (StoreError Code Boundary) (CanonicalRead α)
  | .found .absent => .error (.new missing s!"required {w.noun} is absent")
  | .statFailed error => .error (.new w.ioBeforePublish s!"{w.noun} stat failed: {error}")
  | .found (.foreign (.notRegular _)) =>
    .error (.new w.tornOrNoncanonical s!"{w.noun} is not a regular file")
  | .found (.foreign .tooLarge) =>
    .error (.new w.recordTooLarge s!"{w.noun} exceeds the frozen byte bound")
  | .readFailed error => .error (.new w.ioBeforePublish s!"{w.noun} read failed: {error}")
  | .found (.foreign (.undecodable error)) =>
    .error (.new w.tornOrNoncanonical s!"{w.noun} decode failed: {error}")
  | .found (.foreign .noncanonical) =>
    .error (.new w.tornOrNoncanonical s!"{w.noun} bytes are not canonical JSON")
  | .found (.record value) => .ok ⟨value, digest value⟩

variable (w : Wording Code)

def readCanonical (missing : Code) (k : K) (digest : V k → Sha256Digest) :
    FileProgram K V (StoreError Code Boundary) (CanonicalRead (V k)) := do
  let loaded ← FileProgram.load k
  Fallible.ofExcept (decode w missing digest loaded)

def ioBefore (boundary : Boundary) (error : String) : Except (StoreError Code Boundary) Unit :=
  .error (.at w.ioBeforePublish boundary false s!"durable write failed before publication: {error}")

def hit (boundary : Boundary) (published : Bool) : Except (StoreError Code Boundary) Unit :=
  .error (.at w.injectedCrash boundary published "preregistered crash boundary reached")

def settle (b : WriteBoundaries Boundary) : Replaced → Except (StoreError Code Boundary) Unit
  | .done => .ok ()
  | .createFailed error => ioBefore w b.before error
  | .crashBeforeWrite => hit w b.before false
  | .writeFailed error => ioBefore w b.before error
  | .syncFailed error => ioBefore w b.fileSync error
  | .crashAfterFileSync => hit w b.fileSync false
  | .renameFailed error => ioBefore w b.rename error
  | .crashAfterRename => hit w b.rename true
  | .directorySyncFailed error =>
    .error (.at w.directorySyncFailedAfterPublish b.dirSync true
      s!"parent directory sync failed: {error}")
  | .crashAfterDirectorySync => hit w b.dirSync true

def durableReplace (k : K) (v : V k) (b : WriteBoundaries Boundary) :
    FileProgram K V (StoreError Code Boundary) Unit := do
  let replaced ← FileProgram.replace k v
  Fallible.ofExcept (settle w b replaced)

def immutable {α : Type} [DecidableEq α] (w : Wording Code) (v : α) : Loaded α → Except (StoreError Code Boundary) Bool
  | .found .absent => .ok false
  | .found (.record existing) =>
    if existing = v then .ok true
    else .error (.new w.immutableConflict
      s!"immutable {w.noun} already exists with different bytes")
  | .found (.foreign (.notRegular error)) | .statFailed error | .readFailed error =>
    .error (.new w.ioBeforePublish s!"immutable {w.noun} read failed: {error}")
  | .found (.foreign _) =>
    .error (.new w.immutableConflict s!"immutable {w.noun} already exists with different bytes")

def writeOnce (k : K) [DecidableEq (V k)] (v : V k)
    (b : WriteBoundaries Boundary) : FileProgram K V (StoreError Code Boundary) Unit := do
  let loaded ← FileProgram.load k
  let present ← Fallible.ofExcept (immutable w v loaded)
  if present then pure () else durableReplace w k v b

section Rules
variable [DecidableEq K] {C : FileChoice → FileOp K V → Files K V → Prop}
variable {G : Files K V → Files K V → Prop} {w : Wording Code} {missing : Code} {k : K}
variable {digest : V k → Sha256Digest} {v : V k} {b : WriteBoundaries Boundary} {s : Files K V}

theorem settle_error {r : Replaced} (hr : r ≠ .done) : ∃ e, settle w b r = .error e := by
  cases r with
  | done => exact absurd rfl hr
  | _ => exact ⟨_, rfl⟩

theorem reads_readCanonical {slot : Slot (V k)} (hs : s k = slot) : Reads (readCanonical w missing k digest) s
    (Fallible.outcome (decode w missing digest (.found slot)))
    (fun e : StoreError Code Boundary => e.code = w.ioBeforePublish) := by
  subst hs
  intro C G Q hG hQ hio
  refine safe_load_bind hG fun c hc => ?_
  have hF : c.load ≠ .none → Faulty C s := fun hne => ⟨k, c, hc, hne⟩
  cases hf : c.load with
  | none => exact Reads.ofExcept _ C G Q hG hQ hio
  | stat error | read error => exact hio (hF (by simp [hf])) _ rfl

section Writes
variable {Q : Except (Failure (StoreError Code Boundary)) Unit → Files K V → Prop}
variable (hG : G s s) (herr : ∀ e, Q (.error (.err e)) s)
include hG herr

theorem safe_durableReplace {t : Files K V} (ht : s.publish k v = t) (hstep : G s t) (hok : Q (.ok ()) t)
    (hnew : ∀ e, Q (.error (.err e)) t) : disk.Safe C G Q (durableReplace w k v b).run s := by
  subst ht
  refine safe_replace_bind (fun c hc hp => ⟨hG, ?_⟩) fun c hc hp => ⟨hstep, ?_⟩
  · cases hr : c.replace with
    | done =>
      rw [hr] at hp
      cases hp
    | _ => exact herr _
  · cases c.replace with
    | done => exact hok
    | _ => exact hnew _

theorem safe_writeOnce [DecidableEq (V k)] (hsame : s k = .record v → Q (.ok ()) s)
    (hreplace : s k = .absent → disk.Safe C G Q (durableReplace w k v b).run s) :
    disk.Safe C G Q (writeOnce w k v b).run s := by
  refine safe_load_bind hG fun c hc => ?_
  cases c.load with
  | stat error | read error => exact herr _
  | none =>
    cases hs : s k with
    | absent => exact hreplace hs
    | foreign why => cases why <;> exact herr _
    | record v' =>
      rw [LoadFault.apply, immutable]
      split_ifs with hv
      · exact hsame (hv ▸ hs)
      · exact herr _

end Writes
end Rules

end Zero.Store
