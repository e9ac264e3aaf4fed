import ZeroStack.DurableJournal.Operations

/-! What the five files of one binding stand for: how far its transaction has come, whether its owner was reported
dead, and which receipt was given. Every state that the operations leave, crashes included, is one of these. -/

namespace Zero.DurableJournal
open Durable Zero.Store JournalBindingLike

/-- `elsewhere` is a root initialised to the binding's new root; `bound` has its cartridge but no journal record yet,
and in `published` the root has moved while the journal still says prepared. -/
inductive Phase where
  | blank
  | elsewhere
  | idle
  | bound
  | prepared
  | published
  | committed
  | aborted (reason : AbortReason)
  deriving DecidableEq

namespace Phase

inductive Next : Phase → Phase → Prop where
  | initializeOld : Next .blank .idle
  | initializeNew : Next .blank .elsewhere
  | bind : Next .idle .bound
  | prepare : Next .bound .prepared
  | publish : Next .prepared .published
  | commit : Next .published .committed
  | abortBound (reason : AbortReason) : Next .bound (.aborted reason)
  | abort (reason : AbortReason) : Next .prepared (.aborted reason)

abbrev Leads : Phase → Phase → Prop := Relation.ReflTransGen Next

variable {p q : Phase}

theorem Leads.keeps {P : Phase → Prop} (h : Leads p q) (hp : P p) (hstep : ∀ p q, P p → Next p q → P q) : P q := by
  induction h with
  | refl => exact hp
  | tail _ hn ih => exact hstep _ _ ih hn

def isTerminal : Phase → Bool
  | .committed | .aborted _ => true
  | _ => false

def started : Phase → Bool
  | .blank | .elsewhere | .idle => false
  | _ => true

def journaled : Phase → Bool
  | .prepared | .published | .committed | .aborted _ => true
  | _ => false

def moved : Phase → Bool
  | .published | .committed => true
  | _ => false

theorem Leads.of_terminal (h : Leads p q) (hp : p.isTerminal = true) : q = p := by
  refine h.keeps (P := (· = p)) rfl ?_
  rintro _ _ rfl hn
  cases hn <;> cases hp

theorem Leads.started (h : Leads p q) (hp : p.started = true) : q.started = true := by
  refine h.keeps (P := (Phase.started · = true)) hp fun p q hp hn => ?_
  cases hn <;> first | rfl | cases hp

theorem Leads.journaled (h : Leads p q) (hp : p.journaled = true) : q.journaled = true := by
  refine h.keeps (P := (Phase.journaled · = true)) hp fun p q hp hn => ?_
  cases hn <;> first | rfl | cases hp

theorem Leads.moved (h : Leads p q) (hp : p.moved = true) : q.moved = true := by
  refine h.keeps (P := (Phase.moved · = true)) hp fun p q hp hn => ?_
  cases hn <;> first | rfl | cases hp

theorem started_of_journaled {p : Phase} (h : p.journaled = true) : p.started = true := by
  cases p <;> first | rfl | cases h

theorem journaled_of_moved {p : Phase} (h : p.moved = true) : p.journaled = true := by
  cases p <;> first | rfl | cases h

end Phase

def RecoveryOutcome.fits : RecoveryOutcome → Phase → Bool
  | .notStartedOldRoot, .idle => true
  | .newRootCommitted, .committed | .alreadyCommitted, .committed => true
  | .oldRootAborted, .aborted _ | .alreadyAborted, .aborted _ => true
  | _, _ => false

variable {B : Type} [JournalBindingLike B] (H : Hashes B) (b : B)

def initialRoot (root : Sha256Digest) : RootPublicationReceipt :=
  ⟨durableReceiptSchemaVersion, .zero, root, 0, .zero⟩

def preparedHash : Sha256Digest := H.content .journalRecord (.prepared b)

def publishedRoot : RootPublicationReceipt := .published b (preparedHash H b)

def committedRecord : DurableJournalRecord B := .committed (.prepared b) (preparedHash H b)

def abortedRecord (reason : AbortReason) : DurableJournalRecord B :=
  .aborted (.prepared b) (preparedHash H b) reason

def cartridgeFor : ContinuationCartridgeRecord B where
  schemaVersion := durableReceiptSchemaVersion
  bindingDigest := H.binding b
  preparedRecordDigest := preparedHash H b
  transactionId := transactionId b
  oldRoot := oldRoot b
  newRoot := newRoot b
  durableProfileDigest := durableProfileDigest b
  ownerIdentityDigest := ownerIdentityDigest b

namespace Phase

def root : Phase → Option RootPublicationReceipt
  | .blank => none
  | .elsewhere => some (initialRoot (newRoot b))
  | .idle | .bound | .prepared | .aborted _ => some (initialRoot (oldRoot b))
  | .published | .committed => some (publishedRoot H b)

def journal : Phase → Option (DurableJournalRecord B)
  | .prepared | .published => some (.prepared b)
  | .committed => some (committedRecord H b)
  | .aborted reason => some (abortedRecord H b reason)
  | _ => none

def cartridge (p : Phase) : Option (ContinuationCartridgeRecord B) :=
  if p.started then some (cartridgeFor H b) else none

end Phase

structure Transaction where
  phase : Phase
  ownerDeath : Option OwnerDeathReceipt
  receipt : Option RecoveryReceipt
  valid : phase.started = true → bindingValidate H.profile b = .ok ()
  root_valid : ∀ r, phase.root H b = some r → r.validate = .ok ()
  ownerDeath_fits : ∀ d, ownerDeath = some d → d.validate = .ok () ∧
    d.bindingDigest = H.binding b ∧ d.ownerIdentityDigest = ownerIdentityDigest b
  receipt_fits : ∀ r, receipt = some r → r.validate = .ok () ∧ r.bindingDigest = H.binding b ∧
    r.outcome.fits phase = true

def slot {α : Type} : Option α → Slot α
  | none => .absent
  | some v => .record v

namespace Transaction
variable {H b} (x y z : Transaction H b)

def stored : (k : Artefact) → Option (Content B k)
  | .rootRecord => x.phase.root H b
  | .journalRecord => x.phase.journal H b
  | .cartridge => x.phase.cartridge H b
  | .ownerDeathReceipt => x.ownerDeath
  | .recoveryReceipt => x.receipt

def files : JournalFiles B := fun k => slot (x.stored k)

structure Grows : Prop where
  phase : x.phase.Leads y.phase
  ownerDeath : ∀ d, x.ownerDeath = some d → y.ownerDeath = some d
  receipt : ∀ r, x.receipt = some r → y.receipt = some r

variable {x y z}

theorem Grows.refl (x : Transaction H b) : x.Grows x := ⟨.refl, fun _ h => h, fun _ h => h⟩

theorem Grows.trans (h : x.Grows y) (h' : y.Grows z) : x.Grows z :=
  ⟨h.phase.trans h'.phase, fun d hd => h'.ownerDeath d (h.ownerDeath d hd), fun r hr => h'.receipt r (h.receipt r hr)⟩

theorem receipt_eq_none (h : ∀ o : RecoveryOutcome, o.fits x.phase = false) : x.receipt = none := by
  cases hr : x.receipt with
  | none => rfl
  | some r =>
    have hfits := (x.receipt_fits r hr).2.2
    rw [h] at hfits
    cases hfits

def start : Transaction H b where
  phase := .blank
  ownerDeath := none
  receipt := none
  valid := nofun
  root_valid := nofun
  ownerDeath_fits := nofun
  receipt_fits := nofun

theorem files_start : (start : Transaction H b).files = Files.empty := by
  funext k
  cases k <;> rfl

def moveTo (x : Transaction H b) (p : Phase) (hvalid : p.started = true → bindingValidate H.profile b = .ok ())
    (hroot : ∀ r, p.root H b = some r → r.validate = .ok ()) : Transaction H b where
  phase := p
  ownerDeath := x.ownerDeath
  receipt := none
  valid := hvalid
  root_valid := hroot
  ownerDeath_fits := x.ownerDeath_fits
  receipt_fits := nofun

def reportDeath (x : Transaction H b) (d : OwnerDeathReceipt) (hd : d.validate = .ok () ∧
    d.bindingDigest = H.binding b ∧ d.ownerIdentityDigest = ownerIdentityDigest b) : Transaction H b where
  phase := x.phase
  ownerDeath := some d
  receipt := x.receipt
  valid := x.valid
  root_valid := x.root_valid
  ownerDeath_fits := by
    rintro _ ⟨⟩
    exact hd
  receipt_fits := x.receipt_fits

def giveReceipt (x : Transaction H b) (r : RecoveryReceipt) (hr : r.validate = .ok () ∧
    r.bindingDigest = H.binding b ∧ r.outcome.fits x.phase = true) : Transaction H b where
  phase := x.phase
  ownerDeath := x.ownerDeath
  receipt := some r
  valid := x.valid
  root_valid := x.root_valid
  ownerDeath_fits := x.ownerDeath_fits
  receipt_fits := by
    rintro _ ⟨⟩
    exact hr

theorem publish_eq_files {k : Artefact} {v : Content B k} (hk : z.stored k = some v)
    (hne : ∀ j, j ≠ k → z.stored j = y.stored j) : y.files.publish k v = z.files := by
  funext j
  by_cases hj : j = k
  · subst hj
    rw [Files.publish_self, files, hk, slot]
  · rw [Files.publish_of_ne _ _ hj, files, files, hne j hj]

theorem grows_moveTo {p : Phase} {hvalid hroot} (hn : x.phase.Next p) (hnone : x.receipt = none) :
    x.Grows (x.moveTo p hvalid hroot) where
  phase := .single hn
  ownerDeath := fun _ h => h
  receipt := fun r hr => by
    rw [hnone] at hr
    cases hr

theorem grows_reportDeath {d : OwnerDeathReceipt} {hd} (hnone : x.ownerDeath = none) :
    x.Grows (x.reportDeath d hd) where
  phase := .refl
  ownerDeath := fun d' hd' => by
    rw [hnone] at hd'
    cases hd'
  receipt := fun _ h => h

theorem grows_giveReceipt {r : RecoveryReceipt} {hr} (hnone : x.receipt = none) : x.Grows (x.giveReceipt r hr) where
  phase := .refl
  ownerDeath := fun _ h => h
  receipt := fun r' hr' => by
    rw [hnone] at hr'
    cases hr'

theorem receipt_eq_none_of_started (hs : x.phase.started = true)
    (ht : x.phase.isTerminal = false) : x.receipt = none := by
  refine receipt_eq_none fun o => ?_
  generalize x.phase = p at hs ht
  cases p <;> cases o <;> first | rfl | (cases hs; done) | cases ht

theorem publish_moveTo {p q : Phase} {k : Artefact} {v : Content B k} (hp : x.phase = p) (hn : p.Next q)
    (hnone : x.receipt = none) (hvalid : q.started = true → bindingValidate H.profile b = .ok ())
    (hroot : ∀ r, q.root H b = some r → r.validate = .ok ()) (hk : (x.moveTo q hvalid hroot).stored k = some v)
    (hroots : k ≠ .rootRecord → q.root H b = p.root H b)
    (hjournals : k ≠ .journalRecord → q.journal H b = p.journal H b)
    (hcartridges : k ≠ .cartridge → q.cartridge H b = p.cartridge H b) :
    ∃ z, x.files.publish k v = z.files ∧ x.Grows z ∧ z.phase = q := by
  subst hp
  refine ⟨x.moveTo q hvalid hroot, publish_eq_files hk fun j hj => ?_, grows_moveTo hn hnone, rfl⟩
  cases j with
  | rootRecord => exact hroots hj.symm
  | journalRecord => exact hjournals hj.symm
  | cartridge => exact hcartridges hj.symm
  | ownerDeathReceipt => rfl
  | recoveryReceipt => exact hnone.symm

section Publications
variable (hvalid : bindingValidate H.profile b = .ok ())
include hvalid

theorem publish_root (hp : x.phase = .prepared) (hroot : (publishedRoot H b).validate = .ok ()) :
    ∃ z, x.files.publish .rootRecord (publishedRoot H b) = z.files ∧ x.Grows z ∧ z.phase = .published := by
  have hnone := receipt_eq_none_of_started (by rw [hp]; rfl) (by rw [hp]; rfl)
  exact publish_moveTo hp .publish hnone (fun _ => hvalid) (fun r hr => Option.some.inj hr ▸ hroot) rfl
    (absurd rfl) (fun _ => rfl) fun _ => rfl

theorem publish_committed (hp : x.phase.moved = true) :
    ∃ z, x.files.publish .journalRecord (committedRecord H b) = z.files ∧ x.Grows z ∧ z.phase = .committed := by
  cases hphase : x.phase with
  | committed =>
    have hstored : x.stored .journalRecord = some (committedRecord H b) := by
      simp only [stored, hphase]
      rfl
    exact ⟨x, publish_eq_files hstored fun _ _ => rfl, .refl x, hphase⟩
  | published =>
    have hnone := receipt_eq_none_of_started (by rw [hphase]; rfl) (by rw [hphase]; rfl)
    exact publish_moveTo hphase .commit hnone (fun _ => hvalid) (fun r hr => x.root_valid r (hphase ▸ hr)) rfl
      (fun _ => rfl) (absurd rfl) fun _ => rfl
  | _ => rw [hphase] at hp; cases hp

theorem publish_aborted (hp : x.phase = .bound ∨ x.phase = .prepared) (reason : AbortReason) :
    ∃ z, x.files.publish .journalRecord (abortedRecord H b reason) = z.files ∧
      x.Grows z ∧ z.phase = .aborted reason := by
  have hnone : x.receipt = none := by
    apply receipt_eq_none_of_started <;> rcases hp with hp | hp <;> rw [hp] <;> rfl
  rcases hp with hp | hp
  · exact publish_moveTo hp (.abortBound reason) hnone (fun _ => hvalid) (fun r hr => x.root_valid r (hp ▸ hr)) rfl
      (fun _ => rfl) (absurd rfl) fun _ => rfl
  · exact publish_moveTo hp (.abort reason) hnone (fun _ => hvalid) (fun r hr => x.root_valid r (hp ▸ hr)) rfl
      (fun _ => rfl) (absurd rfl) fun _ => rfl

theorem publish_cartridge (hp : x.phase = .idle) (hnone : x.receipt = none) :
    ∃ z, x.files.publish .cartridge (cartridgeFor H b) = z.files ∧ x.Grows z ∧ z.phase = .bound :=
  publish_moveTo hp .bind hnone (fun _ => hvalid) (fun r hr => x.root_valid r (hp ▸ hr)) rfl (fun _ => rfl)
    (fun _ => rfl) (absurd rfl)

theorem publish_prepared (hp : x.phase = .bound) :
    ∃ z, x.files.publish .journalRecord (.prepared b) = z.files ∧ x.Grows z ∧ z.phase = .prepared := by
  have hnone := receipt_eq_none_of_started (by rw [hp]; rfl) (by rw [hp]; rfl)
  exact publish_moveTo hp .prepare hnone (fun _ => hvalid) (fun r hr => x.root_valid r (hp ▸ hr)) rfl
    (fun _ => rfl) (absurd rfl) fun _ => rfl

end Publications

theorem publish_initial (hp : x.phase = .blank) {p : Phase} (hn : Phase.Next .blank p)
    {root : Sha256Digest} (hroot : p.root H b = some (initialRoot root)) (hok : (initialRoot root).validate = .ok ()) :
    ∃ z, x.files.publish .rootRecord (initialRoot root) = z.files ∧ x.Grows z := by
  have hnone : x.receipt = none := receipt_eq_none fun o => by rw [hp]; cases o <;> rfl
  have hstart : p.started = true → bindingValidate H.profile b = .ok () := fun h => by cases hn <;> cases h
  obtain ⟨z, hz, hg, -⟩ := publish_moveTo (k := .rootRecord) hp hn hnone hstart
    (fun r hr => Option.some.inj (hroot.symm.trans hr) ▸ hok) hroot (absurd rfl)
    (fun _ => by cases hn <;> rfl) fun _ => by cases hn <;> rfl
  exact ⟨z, hz, hg⟩

theorem publish_receipt (hnone : x.receipt = none) {r : RecoveryReceipt} (hr : r.validate = .ok () ∧
    r.bindingDigest = H.binding b ∧ r.outcome.fits x.phase = true) :
    ∃ z, x.files.publish .recoveryReceipt r = z.files ∧ x.Grows z ∧ z.receipt = some r := by
  refine ⟨x.giveReceipt r hr, publish_eq_files rfl fun j hj => ?_, grows_giveReceipt hnone, rfl⟩
  cases j with
  | recoveryReceipt => exact absurd rfl hj
  | _ => rfl

theorem publish_ownerDeath (hnone : x.ownerDeath = none) {d : OwnerDeathReceipt}
    (hd : d.validate = .ok () ∧ d.bindingDigest = H.binding b ∧ d.ownerIdentityDigest = ownerIdentityDigest b) :
    ∃ z, x.files.publish .ownerDeathReceipt d = z.files ∧ x.Grows z := by
  refine ⟨x.reportDeath d hd, publish_eq_files rfl fun j hj => ?_, grows_reportDeath hnone⟩
  cases j with
  | ownerDeathReceipt => exact absurd rfl hj
  | _ => rfl

end Transaction
end Zero.DurableJournal
