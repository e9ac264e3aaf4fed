import ZeroStack.DurableJournal.Closing

/-! What each call of the journal does to a transaction, alone or beside others. -/

namespace Zero.DurableJournal
open Durable Zero.Store JournalBindingLike

variable {B : Type} [JournalBindingLike B] {H : Hashes B} {b : B}
variable {R : Transaction H b → Transaction H b → Prop}
variable {C : FileChoice → FileOp Artefact (Content B) → JournalFiles B → Prop}
variable {fault contended : Prop} {α : Type} {x y : Transaction H b}
variable {P : Transaction H b → Prop}

variable {r : RootPublicationReceipt}

section Closing
variable [DecidableEq B] (A : Around R C fault contended) (hv : bindingValidate H.profile b = .ok ())
include A hv

section Commit
variable (hfault : fault → ∀ e y, Closes P (.error (.err e)) y) (hended : ∀ y, y.phase.isTerminal = true → P y)
include hfault

omit [DecidableEq B] hv in
theorem follows_readRoot_ended {f : RootPublicationReceipt → JournalM B RecoveryReceipt}
    (hx : x.phase.isTerminal = true) (hr : x.phase.root H b = some r)
    (h : ∀ y, y.phase = x.phase → r.validate = .ok () → Follows R C (Closes P) (f r) y) :
    Follows R C (Closes P) (readRoot H >>= f) x := by
  refine follows_readRoot A hfault (fun y hy r' hr' => ?_) fun y hy hnone => ?_
  · have hp := (A.grows x y hy).phase.of_terminal hx
    rw [hp, hr] at hr'
    cases hr'
    exact h y hp (x.root_valid r hr)
  · rw [(A.grows x y hy).phase.of_terminal hx, hr] at hnone
    cases hnone

omit [DecidableEq B] in
theorem follows_publishRoot (hz : preparedHash H b ≠ .zero) (hj : x.phase.journaled = true)
    (halone : ¬ contended → x.phase = .prepared ∨ x.phase = .published) (hr : x.phase.root H b = some r)
    {f : Unit → JournalM B RecoveryReceipt}
    (h : ∀ y, y.phase.moved = true → Follows R C (Closes P) (f ()) y) :
    Follows R C (Closes P) (publishRoot b (preparedHash H b) r >>= f) x := by
  have hvalid := x.root_valid r hr
  rw [Phase.root_eq (Phase.started_of_journaled hj)] at hr
  unfold publishRoot
  by_cases hm : x.phase.moved = true
  · rw [if_pos hm] at hr
    cases hr
    have hne : ¬ (publishedRoot H b).rootDigest = oldRoot b :=
      (validated H.profile b hv).2.2.2.2.symm
    rw [if_neg hne, verifyNew_published hvalid]
    exact h x hm
  · rw [if_neg hm] at hr
    cases hr
    have hold : (initialRoot (oldRoot b)).rootDigest = oldRoot b := rfl
    have hok := validate_publishedRoot hv hz
    rw [if_pos hold]
    simp only [show RootPublicationReceipt.published b (preparedHash H b) = publishedRoot H b
      from rfl, hok, Fallible.ofExcept_ok, pure_bind]
    refine follows_durableReplace A hfault fun y hy hexact => ?_
    have hphase : y.phase = .prepared ∨ y.phase = .published := by
      by_cases hcont : contended
      · exact phase_of_exact_root (hexact hcont)
      · rw [← A.alone hcont x y hy]
        exact halone hcont
    rcases hphase with hp | hp
    · obtain ⟨z, hz, hyz, hpub⟩ := Transaction.publish_root hv hp hok
      exact ⟨z, hz, hyz, h z (by rw [hpub]; rfl)⟩
    · have hstored : y.stored .rootRecord = some (publishedRoot H b) := by
        rw [Transaction.stored, hp]
        rfl
      exact ⟨y, Transaction.publish_eq_files hstored fun _ _ => rfl, .refl y, h y (by rw [hp]; rfl)⟩

include hended

theorem follows_commitCommitted (hx : x.phase = .committed) :
    Follows R C (Closes P) (commitCommitted H
      ⟨committedRecord H b, H.content .journalRecord (committedRecord H b)⟩) x := by
  refine follows_readRoot_ended A hfault (by rw [hx]; rfl) (by rw [hx]; rfl) fun y hp hvalid => ?_
  change Follows R C (Closes P) (Fallible.ofExcept (.ok (preparedHash H b)) >>= fun prepared =>
    Fallible.ofExcept (verifyNew (publishedRoot H b) b prepared) >>= fun _ =>
      ownerDeathDigest H b >>= fun owner => _) y
  rw [Fallible.ofExcept_ok, pure_bind, verifyNew_published hvalid]
  exact follows_closeOwned A hv hfault (validated H.profile b hv).2.1 (hp.trans hx) rfl rfl hended

theorem follows_commitPrepared (hx : x.phase = .prepared ∨ x.phase = .published)
    {cartridge : ContinuationCartridgeRecord B} (hz : cartridge.preparedRecordDigest ≠ .zero)
    (hmismatch : preparedHash H b ≠ cartridge.preparedRecordDigest → P x) :
    Follows R C (Closes P) (commitPrepared H cartridge ⟨.prepared b, preparedHash H b⟩) x := by
  unfold commitPrepared
  by_cases hd : preparedHash H b ≠ cartridge.preparedRecordDigest
  · rw [if_pos hd]
    exact hmismatch hd
  rw [if_neg hd]
  rw [← not_not.mp hd] at hz
  have hjournaled : x.phase.journaled = true := by rcases hx with hx | hx <;> rw [hx] <;> rfl
  refine follows_readRoot A hfault (fun y hy r hr => ?_) fun y hy hnone => ?_
  · have halone : ¬ contended → y.phase = .prepared ∨ y.phase = .published := fun hcont => by
      rw [← A.alone hcont x y hy]
      exact hx
    refine follows_publishRoot A hv hfault hz ((A.grows x y hy).phase.journaled hjournaled) halone hr fun z hm => ?_
    refine follows_publishCommitted A hv hfault hm fun u hu hp => ?_
    exact follows_closeOwned A hv hfault (validated H.profile b hv).2.1 hp rfl rfl hended
  · rw [Phase.root_eq (Phase.started_of_journaled ((A.grows x y hy).phase.journaled hjournaled))] at hnone
    cases hnone

omit hv in
theorem follows_commitBoundJournal (cartridge : ContinuationCartridgeRecord B)
    (hP : ¬ (x.phase.journaled = true ∧ cartridge.validateAgainst H b = .ok () ∧
      cartridge.preparedRecordDigest = preparedHash H b) → ∀ y, P y) :
    Follows R C (Closes P) (commitBoundJournal H cartridge) x := by
  refine follows_existingRecovery A hfault (fun _ h => by cases h) fun y hy => ?_
  have hxy := A.grows x y hy
  cases hr : y.receipt with
  | some r =>
    change Follows R C (Closes P) (Fallible.ofExcept (alreadyRecovered cartridge r)) y
    unfold alreadyRecovered
    split_ifs with hdigest
    · exact hr
    · by_cases hj : x.phase.journaled = true
      · exact hended y (Transaction.isTerminal_of_receipt hr (Phase.started_of_journaled (hxy.phase.journaled hj)))
      · exact hP (fun hready => hj hready.1) y
  | none =>
    refine follows_readCanonical A hfault (fun z hz j hj => ?_) fun z hz hnone e => ?_
    · have hv := z.valid (Phase.started_of_journaled (Phase.journaled_of_journal hj))
      obtain ⟨hok, hbinding, -⟩ := Phase.journal_spec hv hj
      simp only [hok, hbinding, Fallible.ofExcept_ok, pure_bind]
      refine .ofExcept_bind (fun _ hcart => ?_) fun e he => ?_
      · have hzero := validateAgainst_ok hv hcart
        rcases Phase.journal_cases hj with ⟨hp, rfl⟩ | ⟨hp, rfl⟩ | ⟨reason, hp, rfl⟩
        · exact follows_commitPrepared A hv hfault hended hp hzero fun hne => hP (fun hready => hne hready.2.2.symm) z
        · exact follows_commitCommitted A hv hfault hended hp
        · exact hended z (by rw [hp]; rfl)
      · exact hP (fun hready => by cases he.symm.trans hready.2.1) z
    · refine hP (fun hready => ?_) z
      have hj := (hxy.trans (A.grows y z hz)).phase.journaled hready.1
      rw [Phase.journal_eq_none hnone] at hj
      cases hj

end Commit

section Abort

theorem follows_abortAborted {reason : AbortReason} (hx : x.phase = .aborted reason) :
    Follows R C (Closes fun _ => True) (abortAborted H
      ⟨abortedRecord H b reason, H.content .journalRecord (abortedRecord H b reason)⟩) x := by
  refine follows_readRoot_ended A (fun _ _ _ => trivial) (by rw [hx]; rfl) (by rw [hx]; rfl) fun y hp hvalid => ?_
  change Follows R C (Closes _) (Fallible.ofExcept (verifyOld (initialRoot (oldRoot b)) b) >>=
    fun _ => Fallible.ofExcept (.ok (preparedHash H b)) >>= fun prepared =>
      ownerDeathDigest H b >>= fun owner => _) y
  rw [verifyOld_initial hvalid]
  exact follows_closeOwned A hv (fun _ _ _ => trivial) (validated H.profile b hv).1 (hp.trans hx) rfl rfl
    fun _ _ => trivial

theorem follows_abortPrepared (hx : x.phase = .prepared ∨ x.phase = .published)
    (cartridge : ContinuationCartridgeRecord B) : Follows R C (Closes fun _ => True)
      (abortPrepared H cartridge ⟨.prepared b, preparedHash H b⟩) x := by
  unfold abortPrepared
  split_ifs with hd
  · trivial
  have hstarted : x.phase.started = true := by rcases hx with hx | hx <;> rw [hx] <;> rfl
  refine follows_readRoot A (fun _ _ _ => trivial) (fun y hy r hr => ?_) fun _ _ _ _ => trivial
  refine .ofExcept_bind (fun _ hverify => ?_) fun _ _ => trivial
  -- the old root is verified, so a transaction that nobody else moves is still prepared
  have halone : ¬ contended → y.phase = .bound ∨ y.phase = .prepared := fun hcont => by
    rw [A.alone hcont x y hy] at hx
    rcases hx with hp | hp
    · exact .inr hp
    · rw [hp] at hr
      cases hr
      rw [verifyOld, y.root_valid (publishedRoot H b) (by rw [hp]; rfl)] at hverify
      change (if newRoot b = oldRoot b then _ else _) = _ at hverify
      rw [if_neg (validated H.profile b hv).2.2.2.2.symm] at hverify
      cases hverify
  refine follows_publishAborted A hv (fun _ _ _ => trivial) ((A.grows x y hy).phase.started hstarted) halone
    fun z hz hp => ?_
  exact follows_closeOwned A hv (fun _ _ _ => trivial) (validated H.profile b hv).1 hp rfl rfl fun _ _ => trivial

omit hv in
theorem follows_abortBoundJournal (cartridge : ContinuationCartridgeRecord B) :
    Follows R C (Closes fun _ => True) (abortBoundJournal H cartridge) x := by
  refine follows_existingRecovery A (fun _ _ _ => trivial) (fun _ h => by cases h) fun y hy => ?_
  cases hr : y.receipt with
  | some r =>
    change Follows R C (Closes _) (Fallible.ofExcept (alreadyRecovered cartridge r)) y
    unfold alreadyRecovered
    split_ifs with hdigest
    · exact hr
    · trivial
  | none =>
    refine follows_readCanonical A (fun _ _ _ => trivial) (fun z hz j hj => ?_) fun _ _ _ _ => trivial
    have hv := z.valid (Phase.started_of_journaled (Phase.journaled_of_journal hj))
    obtain ⟨hok, hbinding, -⟩ := Phase.journal_spec hv hj
    simp only [hok, hbinding, Fallible.ofExcept_ok, pure_bind]
    refine .ofExcept_bind (fun _ _ => ?_) fun _ _ => trivial
    rcases Phase.journal_cases hj with ⟨hp, rfl⟩ | ⟨-, rfl⟩ | ⟨reason, hp, rfl⟩
    · exact follows_abortPrepared A hv hp cartridge
    · trivial
    · exact follows_abortAborted A hv hp

end Abort

section Recover
variable {excuse : Prop} (hfault : fault → ∀ e y, Closes (fun _ : Transaction H b => excuse) (.error (.err e)) y)
  (hother : contended ∨ H.binding b = .zero → excuse)
include hfault hother

omit hv in
theorem follows_recoverCartridge (hs : x.phase.started = true)
    (halone : ¬ contended → x.phase = .bound) (hzero : preparedHash H b = .zero → excuse) :
    Follows R C (Closes fun _ => excuse) (recoverCartridge H b (cartridgeFor H b)) x := by
  have hv := x.valid hs
  unfold recoverCartridge
  by_cases hz : preparedHash H b = .zero
  · refine .ofExcept_bind (fun _ hcart => ?_) fun _ _ => hzero hz
    exact absurd hz (validateAgainst_ok hv hcart)
  simp only [validateAgainst_cartridgeFor hv hz, digest_of_valid (validate_prepared hv),
    Fallible.ofExcept_ok, pure_bind]
  have hsame : ¬ (cartridgeFor H b).preparedRecordDigest ≠
      H.content .journalRecord (.prepared b) := not_not.mpr rfl
  rw [if_neg hsame]
  refine follows_publishAborted A hv hfault hs (fun hcont => .inl (halone hcont)) fun z hz hp => ?_
  exact follows_closeTerminal A hv hfault (validated H.profile b hv).1 hp rfl rfl fun h _ _ => hother h

theorem follows_recoverMissing (hstart : contended → x.phase.started = true) (hmissing : x.phase.journaled = false)
    (hr : x.phase.root H b = some r) (hP : x.phase.started = false ∨ preparedHash H b = .zero → excuse) :
    Follows R C (Closes fun _ => excuse) (recoverMissing H b r) x := by
  unfold recoverMissing
  split_ifs with hne
  · refine hP (.inl ?_)
    cases hp : x.phase <;> rw [hp] at hr hmissing <;>
      first | rfl | (cases hmissing; done) | exact absurd (by cases hr; rfl) hne
  refine follows_readOptional A hfault (by decide) fun y hy => ?_
  by_cases hs : y.phase.started = true
  · have hcart : y.stored .cartridge = some (cartridgeFor H b) := if_pos hs
    rw [hcart]
    refine follows_recoverCartridge A hfault hother hs (fun hcont => ?_) fun h => hP (.inr h)
    rw [A.alone hcont x y hy] at hmissing
    cases hp : y.phase <;> rw [hp] at hs hmissing <;>
      first | rfl | (cases hs; done) | cases hmissing
  · have hcart : y.stored .cartridge = none := if_neg hs
    rw [hcart]
    -- nobody else is about: a contended recovery starts from a started transaction
    have hcont : ¬ contended := fun hcont => hs ((A.grows x y hy).phase.started (hstart hcont))
    refine follows_closeRecovery A hv hfault (validated H.profile b hv).1 (fun z hz => ?_) fun h _ _ => hother h
    rw [← A.alone hcont y z hz]
    rw [A.alone hcont x y hy] at hr hmissing
    have hidle : y.phase = .idle := by
      cases hp : y.phase <;> rw [hp] at hs hr <;>
        first | rfl | exact absurd rfl hs | (cases hr; done) |
          (cases hr; exact absurd (not_not.mp hne).symm (validated H.profile b hv).2.2.2.2)
    rw [hidle]
    rfl

theorem follows_recoverPrepared {w : Transaction H b} (hw : w.Grows x)
    (hws : w.phase.started = true) (hwalone : ¬ contended → w = x)
    (hx : ¬ contended → x.phase = .prepared ∨ x.phase = .published) (hr : w.phase.root H b = some r)
    {owner : Option Sha256Digest} : Follows R C (Closes fun _ => excuse)
      (recoverPrepared H b r ⟨.prepared b, preparedHash H b⟩ (preparedHash H b) owner) x := by
  have hvalid := w.root_valid r hr
  have hne := (validated H.profile b hv).2.2.2.2
  rw [Phase.root_eq hws] at hr
  unfold recoverPrepared
  by_cases hm : w.phase.moved = true
  · rw [if_pos hm] at hr
    cases hr
    have hnew : (publishedRoot H b).rootDigest = newRoot b := rfl
    have hold : ¬ (publishedRoot H b).rootDigest = oldRoot b := hne.symm
    rw [if_neg hold, if_pos hnew, verifyNew_published hvalid]
    refine follows_publishCommitted A hv hfault (hw.phase.moved hm) fun z hz hp => ?_
    exact follows_closeTerminal A hv hfault (validated H.profile b hv).2.1 hp rfl rfl fun h _ _ => hother h
  · rw [if_neg hm] at hr
    cases hr
    have hold : (initialRoot (oldRoot b)).rootDigest = oldRoot b := rfl
    rw [if_pos hold]
    refine follows_publishAborted A hv hfault (hw.phase.started hws) (fun hcont => .inr ?_) fun z hz hp => ?_
    · rw [hwalone hcont] at hm
      rcases hx hcont with hp | hp
      · exact hp
      · rw [hp] at hm
        exact absurd rfl hm
    · exact follows_closeTerminal A hv hfault (validated H.profile b hv).1 hp rfl rfl fun h _ _ => hother h

omit hv in
theorem follows_recoverStored {w : Transaction H b}
    (hw : w.Grows x) (hws : w.phase.started = true) (hwalone : ¬ contended → w = x) (hr : w.phase.root H b = some r)
    {j : DurableJournalRecord B} (hj : x.phase.journal H b = some j) : Follows R C (Closes fun _ => excuse)
      (recoverStored H b r ⟨j, H.content .journalRecord j⟩) x := by
  have hv := x.valid (Phase.started_of_journaled (Phase.journaled_of_journal hj))
  obtain ⟨hok, hbinding, hprepared⟩ := Phase.journal_spec hv hj
  unfold recoverStored
  simp only [hok, hbinding, hprepared, bindingDigest_of_valid hv, Fallible.ofExcept_ok, pure_bind]
  rw [if_neg (by simp)]
  refine follows_ownerDeathDigest A hv hfault fun y hy owner => ?_
  have hxy := A.grows x y hy
  have hvalid := w.root_valid r hr
  rcases Phase.journal_cases hj with ⟨hp, rfl⟩ | ⟨hp, rfl⟩ | ⟨reason, hp, rfl⟩
  · refine follows_recoverPrepared A hv hfault hother (hw.trans hxy) hws (fun hcont => ?_) (fun hcont => ?_) hr
    · rw [hwalone hcont, A.alone hcont x y hy]
    · rwa [← A.alone hcont x y hy]
  · have hphase : y.phase = .committed := (hxy.phase.of_terminal (by rw [hp]; rfl)).trans hp
    refine .ofExcept_bind (fun _ _ => ?_) fun e he => hother (.inl ?_)
    · exact follows_closeTerminal A hv hfault (validated H.profile b hv).2.1 hphase rfl rfl fun h _ _ => hother h
    · -- the root was read before the record, and only others can have committed in between
      by_contra hcont
      rw [hwalone hcont, hp] at hr
      cases hr
      rw [verifyNew_published hvalid] at he
      cases he
  · have hphase : y.phase = .aborted reason := (hxy.phase.of_terminal (by rw [hp]; rfl)).trans hp
    have hm : w.phase.moved ≠ true := fun hm => by
      have := hw.phase.moved hm
      rw [hp] at this
      cases this
    rw [Phase.root_eq hws, if_neg hm] at hr
    cases hr
    change Follows R C _ (Fallible.ofExcept (verifyOld (initialRoot (oldRoot b)) b) >>= fun _ => _) y
    rw [verifyOld_initial hvalid, Fallible.ofExcept_ok, pure_bind]
    exact follows_closeTerminal A hv hfault (validated H.profile b hv).1 hphase rfl rfl fun h _ _ => hother h

omit hv in
theorem follows_recoverBoundJournal (hstart : contended → x.phase.started = true)
    (hP : x.phase.started = false ∨ preparedHash H b = .zero → excuse) :
    Follows R C (Closes fun _ => excuse) (recoverBoundJournal H b) x := by
  unfold recoverBoundJournal
  refine .ofExcept_bind (fun _ hv => ?_) fun e he => ?_
  · refine follows_existingRecovery A hfault ?_ fun y hy => ?_
    · rintro _ ⟨⟩
      exact ⟨rfl, hv⟩
    have hxy := A.grows x y hy
    cases hr : y.receipt with
    | some r => exact hr
    | none =>
      refine follows_readRoot A hfault (fun z hz r hroot => ?_) fun z hz hnone _ => ?_
      · have hxz := hxy.trans (A.grows y z hz)
        refine follows_readOptional A hfault (by decide) fun u hu => ?_
        have hzu := A.grows z u hu
        cases hj : u.phase.journal H b with
        | none =>
          simp only [Transaction.stored, hj]
          have hmissing := Phase.journal_eq_none hj
          -- without a journal record the root has not moved since it was read
          have hroot' : u.phase.root H b = some r := by
            by_cases hcont : contended
            · have hs := hxz.phase.started (hstart hcont)
              have hm' : u.phase.moved ≠ true := fun hm' => by
                have := Phase.journaled_of_moved hm'
                rw [hmissing] at this
                cases this
              have hm : z.phase.moved ≠ true := fun hm => hm' (hzu.phase.moved hm)
              rw [Phase.root_eq hs, if_neg hm] at hroot
              rw [Phase.root_eq (hzu.phase.started hs), if_neg hm', hroot]
            · rw [← A.alone hcont z u hu]
              exact hroot
          refine follows_recoverMissing A hv hfault hother (fun hcont => (hxz.trans hzu).phase.started (hstart hcont))
            hmissing hroot' fun h => hP (h.imp_left fun hnot => ?_)
          by_contra hs
          rw [(hxz.trans hzu).phase.started (Bool.not_eq_false _ ▸ hs)] at hnot
          cases hnot
        | some j =>
          simp only [Transaction.stored, hj]
          have hs : z.phase.started = true := by
            by_cases hcont : contended
            · exact hxz.phase.started (hstart hcont)
            · rw [A.alone hcont z u hu]
              exact Phase.started_of_journaled (Phase.journaled_of_journal hj)
          exact follows_recoverStored A hfault hother hzu hs (fun hcont => A.alone hcont z u hu) hroot hj
      · refine hP (.inl ?_)
        by_contra hs
        rw [Phase.root_eq ((hxy.trans (A.grows y z hz)).phase.started (Bool.not_eq_false _ ▸ hs))] at hnone
        cases hnone
  · refine hP (.inl ?_)
    by_contra hs
    cases he.symm.trans (x.valid (Bool.not_eq_false _ ▸ hs))

end Recover
end Closing

/-! The calls before a transaction can end. They need no promise about their results, and are
made by the transaction's owner alone. -/

section Begin

theorem new_cartridge (hv : bindingValidate H.profile b = .ok ()) :
    ContinuationCartridgeRecord.new H b (preparedHash H b) = .ok (cartridgeFor H b) := by
  rw [ContinuationCartridgeRecord.new, bindingDigest_of_valid hv]
  rfl

variable (A : Around R C fault False)
include A

theorem follows_initializePublishedRoot {root : Sha256Digest} (hroot : root = oldRoot b ∨ root = newRoot b) :
    Follows R C (fun _ _ => True) (initializePublishedRoot H root) x := by
  unfold initializePublishedRoot RootPublicationReceipt.initial
  split_ifs with hzero
  · trivial
  refine follows_readOptional A (fun _ _ _ => trivial) (by decide) fun y hy => ?_
  cases hr : y.phase.root H b with
  | some r =>
    simp only [Transaction.stored, hr]
    refine .ofExcept_bind (fun _ _ => ?_) fun _ _ => trivial
    split_ifs <;> trivial
  | none =>
    simp only [Transaction.stored, hr]
    refine .ofExcept_bind (fun _ hok => ?_) fun _ _ => trivial
    refine follows_durableReplace A (fun _ _ _ => trivial) fun z hz _ => ?_
    have hblank : z.phase = .blank := by
      rw [← A.alone not_false y z hz]
      cases hp : y.phase <;> rw [hp] at hr <;> first | rfl | cases hr
    obtain ⟨p, hn, hp⟩ : ∃ p, Phase.Next .blank p ∧ p.root H b = some (initialRoot root) := by
      rcases hroot with rfl | rfl
      · exact ⟨_, .initializeOld, rfl⟩
      · exact ⟨_, .initializeNew, rfl⟩
    obtain ⟨u, hu, hg⟩ := Transaction.publish_initial hblank hn hp hok
    exact ⟨u, hu, hg, trivial⟩

variable [DecidableEq B]

theorem follows_prepareAgain (existing : CanonicalRead (DurableJournalRecord B)) :
    Follows R C (fun _ _ => True) (prepareAgain H b existing) x := by
  refine .ofExcept_bind (fun _ _ => ?_) fun _ _ => trivial
  split_ifs
  · unfold readCartridge
    rw [bind_assoc]
    refine follows_readCanonical A (fun _ _ _ => trivial) (fun y hy c _ => ?_) fun _ _ _ _ => trivial
    refine .ofExcept_bind (fun _ _ => ?_) fun _ _ => trivial
    split_ifs <;> trivial
  · trivial

theorem follows_prepareFresh (hv : bindingValidate H.profile b = .ok ()) (hx : x.phase = .idle ∨ x.phase = .bound)
    (hnone : x.receipt = none) : Follows R C (fun _ _ => True) (prepareFresh H b) x := by
  -- once the cartridge is written, the prepared record follows
  have hbound : ∀ y : Transaction H b, y.phase = .bound →
      Follows R C (fun _ _ => True) (Fallible.ofExcept ((DurableJournalRecord.prepared b).validate H)
        >>= fun _ => durableReplace wording Artefact.journalRecord (.prepared b)
          (boundaries .prepare) >>= fun _ => pure (cartridgeFor H b)) y := by
    intro y hy
    rw [validate_prepared hv]
    refine follows_durableReplace A (fun _ _ _ => trivial) fun z hz _ => ?_
    rw [A.alone not_false y z hz] at hy
    obtain ⟨u, hu, hg, -⟩ := Transaction.publish_prepared hv hy
    exact ⟨u, hu, hg, trivial⟩
  unfold prepareFresh
  simp only [digest_of_valid (validate_prepared hv), Fallible.ofExcept_ok, pure_bind]
  change Follows R C _ (Fallible.ofExcept (ContinuationCartridgeRecord.new H b (preparedHash H b))
    >>= fun cartridge => _) x
  rw [new_cartridge hv]
  refine follows_writeOnce A (fun _ _ _ => trivial) (fun y hy hsame => hbound y ?_) (fun _ _ _ _ _ _ => trivial)
    fun y hy hfresh => ?_
  · rw [A.alone not_false x y hy] at hx
    rcases hx with hx | hx
    · rw [Transaction.stored, hx] at hsame
      cases hsame
    · exact hx
  · refine follows_durableReplace A (fun _ _ _ => trivial) fun z hz _ => ?_
    have hxz : x = z := (A.alone not_false x y hy).trans (A.alone not_false y z hz)
    rw [A.alone not_false y z hz] at hfresh
    rw [hxz] at hx hnone
    rcases hx with hx | hx
    · obtain ⟨u, hu, hg, hp⟩ := Transaction.publish_cartridge hv hx hnone
      exact ⟨u, hu, hg, hbound u hp⟩
    · rw [Transaction.stored, hx] at hfresh
      cases hfresh

theorem follows_prepareUnexpired (hv : bindingValidate H.profile b = .ok ()) :
    Follows R C (fun _ _ => True) (prepareUnexpired H b) x := by
  refine follows_readRoot A (fun _ _ _ => trivial) (fun y hy r hr => ?_) fun _ _ _ _ => trivial
  split_ifs with hroot
  · trivial
  refine follows_readOptional A (fun _ _ _ => trivial) (by decide) fun z hz => ?_
  cases hreceipt : z.receipt with
  | some _ =>
    simp only [Transaction.stored, hreceipt]
    trivial
  | none =>
    simp only [Transaction.stored, hreceipt]
    refine follows_readOptional A (fun _ _ _ => trivial) (by decide) fun u hu => ?_
    cases hj : u.phase.journal H b with
    | some j =>
      simp only [Transaction.stored, hj]
      exact follows_prepareAgain A _
    | none =>
      simp only [Transaction.stored, hj]
      rw [A.alone not_false z u hu] at hreceipt
      rw [A.alone not_false y z hz, A.alone not_false z u hu] at hr
      refine follows_prepareFresh A hv ?_ hreceipt
      -- the root is the old one and there is no journal record
      have hne := (validated H.profile b hv).2.2.2.2
      cases hp : u.phase <;> rw [hp] at hr hj <;>
        first
          | exact .inl rfl
          | exact .inr rfl
          | (cases hj; done)
          | (cases hr; done)
          | (cases hr; exact absurd (not_not.mp hroot).symm hne)

theorem follows_prepareBoundJournal : Follows R C (fun _ _ => True) (prepareBoundJournal H b) x := by
  refine .ofExcept_bind (fun _ hv => ?_) fun _ _ => trivial
  unfold checkLease
  split
  · exact follows_prepareUnexpired A hv
  · rw [bind_assoc]
    refine tracks_now_bind Transaction.Grows.refl fun y hy n => ?_
    split_ifs
    · trivial
    · exact follows_prepareUnexpired A hv

theorem follows_recordBoundOwnerDeath (owner : Sha256Digest) (observedAt : ℕ) :
    Follows R C (fun _ _ => True) (recordBoundOwnerDeath H owner observedAt) x := by
  refine follows_readCanonical A (fun _ _ _ => trivial) (fun y hy j hj => ?_) fun _ _ _ _ => trivial
  have hv := y.valid (Phase.started_of_journaled (Phase.journaled_of_journal hj))
  obtain ⟨hok, hbinding, -⟩ := Phase.journal_spec hv hj
  simp only [hok, hbinding, bindingDigest_of_valid hv, Fallible.ofExcept_ok, pure_bind]
  split_ifs with howner
  · trivial
  · trivial
  refine follows_readRoot A (fun _ _ _ => trivial) (fun z hz r hr => ?_) fun _ _ _ _ => trivial
  refine .ofExcept_bind (fun _ hd => ?_) fun _ _ => trivial
  refine follows_writeOnce A (fun _ _ _ => trivial) (fun _ _ _ => trivial) (fun _ _ _ _ _ _ => trivial)
    fun u hu hfresh => ?_
  refine follows_durableReplace A (fun _ _ _ => trivial) fun t ht _ => ?_
  rw [A.alone not_false u t ht] at hfresh
  obtain ⟨w, hw, hg⟩ := Transaction.publish_ownerDeath hfresh ⟨hd, rfl, (not_not.mp howner).symm⟩
  exact ⟨w, hw, hg, trivial⟩

end Begin
end Zero.DurableJournal
