import ZeroStack.Program.Rely
import ZeroStack.DurableJournal.Transaction

/-! Rules for the journal's reads and writes over a transaction that other processes may
move between two steps. -/

namespace Zero.DurableJournal
open Durable Zero.Store JournalBindingLike

variable {B : Type} [JournalBindingLike B] {H : Hashes B} {b : B}

/-- The replacement finds what its call has checked: a root is published while the journal says prepared, a
transaction is aborted before its end and under the old root, and a receipt is given where there is none. -/
def exact (b : B) : FileOp Artefact (Content B) → JournalFiles B → Bool
  | .replace .rootRecord _, s => (s .journalRecord).any (·.state = .prepared)
  | .replace .journalRecord v, s => v.state ≠ .aborted ||
      (s .journalRecord).all (·.state = .prepared) && (s .rootRecord).any (·.rootDigest = oldRoot b)
  | .replace .recoveryReceipt _, s => s .recoveryReceipt = .absent
  | _, _ => true

/-- What a call may rely on. Either it runs alone, or others grow the transaction between
its steps and every replacement is exact. -/
structure Around (R : Transaction H b → Transaction H b → Prop)
    (C : FileChoice → FileOp Artefact (Content B) → JournalFiles B → Prop)
    (fault contended : Prop) : Prop where
  trans : ∀ x y z, R x y → R y z → R x z
  grows : ∀ x y, R x y → x.Grows y
  quiet : ¬ fault → ∀ c o s, C c o s → NoFault c o s
  alone : ¬ contended → ∀ x y, R x y → x = y
  exact : contended → ∀ c o s, C c o s → exact b o s = true

abbrev Follows {α : Type} (R : Transaction H b → Transaction H b → Prop)
    (C : FileChoice → FileOp Artefact (Content B) → JournalFiles B → Prop)
    (Q : Except (Failure JournalError) α → Transaction H b → Prop) (p : JournalM B α)
    (x : Transaction H b) : Prop :=
  disk.Tracks Transaction.files C R Transaction.Grows Q p.run x

section Rules
variable {R : Transaction H b → Transaction H b → Prop}
variable {C : FileChoice → FileOp Artefact (Content B) → JournalFiles B → Prop}
variable {fault contended : Prop} {α : Type} {x : Transaction H b}
variable {Q : Except (Failure JournalError) α → Transaction H b → Prop}

variable {k : Artefact}

-- after a fault every error will do
variable (A : Around R C fault contended) (hfault : fault → ∀ e y, Q (.error (.err e)) y)
include A hfault

theorem follows_load {β : Type} {g : Loaded (Content B k) → Except JournalError β} {f : β → JournalM B α}
    (hfound : ∀ y, R x y → Follows R C Q (Fallible.ofExcept (g (.found (slot (y.stored k)))) >>= f) y)
    (hio : ∀ why, (∃ e, g (.statFailed why) = .error e) ∧ ∃ e, g (.readFailed why) = .error e) :
    Follows R C Q ((FileProgram.load k >>= fun l => Fallible.ofExcept (g l)) >>= f) x := by
  rw [bind_assoc]
  refine tracks_load_bind Transaction.Grows.refl fun y hy c hc => ?_
  have hf : c.load ≠ .none → fault := fun hne => by
    by_contra hfault
    exact hne (A.quiet hfault c _ _ hc).1
  cases hload : c.load with
  | none => exact hfound y hy
  | stat why =>
    obtain ⟨e, he⟩ := (hio why).1
    rw [LoadFault.apply, he]
    exact hfault (hf (by rw [hload]; simp)) e y
  | read why =>
    obtain ⟨e, he⟩ := (hio why).2
    rw [LoadFault.apply, he]
    exact hfault (hf (by rw [hload]; simp)) e y

theorem follows_durableReplace {v : Content B k} {w : WriteBoundaries JournalBoundary} {f : Unit → JournalM B α}
    (hnew : ∀ y, R x y → (contended → exact b (.replace k v) y.files = true) →
      ∃ z, y.files.publish k v = z.files ∧ y.Grows z ∧ Follows R C Q (f ()) z) :
    Follows R C Q (durableReplace wording k v w >>= f) x := by
  unfold durableReplace
  rw [bind_assoc]
  have hfailed : ∀ (y : JournalFiles B) z c, C c (.replace k v) y → c.replace ≠ .done →
      Follows R C Q (Fallible.ofExcept (settle wording w c.replace) >>= f) z := by
    intro y z c hc hd
    obtain ⟨e, he⟩ := settle_error hd
    rw [he]
    refine hfault ?_ e z
    by_contra hquiet
    exact hd (A.quiet hquiet c _ _ hc).2
  refine tracks_replace_bind Transaction.Grows.refl (fun y hy c hc hp => ?_) fun y hy c hc hp => ?_
  · refine hfailed _ y c hc fun hd => ?_
    rw [hd] at hp
    cases hp
  · obtain ⟨z, hz, hg, hnext⟩ := hnew y hy fun hcont => A.exact hcont c _ _ hc
    refine ⟨z, hz, hg, ?_⟩
    by_cases hd : c.replace = .done
    · rw [hd]
      exact hnext
    · exact hfailed _ z c hc hd

theorem follows_readOptional {missing : JournalFailureCode} {f : Option (CanonicalRead (Content B k)) → JournalM B α}
    (hm : missing ≠ .ioBeforePublish)
    (h : ∀ y, R x y → Follows R C Q (f ((y.stored k).map fun v => ⟨v, H.content k v⟩)) y) :
    Follows R C Q (readOptional H missing k >>= f) x := by
  have hio : ∀ detail, ∃ e, optional missing (.error (.new .ioBeforePublish detail) :
      Except JournalError (CanonicalRead (Content B k))) = .error e :=
    fun detail => ⟨_, if_neg hm.symm⟩
  refine follows_load A hfault (fun y hy => ?_) fun why => ⟨hio _, hio _⟩
  have hnext := h y hy
  cases hs : y.stored k with
  | none =>
    rw [hs] at hnext
    rw [slot, decode, optional, StoreError.new, if_pos rfl]
    exact hnext
  | some w =>
    rw [hs] at hnext
    exact hnext

theorem follows_readCanonical {missing : JournalFailureCode} {f : CanonicalRead (Content B k) → JournalM B α}
    (hsome : ∀ y, R x y → ∀ v, y.stored k = some v → Follows R C Q (f ⟨v, H.content k v⟩) y)
    (hnone : ∀ y, R x y → y.stored k = none → ∀ e, Q (.error (.err e)) y) :
    Follows R C Q (readCanonical wording missing k (H.content k) >>= f) x := by
  refine follows_load A hfault (fun y hy => ?_) fun why => ⟨⟨_, rfl⟩, ⟨_, rfl⟩⟩
  cases hs : y.stored k with
  | none => exact hnone y hy hs _
  | some w => exact hsome y hy w hs

theorem follows_readRoot {f : RootPublicationReceipt → JournalM B α}
    (hsome : ∀ y, R x y → ∀ r, y.phase.root H b = some r → Follows R C Q (f r) y)
    (hnone : ∀ y, R x y → y.phase.root H b = none → ∀ e, Q (.error (.err e)) y) :
    Follows R C Q (readRoot H >>= f) x := by
  unfold readRoot
  rw [bind_assoc]
  refine follows_readCanonical A hfault (fun y hy r hr => ?_) hnone
  rw [y.root_valid r hr]
  exact hsome y hy r hr

variable [DecidableEq B]

theorem follows_writeOnce {v : Content B k} {w : WriteBoundaries JournalBoundary} {f : Unit → JournalM B α}
    (hsame : ∀ y, R x y → y.stored k = some v → Follows R C Q (f ()) y)
    (hother : ∀ y, R x y → ∀ v', y.stored k = some v' → v' ≠ v → ∀ e, Q (.error (.err e)) y)
    (hfresh : ∀ y, R x y → y.stored k = none → Follows R C Q (durableReplace wording k v w >>= f) y) :
    Follows R C Q (writeOnce wording k v w >>= f) x := by
  unfold writeOnce
  rw [← bind_assoc, bind_assoc]
  refine follows_load A hfault (fun y hy => ?_) fun why => ⟨⟨_, rfl⟩, ⟨_, rfl⟩⟩
  cases hs : y.stored k with
  | none => exact hfresh y hy hs
  | some v' =>
    rw [slot, immutable]
    split_ifs with hv
    · exact hsame y hy (hv ▸ hs)
    · exact hother y hy v' hs hv _

end Rules
end Zero.DurableJournal
