import ZeroStack.AttemptJournal.Operations

/-! The lifecycle of one attempt and its entry files. `Attempt.files` is the directory that stands for an attempt, and
`read_chain` reads every such directory back. -/

namespace Zero.AttemptJournal
open Durable Zero.Store List

inductive Closing where
  | aborted
  | safeToRetry
  deriving DecidableEq

inductive Resolution where
  | succeeded (receiptDigest : Sha256Digest) (observedAtUnixNs : ℕ)
  | failed (failureReceiptDigest : Sha256Digest) (observedAtUnixNs : ℕ)
  | indeterminate
  deriving DecidableEq

def Closing.state : Closing → AttemptState
  | .aborted => .aborted
  | .safeToRetry => .safeToRetry

def Closing.abortReason : Closing → Option AttemptAbortReason
  | .aborted => some .explicitAbort
  | .safeToRetry => none

def Resolution.state : Resolution → AttemptState
  | .succeeded _ _ => .succeeded
  | .failed _ _ => .failed
  | .indeterminate => .indeterminate

def Resolution.evidence : Resolution → Option AttemptEvidence
  | .succeeded receiptDigest observedAtUnixNs => some (.completion receiptDigest observedAtUnixNs)
  | .failed receiptDigest observedAtUnixNs => some (.failure receiptDigest observedAtUnixNs)
  | .indeterminate => none

def Resolution.Valid : Resolution → Prop
  | .succeeded receiptDigest _ | .failed receiptDigest _ => receiptDigest ≠ .zero
  | .indeterminate => True

inductive Attempt where
  | idle
  | prepared (b : AttemptBinding)
  | dispatched (b : AttemptBinding) (crossedAtUnixNs : ℕ)
  | closed (b : AttemptBinding) (how : Closing)
  | resolved (b : AttemptBinding) (crossedAtUnixNs : ℕ) (how : Resolution)
  deriving DecidableEq

inductive Attempt.Next : Attempt → Attempt → Prop where
  | prepare (b) : Next .idle (.prepared b)
  | cross (b at') : Next (.prepared b) (.dispatched b at')
  | close (b how) : Next (.prepared b) (.closed b how)
  | resolve (b at' how) : Next (.dispatched b at') (.resolved b at' how)

section Entries
variable (H : Hashes) (b : AttemptBinding)

def preparedEntry : AttemptEntry := .prepared b 1

def crossedEntry (crossedAtUnixNs : ℕ) : AttemptEntry :=
  .dispatchCrossed (preparedEntry b) (H.entry (preparedEntry b)) 2 crossedAtUnixNs

def closingEntry (how : Closing) : AttemptEntry :=
  .successor (preparedEntry b) (H.entry (preparedEntry b)) 2 how.state none how.abortReason none

def resolutionEntry (crossedAtUnixNs : ℕ) (how : Resolution) : AttemptEntry :=
  .successor (crossedEntry H b crossedAtUnixNs) (H.entry (crossedEntry H b crossedAtUnixNs)) 3
    how.state none none how.evidence

end Entries

namespace Attempt
variable (H : Hashes)

def entries : Attempt → List AttemptEntry
  | .idle => []
  | .prepared b => [preparedEntry b]
  | .dispatched b at' => [preparedEntry b, crossedEntry H b at']
  | .closed b how => [preparedEntry b, closingEntry H b how]
  | .resolved b at' how => [preparedEntry b, crossedEntry H b at', resolutionEntry H b at' how]

def Valid : Attempt → Prop
  | .idle => True
  | .prepared b | .dispatched b _ | .closed b _ => b.validate H = .ok ()
  | .resolved b _ how => b.validate H = .ok () ∧ how.Valid

end Attempt

def layout (l : List AttemptEntry) : AttemptFiles
  | 0 => .absent
  | k + 1 => match l[k]? with
    | some e => .record e
    | none => .absent

theorem layout_nil : layout [] = Files.empty := by
  funext k
  cases k <;> rfl

theorem layout_of_getElem? {l : List AttemptEntry} {k : ℕ} {e : AttemptEntry}
    (h : l[k]? = some e) : layout l (k + 1) = .record e := by
  simp only [layout, h]

theorem layout_of_length_lt {l : List AttemptEntry} {k : ℕ} (h : l.length < k) : layout l k = .absent := by
  obtain ⟨j, rfl⟩ : ∃ j, k = j + 1 := ⟨k - 1, by omega⟩
  have hj : l[j]? = none := List.getElem?_eq_none (by omega)
  simp only [layout, hj]

theorem layout_append (l : List AttemptEntry) (e : AttemptEntry) :
    layout (l ++ [e]) = (layout l).publish (l.length + 1) e := by
  funext k
  by_cases hk : k = l.length + 1
  · subst hk
    rw [Files.publish_self]
    exact layout_of_getElem? (by simp)
  · rw [Files.publish_of_ne _ _ hk]
    cases k with
    | zero => rfl
    | succ k =>
      have hne : k ≠ l.length := fun h => hk (by rw [h])
      rcases Nat.lt_or_gt_of_ne hne with hlt | hgt
      · simp only [layout, List.getElem?_append_left hlt]
      · rw [layout_of_length_lt (by simp; omega), layout_of_length_lt (by omega)]

theorem layout_injective : Function.Injective layout := by
  intro l l' h
  refine ext_getElem? fun k => ?_
  have hk := congrFun h (k + 1)
  simp only [layout] at hk
  cases hl : l[k]? <;> cases hl' : l'[k]? <;> simp_all

def Attempt.files (H : Hashes) (a : Attempt) : AttemptFiles := layout (a.entries H)

def canonical (H : Hashes) (e : AttemptEntry) : CanonicalRead AttemptEntry := ⟨e, H.entry e⟩

abbrev ReadFailed (e : AttemptJournalError) : Prop := e.code = .ioBeforePublish

section ReadChain
variable {H : Hashes} {s : AttemptFiles} {l : List AttemptEntry}

theorem reads_readCanonicalEntry_record {k : ℕ} {e : AttemptEntry} (hs : s k = .record e) (hv : e.validate H = .ok ()) :
    Reads (readCanonicalEntry H k) s (.ok (canonical H e)) ReadFailed := by
  refine Reads.bind (reads_readCanonical hs) ?_
  simp only [hv, AttemptEntry.digest_of_valid hv, Fallible.ofExcept_ok]
  exact Reads.ofPure _

theorem reads_readCanonicalEntry_absent {k : ℕ} (hs : s k = .absent) : Reads (readCanonicalEntry H k) s
      (.error (.err (.new .entryMissing "required entry is absent"))) ReadFailed :=
  Reads.bind_error (reads_readCanonical hs)

theorem reads_readEntries (hv : ∀ e ∈ l, e.validate H = .ok ()) (remaining : ℕ)
    {done todo : List AttemptEntry} (hl : l = done ++ todo) (hr : todo.length < remaining) :
    Reads (readEntries H remaining (done.length + 1) (done.map (canonical H))) (layout l)
      (.ok (l.map (canonical H), l.length + 1)) ReadFailed := by
  have hfail : ∀ (acc : List (CanonicalRead AttemptEntry)) (sequence : ℕ) e, ReadFailed e →
      Reads (if e.code = .entryMissing then pure (acc, sequence) else Fallible.fail e)
        (layout l) (.error (.err e)) ReadFailed := by
    intro acc sequence e he
    rw [if_neg (by simp [he])]
    exact Reads.ofFail e
  induction remaining generalizing done todo with
  | zero => omega
  | succ remaining ih =>
    cases todo with
    | nil =>
      have hs : layout l (done.length + 1) = .absent := layout_of_length_lt (by simp [hl])
      refine Reads.observe_bind (reads_readCanonicalEntry_absent hs) ?_ fun e he => .inr ⟨e, he, hfail _ _ e he⟩
      simp only [hl, append_nil, StoreError.new]
      exact Reads.ofPure _
    | cons e todo =>
      have hs : layout l (done.length + 1) = .record e := layout_of_getElem? (by simp [hl])
      refine Reads.observe_bind (reads_readCanonicalEntry_record hs (hv e (by simp [hl]))) ?_
        fun e he => .inr ⟨e, he, hfail _ _ e he⟩
      have h := @ih (done ++ [e]) todo (by simp [hl]) (by simp at hr; omega)
      simpa using h

theorem reads_probeEntries (remaining : ℕ) {probe : ℕ} (hp : l.length < probe) :
    Reads (probeEntries H remaining probe) (layout l) (.ok ()) ReadFailed := by
  induction remaining generalizing probe with
  | zero => exact Reads.ofPure _
  | succ remaining ih =>
    have hs : layout l probe = .absent := layout_of_length_lt hp
    have hnext := @ih (probe + 1) (by omega)
    exact Reads.observe_bind (reads_readCanonicalEntry_absent hs) hnext fun e _ => .inl hnext

theorem reads_readChain (hv : ∀ e ∈ l, e.validate H = .ok ()) (hl : l.length < attemptJournalMaxEntries)
    (hc : checkEntries 0 none (l.map (canonical H)) = .ok ()) :
    Reads (readChain H) (layout l) (.ok (l.map (canonical H))) ReadFailed := by
  refine Reads.bind (reads_readEntries hv _ (nil_append l).symm hl) ?_
  cases l with
  | nil => exact Reads.ofPure _
  | cons e l =>
    simp only [map_cons, isEmpty_cons, Bool.false_eq_true]
    refine Reads.bind (reads_probeEntries _ (by simp)) ?_
    rw [← map_cons, hc]
    exact Reads.ofPure _

end ReadChain

section Valid
variable {H : Hashes} {b : AttemptBinding} (hb : b.validate H = .ok ())
include hb

theorem preparedEntry_valid : (preparedEntry b).validate H = .ok () :=
  AttemptEntry.validate_of_parts rfl hb rfl rfl nofun

theorem crossedEntry_valid (crossedAt : ℕ) : (crossedEntry H b crossedAt).validate H = .ok () :=
  AttemptEntry.validate_of_parts rfl hb rfl rfl nofun

theorem closingEntry_valid (how : Closing) : (closingEntry H b how).validate H = .ok () := by
  cases how <;> exact AttemptEntry.validate_of_parts rfl hb rfl rfl nofun

theorem resolutionEntry_valid (crossedAt : ℕ) {how : Resolution} (hv : how.Valid) :
    (resolutionEntry H b crossedAt how).validate H = .ok () := by
  cases how with
  | indeterminate => exact AttemptEntry.validate_of_parts rfl hb rfl rfl nofun
  | succeeded receipt observedAt | failed receipt observedAt =>
    refine AttemptEntry.validate_of_parts rfl hb rfl rfl fun evidence he => ?_
    cases he
    exact if_neg hv

theorem resolutionEntry_invalid (crossedAt : ℕ) {how : Resolution} (hv : ¬ how.Valid) :
    ∃ e, (resolutionEntry H b crossedAt how).validate H = .error e := by
  have hb' : ∀ how, (resolutionEntry H b crossedAt how).binding.validate H = .ok () := fun _ => hb
  cases how with
  | indeterminate => exact absurd trivial hv
  | succeeded receipt observedAt | failed receipt observedAt =>
    have hr : receipt = .zero := not_not.mp hv
    subst hr
    simp only [AttemptEntry.validate, hb']
    exact ⟨_, rfl⟩

end Valid

namespace Attempt
variable {H : Hashes} {a a' : Attempt}

theorem entries_valid (ha : a.Valid H) : ∀ e ∈ a.entries H, e.validate H = .ok () := by
  cases a with
  | idle => simp [entries]
  | prepared b => simpa [entries] using preparedEntry_valid ha
  | dispatched b crossedAt =>
    simpa [entries] using ⟨preparedEntry_valid ha, crossedEntry_valid ha crossedAt⟩
  | closed b how => simpa [entries] using ⟨preparedEntry_valid ha, closingEntry_valid ha how⟩
  | resolved b crossedAt how =>
    simpa [entries] using ⟨preparedEntry_valid ha.1, crossedEntry_valid ha.1 crossedAt,
      resolutionEntry_valid ha.1 crossedAt ha.2⟩

theorem length_entries_lt : (a.entries H).length < attemptJournalMaxEntries := by
  cases a <;> simp [entries, attemptJournalMaxEntries]

theorem checkEntries_entries : checkEntries 0 none ((a.entries H).map (canonical H)) = .ok () := by
  cases a with
  | idle | prepared b => rfl
  | dispatched b crossedAt =>
    simp [entries, checkEntries, canonical, preparedEntry, crossedEntry,
      AttemptEntry.prepared, AttemptEntry.dispatchCrossed, AttemptEntry.successor, isValidTransition]
  | closed b how =>
    cases how <;>
    simp [entries, checkEntries, canonical, preparedEntry, closingEntry, Closing.state,
      AttemptEntry.prepared, AttemptEntry.successor, isValidTransition]
  | resolved b crossedAt how =>
    cases how <;>
    simp [entries, checkEntries, canonical, preparedEntry, crossedEntry, resolutionEntry,
      Resolution.state, AttemptEntry.prepared, AttemptEntry.dispatchCrossed, AttemptEntry.successor, isValidTransition]

theorem reads_readChain (ha : a.Valid H) :
    Reads (readChain H) (a.files H) (.ok ((a.entries H).map (canonical H))) ReadFailed :=
  AttemptJournal.reads_readChain (entries_valid ha) length_entries_lt checkEntries_entries

theorem closing_eq {b b' : AttemptBinding} {how how' : Closing}
    (h : closingEntry H b how = closingEntry H b' how') : how = how' := by
  have hs := congrArg AttemptEntry.state h
  cases how <;> cases how' <;> first | rfl | cases hs

theorem resolution_eq {b b' : AttemptBinding} {crossedAt crossedAt' : ℕ} {how how' : Resolution}
    (h : resolutionEntry H b crossedAt how = resolutionEntry H b' crossedAt' how') : how = how' := by
  have hs := congrArg AttemptEntry.state h
  have he := congrArg AttemptEntry.evidence h
  cases how <;> cases how' <;> first | rfl | (cases hs; done) | (cases he; rfl)

theorem files_injective : Function.Injective (Attempt.files H) := by
  intro a a' h
  have he : a.entries H = a'.entries H := layout_injective h
  cases a <;> cases a' <;>
    simp only [entries, List.cons.injEq, reduceCtorEq, and_true, and_false] at he
  case idle.idle => rfl
  case prepared.prepared => exact congrArg prepared (congrArg AttemptEntry.binding he)
  case dispatched.dispatched =>
    have hb := congrArg AttemptEntry.binding he.1
    have hat := Option.some.inj (congrArg AttemptEntry.crossedAtUnixNs he.2)
    exact congrArg₂ dispatched hb hat
  case dispatched.closed _ _ _ how =>
    have hs := congrArg AttemptEntry.state he.2
    cases how <;> cases hs
  case closed.dispatched _ how _ _ =>
    have hs := congrArg AttemptEntry.state he.2
    cases how <;> cases hs
  case closed.closed => exact congrArg₂ closed (congrArg AttemptEntry.binding he.1) (closing_eq he.2)
  case resolved.resolved =>
    have hb := congrArg AttemptEntry.binding he.1
    have hat := Option.some.inj (congrArg AttemptEntry.crossedAtUnixNs he.2.1)
    rw [resolution_eq he.2.2]
    cases hat
    exact congrArg (resolved · _ _) hb

theorem Next.exists_append (h : a.Next a') : ∃ e, a'.entries H = a.entries H ++ [e] := by
  cases h <;> exact ⟨_, rfl⟩

end Attempt

end Zero.AttemptJournal
