import ZeroStack.Speculation.Runtime

/-! Every admitted job is counted once: the ledger is the sum of what its jobs have been counted for, along every
interleaving, and the end of a turn leaves no job uncounted if no other is admitted meanwhile. -/

open Durable Zero.Kernel List

namespace Zero.Speculation

namespace Entry
variable {V : Type} {e : Entry V}

def Done (e : Entry V) : Prop := e.worker = .stored ∨ e.worker = .ended

def Coherent (e : Entry V) : Prop :=
  match e.state with
  | .pending => e.worker = .spawned ∧ e.counted = []
  | .running => e.worker = .working ∧ e.counted = []
  | .ready => e.Done ∧ e.counted = [] ∧ e.cancelled = false ∧ ∃ value, e.result = some (.ok value)
  | .failed => e.Done ∧ e.counted = [.failed] ∧ ∃ error, e.result = some (.error error)
  | .claimed => e.Done ∧ ∃ c, e.counted = [c]
  | .cancelled => e.Done ∧ ∃ c, e.counted = [c]

def Doomed (e : Entry V) : Prop := e.counted ≠ [] ∨ e.cancelled = true

def account (e : Entry V) : SpeculationLedger := dispatchDelta e.permit + tally (·.delta e.permit) e.counted

def live (e : Entry V) : ℕ := if e.worker = .ended then 0 else 1

structure Change (e : Entry V) (change : Entry V × Option OutcomeClass) : Prop where
  coherent : (change.1.tell change.2).Coherent
  permit : change.1.permit = e.permit
  counted : change.1.counted = e.counted
  cancelled : e.cancelled = true → change.1.cancelled = true
  ended : e.worker = .ended → change.1.worker = .ended
  claimed : e.state = .claimed → change.1.state = .claimed

theorem tell_none (e : Entry V) : e.tell none = e := by
  simp [tell]

theorem Change.unchanged (h : e.Coherent) : Change e (e, none) :=
  ⟨by rwa [tell_none], rfl, rfl, id, id, id⟩

theorem Change.doomed {change : Entry V × Option OutcomeClass} (h : Change e change) (hdoomed : e.Doomed) :
    (change.1.tell change.2).Doomed := by
  rcases hdoomed with hcounted | hcancelled
  · left
    intro hnil
    rw [tell, h.counted] at hnil
    exact hcounted (append_eq_nil_iff.mp hnil).1
  · exact .inr (h.cancelled hcancelled)

theorem Change.account {change : Entry V × Option OutcomeClass} (h : Change e change) :
    (change.1.tell change.2).account = e.account + change.2.elim 0 (·.delta change.1.permit) := by
  have htell : (change.1.tell change.2).account =
      dispatchDelta e.permit + tally (·.delta e.permit) (e.counted ++ change.2.toList) := by
    rw [Entry.account, tell, h.counted, h.permit]
  rw [htell, Entry.account, h.permit]
  cases change.2 with
  | none => simp
  | some c =>
    rw [Option.toList_some, tally_concat, ← add_assoc]
    rfl

theorem start_change (h : e.Coherent) (hworker : e.worker = .spawned) :
    Change e ({ e with state := .running, worker := .working }, none) := by
  have hpending : e.state = .pending ∧ e.counted = [] := by
    unfold Coherent at h
    cases hstate : e.state <;> simp_all [Done]
  refine ⟨?_, rfl, rfl, id, fun hended => ?_, fun hclaimed => ?_⟩
  · rw [tell_none]
    exact ⟨rfl, hpending.2⟩
  · rw [hworker] at hended
    cases hended
  · rw [hpending.1] at hclaimed
    cases hclaimed

theorem store_change (work : Work V) (h : e.Coherent) (hworker : e.worker = .working) : Change e (e.store work) := by
  have hrunning : e.state = .running ∧ e.counted = [] := by
    unfold Coherent at h
    cases hstate : e.state <;> simp_all [Done]
  have hnot : ∀ {p : Prop}, e.worker = .ended → p := fun hended => by
    rw [hworker] at hended
    cases hended
  have hunclaimed : ∀ {p : Prop}, e.state = .claimed → p := fun hclaimed => by
    rw [hrunning.1] at hclaimed
    cases hclaimed
  unfold store
  by_cases hcancelled : e.cancelled = true
  · rw [if_pos hcancelled]
    refine ⟨⟨.inl rfl, .cancelled, ?_⟩, rfl, rfl, id, hnot, hunclaimed⟩
    simp [tell, hrunning.2]
  · rw [if_neg hcancelled]
    cases work.result with
    | ok value =>
      refine ⟨⟨.inl rfl, ?_, ?_, value, rfl⟩, rfl, rfl, id, hnot, hunclaimed⟩
      · simpa [tell] using hrunning.2
      · simpa [tell] using hcancelled
    | error error =>
      refine ⟨⟨.inl rfl, ?_, error, rfl⟩, rfl, rfl, id, hnot, hunclaimed⟩
      simp [tell, hrunning.2]

theorem end_change (h : e.Coherent) (hworker : e.worker = .stored) : Change e ({ e with worker := .ended }, none) := by
  refine ⟨?_, rfl, rfl, id, fun _ => rfl, id⟩
  rw [tell_none]
  unfold Coherent at h ⊢
  cases hstate : e.state <;> simp_all [Done]

theorem cancel_change (h : e.Coherent) (hstate : e.state = .pending ∨ e.state = .running) :
    Change e ({ e with cancelled := true }, none) := by
  refine ⟨?_, rfl, rfl, fun _ => rfl, id, id⟩
  rw [tell_none]
  unfold Coherent at h ⊢
  rcases hstate with hstate | hstate <;> simp_all

theorem endTurn_change (h : e.Coherent) : Change e e.endTurn ∧ (e.endTurn.1.tell e.endTurn.2).Doomed ∧
    e.endTurn.1.worker = e.worker := by
  have hcoherent := h
  have hsame : ∀ c, e.counted = [c] → e.endTurn = (e, none) → Change e e.endTurn ∧
      (e.endTurn.1.tell e.endTurn.2).Doomed ∧ e.endTurn.1.worker = e.worker := by
    intro c hcounted hend
    rw [hend]
    exact ⟨.unchanged hcoherent, .inl (by simp [tell, hcounted]), rfl⟩
  unfold Coherent at h
  cases hstate : e.state with
  | pending | running =>
    have hend : e.endTurn = ({ e with cancelled := true }, none) := by rw [endTurn, hstate]
    rw [hend]
    exact ⟨cancel_change hcoherent (by simp [hstate]), .inr rfl, rfl⟩
  | ready =>
    rw [hstate] at h
    obtain ⟨hdone, hcounted, -, -⟩ := h
    rw [endTurn, hstate]
    refine ⟨⟨⟨hdone, .wasted, ?_⟩, rfl, rfl, fun _ => rfl, id, fun hclaimed => ?_⟩, .inr rfl, rfl⟩
    · simp [tell, hcounted]
    · rw [hstate] at hclaimed
      cases hclaimed
  | claimed | cancelled =>
    rw [hstate] at h
    obtain ⟨-, c, hcounted⟩ := h
    exact hsame c hcounted (by rw [endTurn, hstate])
  | failed =>
    rw [hstate] at h
    obtain ⟨-, hcounted, -⟩ := h
    exact hsame .failed hcounted (by rw [endTurn, hstate])

theorem hand_change {counted : Option OutcomeClass} (hdone : e.Done) (h : ∃ c, e.counted ++ counted.toList = [c]) :
    Change e ({ e with state := .claimed, result := none }, counted) :=
  ⟨⟨hdone, h⟩, rfl, rfl, id, id, fun _ => rfl⟩

theorem live_eq {e' : Entry V} (h : e'.worker = e.worker) : e'.live = e.live := by
  rw [live, live, h]

theorem claim_cases (woken : Bool) (clock : Clock) (h : e.Coherent) : e.claim woken clock = .wait ∨
    (∃ entry error, e.claim woken clock = .refused entry error ∧ Change e (entry, none) ∧ entry.worker = e.worker) ∨
    (∃ entry counted result, e.claim woken clock = .handed entry counted result ∧ Change e (entry, counted) ∧
      entry.worker = e.worker ∧ e.state ≠ .claimed ∧ entry.state = .claimed) := by
  have hcoherent := h
  unfold Coherent at h
  cases hstate : e.state with
  | pending | running =>
    have hexpire := cancel_change hcoherent (by simp [hstate])
    simp only [claim, hstate]
    split_ifs
    · exact .inr (.inl ⟨_, _, rfl, hexpire, rfl⟩)
    · exact .inr (.inl ⟨_, _, rfl, .unchanged hcoherent, rfl⟩)
    · exact .inr (.inl ⟨_, _, rfl, hexpire, rfl⟩)
    · exact .inl rfl
  | ready =>
    rw [hstate] at h
    obtain ⟨hdone, hcounted, -, value, hresult⟩ := h
    have hclaim : e.claim woken clock =
        .handed { e with state := .claimed, result := none } (some .hit) (.ok value) := by
      rw [claim, hstate]
      rw [hresult]
    exact .inr (.inr ⟨_, _, _, hclaim, hand_change hdone ⟨.hit, by simp [hcounted]⟩, rfl, by simp, rfl⟩)
  | failed =>
    rw [hstate] at h
    obtain ⟨hdone, hcounted, error, hresult⟩ := h
    have hclaim : e.claim woken clock = .handed { e with state := .claimed, result := none } none (.error error) := by
      rw [claim, hstate]
      rw [hresult]
    exact .inr (.inr ⟨_, _, _, hclaim, hand_change hdone ⟨.failed, by simp [hcounted]⟩, rfl, by simp, rfl⟩)
  | claimed | cancelled => exact .inr (.inl ⟨_, _, by rw [claim, hstate], .unchanged hcoherent, rfl⟩)

theorem Coherent.counted_once (h : e.Coherent) (hended : e.worker = .ended) (hdoomed : e.Doomed) :
    ∃ c, e.counted = [c] := by
  unfold Coherent at h
  cases hstate : e.state <;> simp_all [Doomed]

theorem Coherent.counted_le (h : e.Coherent) : e.counted = [] ∨ ∃ c, e.counted = [c] := by
  unfold Coherent at h
  cases hstate : e.state <;> simp_all

theorem Coherent.conserves (h : e.Coherent) : Conserves e.account := by
  have hdispatched : Conserves (dispatchDelta e.permit) := ⟨by simp [dispatchDelta], le_rfl, by simp [dispatchDelta],
    by simp [dispatchDelta]⟩
  rcases h.counted_le with hnil | ⟨c, hone⟩
  · rw [account, hnil]
    exact hdispatched
  · rw [account, hone]
    cases c <;> constructor <;> simp [dispatchDelta, OutcomeClass.delta, SpeculationLedger.add_eq]

end Entry

namespace Runtime
variable {ι V : Type} {s s' : Runtime ι V} {job : ℕ} {e : Entry V} {change : Entry V × Option OutcomeClass}

def unfinished (s : Runtime ι V) : ℕ := tally Entry.live s.jobs

def Registered (s : Runtime ι V) (job : ℕ) (e : Entry V) : Prop := e.worker = .ended ∨ job ∈ s.workers

/-- The ledger is the sum of the accounts of the jobs, beside the refused admissions and the missed claims, and no
result has been handed out twice. -/
structure Books (s : Runtime ι V) : Prop where
  coherent : ∀ e ∈ s.jobs, e.Coherent
  ledger : ∃ refused missed, s.ledger =
    (({ ordinaryAdmissions := refused, claimInvariantFailures := missed } : SpeculationLedger) +
      tally Entry.account s.jobs).saturate
  once : (s.handed.map (·.2)).Nodup
  consumed : ∀ h ∈ s.handed, ∃ e, s.jobs[h.2]? = some e ∧ e.state = .claimed

structure Level (s : Runtime ι V) (reserved : ℕ) (unregistered : Option ℕ) : Prop where
  inflight : s.inflight = s.unfinished + reserved
  registered : ∀ (job : ℕ) (e : Entry V), s.jobs[job]? = some e → unregistered ≠ some job → s.Registered job e

structure Capacity (limit : ℕ) (s : Runtime ι V) : Prop where
  limit_eq : s.limit = limit
  bound : s.inflight ≤ limit
  unfinished_le : s.unfinished ≤ s.inflight
  idle : s.entriesLock = none → s.Level 0 none

structure Keeps (s s' : Runtime ι V) : Prop where
  jobs : ∀ (job : ℕ) (e' : Entry V), s'.jobs[job]? = some e' →
    ∃ e, s.jobs[job]? = some e ∧ (e.worker = .ended → e'.worker = .ended) ∧ (e.Doomed → e'.Doomed)
  workers : ∀ job ∈ s.workers, job ∈ s'.workers ∨ ∀ e' : Entry V, s'.jobs[job]? = some e' → e'.worker = .ended
  entries : ∀ key : String, s.entries[key]? = none → s'.entries[key]? = none

structure Steady (s s' : Runtime ι V) : Prop extends Keeps s s' where
  lock : s'.entriesLock = s.entriesLock
  limit_eq : s'.limit = s.limit
  inflight_le : s'.inflight ≤ s.inflight
  spare : ∀ n, s.inflight = s.unfinished + n → s'.inflight = s'.unfinished + n

section Rules

theorem Keeps.of_jobs (hjobs : s'.jobs = s.jobs) (hworkers : s.workers ⊆ s'.workers)
    (hentries : s'.entries = s.entries) : s.Keeps s' := by
  refine ⟨fun job e' he' => ⟨e', ?_, id, id⟩, fun job hjob => .inl (hworkers hjob), fun key hkey => ?_⟩
  · rwa [hjobs] at he'
  · rwa [hentries]

theorem Steady.refl (s : Runtime ι V) : s.Steady s :=
  ⟨.of_jobs rfl (List.Subset.refl _) rfl, rfl, rfl, le_rfl, fun _ => id⟩

theorem Keeps.registered (h : s.Keeps s') {e' : Entry V} (he' : s'.jobs[job]? = some e')
    (hregistered : ∀ e, s.jobs[job]? = some e → s.Registered job e) : s'.Registered job e' := by
  obtain ⟨e, he, hended, -⟩ := h.jobs job e' he'
  rcases hregistered e he with hover | hworker
  · exact .inl (hended hover)
  · rcases h.workers job hworker with hstill | hover
    · exact .inr hstill
    · exact .inl (hover e' he')

theorem Level.steady {reserved : ℕ} {unregistered : Option ℕ} (h : s.Level reserved unregistered) (hs : s.Steady s') :
    s'.Level reserved unregistered := by
  refine ⟨hs.spare reserved h.inflight, fun job e' he' hjob => ?_⟩
  exact hs.registered he' fun e he => h.registered job e he hjob

theorem Capacity.steady {limit : ℕ} (h : s.Capacity limit) (hs : s.Steady s') : s'.Capacity limit := by
  have hspare := hs.spare (s.inflight - s.unfinished) (by have := h.unfinished_le; omega)
  refine ⟨hs.limit_eq.trans h.limit_eq, hs.inflight_le.trans h.bound, by omega, fun hlock => ?_⟩
  rw [hs.lock] at hlock
  exact (h.idle hlock).steady hs

section
variable (hjob : s.jobs[job]? = some e)
include hjob

theorem getElem?_put (k : ℕ) :
    (s.put job change).jobs[k]? = if k = job then some (change.1.tell change.2) else s.jobs[k]? := by
  have hlt : job < s.jobs.length := (List.getElem?_eq_some_iff.mp hjob).1
  show (s.jobs.set job _)[k]? = _
  rw [List.getElem?_set]
  by_cases hk : k = job
  · subst hk
    simp [hlt]
  · rw [if_neg (Ne.symm hk), if_neg hk]

theorem Keeps.put (hchange : e.Change change) : s.Keeps (s.put job change) := by
  refine ⟨fun k e' he' => ?_, fun k hk => .inl hk, fun _ => id⟩
  rw [getElem?_put hjob] at he'
  by_cases hk : k = job
  · rw [if_pos hk] at he'
    cases he'
    subst hk
    exact ⟨e, hjob, hchange.ended, hchange.doomed⟩
  · rw [if_neg hk] at he'
    exact ⟨e', he', id, id⟩

theorem unfinished_put : (s.put job change).unfinished + e.live = s.unfinished + change.1.live :=
  tally_set Entry.live hjob (change.1.tell change.2)

theorem Steady.put (hchange : e.Change change) (hlive : change.1.live = e.live) : s.Steady (s.put job change) := by
  have hunfinished : (s.put job change).unfinished + e.live = s.unfinished + change.1.live := unfinished_put hjob
  refine ⟨.put hjob hchange, rfl, rfl, le_rfl, fun n hn => ?_⟩
  show s.inflight = _
  omega

end

theorem Books.put (h : s.Books) (hjob : s.jobs[job]? = some e) (hchange : e.Change change) :
    (s.put job change).Books := by
  refine ⟨fun e' he' => ?_, ?_, h.once, fun handed hhanded => ?_⟩
  · rcases mem_or_eq_of_mem_set he' with hold | rfl
    · exact h.coherent e' hold
    · exact hchange.coherent
  · obtain ⟨refused, missed, hledger⟩ := h.ledger
    refine ⟨refused, missed, ?_⟩
    have htally : tally Entry.account (s.put job change).jobs = tally Entry.account s.jobs +
        change.2.elim 0 (·.delta change.1.permit) := tally_set_add hjob hchange.account
    rw [htally, ← add_assoc]
    unfold Runtime.put
    cases change.2 with
    | none => simpa using hledger
    | some c =>
      show s.ledger.record _ = _
      rw [hledger, SpeculationLedger.record_saturate]
      rfl
  · obtain ⟨e', he', hclaimed⟩ := h.consumed handed hhanded
    rw [getElem?_put hjob]
    by_cases hk : handed.2 = job
    · rw [hk, hjob] at he'
      cases he'
      exact ⟨_, if_pos hk, hchange.claimed hclaimed⟩
    · exact ⟨e', by rw [if_neg hk, he'], hclaimed⟩

theorem Books.hand (h : s.Books) (i : ι) (hjob : s.jobs[job]? = some e) (hchange : e.Change change)
    (hopen : e.state ≠ .claimed) (hclaimed : change.1.state = .claimed) :
    ({ s.put job change with handed := s.handed ++ [(i, job)] } : Runtime ι V).Books := by
  have hput := h.put hjob hchange
  refine ⟨hput.coherent, hput.ledger, ?_, fun handed hhanded => ?_⟩
  · have hnew : job ∉ s.handed.map (·.2) := by
      intro hmem
      obtain ⟨handed, hhanded, hsame⟩ := mem_map.mp hmem
      obtain ⟨e', he', hconsumed⟩ := h.consumed handed hhanded
      rw [hsame, hjob] at he'
      cases he'
      exact hopen hconsumed
    rw [map_append]
    refine nodup_append.mpr ⟨h.once, nodup_singleton _, fun a ha b hb hab => ?_⟩
    rw [hab, mem_singleton.mp hb] at ha
    exact hnew ha
  · rcases mem_append.mp hhanded with hold | hlast
    · exact hput.consumed handed hold
    · rw [mem_singleton.mp hlast]
      exact ⟨_, (getElem?_put hjob job).trans (if_pos rfl), hclaimed⟩

theorem Books.of_eq (h : s.Books) (hjobs : s'.jobs = s.jobs) (hledger : s'.ledger = s.ledger)
    (hhanded : s'.handed = s.handed) : s'.Books := by
  refine ⟨hjobs ▸ h.coherent, ?_, hhanded ▸ h.once, ?_⟩
  · rw [hjobs, hledger]
    exact h.ledger
  · rw [hjobs, hhanded]
    exact h.consumed

structure Sound (limit : ℕ) (s : Runtime ι V) : Prop where
  books : s.Books
  capacity : s.Capacity limit

def Holds (i : ι) : Phase V → Runtime ι V → Prop
  | .checked _, s => s.entriesLock = some i ∧ s.Level 0 none
  | .refusing, s => s.entriesLock = some i ∧ s.Level 0 none
  | .reserved _, s => s.entriesLock = some i ∧ s.Level 1 none
  | .launched job, s => s.entriesLock = some i ∧ s.Level 0 (some job)
  | _, _ => True

theorem Holds.keep {k : ι} {p : Phase V} (h : Holds k p s) (hs : s.Steady s' ∨ s.entriesLock ≠ some k) :
    Holds k p s' := by
  have hkeep : ∀ reserved unregistered, s.entriesLock = some k ∧ s.Level reserved unregistered →
      s'.entriesLock = some k ∧ s'.Level reserved unregistered := by
    rintro reserved unregistered ⟨hlock, hlevel⟩
    rcases hs with hs | hother
    · exact ⟨hs.lock.trans hlock, hlevel.steady hs⟩
    · exact absurd hlock hother
  cases p with
  | checked key | refusing => exact hkeep 0 none h
  | reserved key => exact hkeep 1 none h
  | launched job => exact hkeep 0 (some job) h
  | _ => trivial

structure Quiet (s : Runtime ι V) : Prop where
  listed : ∀ (job : ℕ) (e : Entry V), s.jobs[job]? = some e → e.Doomed ∨ ∃ key : String, s.entries[key]? = some job
  missed : s.ledger.claimInvariantFailures = 0

def Ending : Phase V → Runtime ι V → Prop
  | .checked key, s => s.entries[key]? = none
  | .reserved key, s => s.entries[key]? = none
  | .missing, _ => False
  | .cancelling rest, s => ∀ (job : ℕ) (e : Entry V), s.jobs[job]? = some e →
      (e.Doomed ∨ job ∈ rest) ∧ s.Registered job e
  | .joining, s => ∀ (job : ℕ) (e : Entry V), s.jobs[job]? = some e → e.Doomed ∧ s.Registered job e
  | .joined, s => ∀ (job : ℕ) (e : Entry V), s.jobs[job]? = some e → e.Doomed ∧ e.worker = .ended
  | .cleared, s => ∀ (job : ℕ) (e : Entry V), s.jobs[job]? = some e → e.Doomed ∧ e.worker = .ended
  | _, _ => True

theorem Ending.keep {p : Phase V} (h : Ending p s) (hs : s.Keeps s') : Ending p s' := by
  have hover : (∀ (job : ℕ) e, s.jobs[job]? = some e → e.Doomed ∧ e.worker = .ended) →
      ∀ (job : ℕ) e, s'.jobs[job]? = some e → e.Doomed ∧ e.worker = .ended := by
    intro hall job e' he'
    obtain ⟨e, he, hended, hdoomed⟩ := hs.jobs job e' he'
    exact ⟨hdoomed (hall job e he).1, hended (hall job e he).2⟩
  cases p with
  | checked key | reserved key => exact hs.entries key h
  | cancelling rest =>
    intro job e' he'
    obtain ⟨e, he, -, hdoomed⟩ := hs.jobs job e' he'
    refine ⟨(h job e he).1.imp_left hdoomed, hs.registered he' fun e₀ he₀ => (h job e₀ he₀).2⟩
  | joining =>
    intro job e' he'
    obtain ⟨e, he, -, hdoomed⟩ := hs.jobs job e' he'
    exact ⟨hdoomed (h job e he).1, hs.registered he' fun e₀ he₀ => (h job e₀ he₀).2⟩
  | joined | cleared => exact hover h
  | missing => exact h
  | _ => trivial

theorem Quiet.keep (h : s.Quiet) (hs : s.Keeps s') (hentries : s'.entries = s.entries)
    (hmissed : s'.ledger.claimInvariantFailures = 0) : s'.Quiet := by
  refine ⟨fun job e' he' => ?_, hmissed⟩
  obtain ⟨e, he, -, hdoomed⟩ := hs.jobs job e' he'
  rw [hentries]
  exact (h.listed job e he).imp_left hdoomed

theorem record_missed {l delta : SpeculationLedger} (hl : l.claimInvariantFailures = 0)
    (hdelta : delta.claimInvariantFailures = 0) : (l.record delta).claimInvariantFailures = 0 := by
  show min (l.claimInvariantFailures + delta.claimInvariantFailures) _ = 0
  rw [hl, hdelta]
  rfl

theorem put_missed (h : s.ledger.claimInvariantFailures = 0) (job : ℕ) (change : Entry V × Option OutcomeClass) :
    (s.put job change).ledger.claimInvariantFailures = 0 := by
  unfold Runtime.put
  cases change.2 with
  | none => exact h
  | some c => exact record_missed h (by cases c <;> rfl)

def Settles (next : Phase V × Runtime ι V) : Prop := next.2.Quiet ∧ Ending next.1 next.2

structure Stepped (limit : ℕ) (i : ι) (fair : Prop) (p : Phase V) (s : Runtime ι V) (next : Phase V × Runtime ι V) :
    Prop where
  sound : next.2.Sound limit
  holds : Holds i next.1 next.2
  others : s.Steady next.2 ∨ ∀ k, k ≠ i → s.entriesLock ≠ some k
  keeps : (∃ key, p = .reserved key) ∨ s.Keeps next.2
  settles : fair → s.Quiet → Ending p s → Settles next

end Rules

section Steps
variable {digest : SpeculationPermit V → String} {limit : ℕ} {i : ι} {fair : Prop} {p p' : Phase V}

theorem Stepped.steady (h : s.Sound limit) (hs : s.Steady s') (hbooks : s'.Books) (hholds : Holds i p' s')
    (hsettles : fair → s.Quiet → Ending p s → Settles (p', s')) : Stepped limit i fair p s (p', s') :=
  ⟨⟨hbooks, h.capacity.steady hs⟩, hholds, .inl hs, .inr hs.toKeeps, hsettles⟩

theorem Stepped.turn (h : s.Sound limit) (hholds : Holds i p' s)
    (hsettles : fair → s.Quiet → Ending p s → Ending p' s) : Stepped limit i fair p s (p', s) :=
  .steady h (.refl s) h.books hholds fun hfair hq he => ⟨hq, hsettles hfair hq he⟩

theorem Stepped.stay (h : s.Sound limit) (hholds : Holds i p s) : Stepped limit i fair p s (p, s) :=
  .turn h hholds fun _ _ he => he

theorem Stepped.inside (hlock : s.entriesLock = some i) (hbooks : s'.Books) (hcapacity : s'.Capacity limit)
    (hholds : Holds i p' s') (hkeeps : (∃ key, p = .reserved key) ∨ s.Keeps s')
    (hsettles : fair → s.Quiet → Ending p s → Settles (p', s')) : Stepped limit i fair p s (p', s') := by
  refine ⟨⟨hbooks, hcapacity⟩, hholds, .inr fun k hk hsome => ?_, hkeeps, hsettles⟩
  rw [hlock] at hsome
  exact hk (Option.some.inj hsome).symm

theorem Books.record (h : s.Books) (hjobs : s'.jobs = s.jobs) (hhanded : s'.handed = s.handed) (refused missed : ℕ)
    (hledger : s'.ledger = s.ledger.record { ordinaryAdmissions := refused, claimInvariantFailures := missed }) :
    s'.Books := by
  refine ⟨hjobs ▸ h.coherent, ?_, hhanded ▸ h.once, ?_⟩
  · obtain ⟨refused', missed', hsum⟩ := h.ledger
    refine ⟨refused' + refused, missed' + missed, ?_⟩
    rw [hledger, hsum, SpeculationLedger.record_saturate, add_right_comm, hjobs]
    rfl
  · rw [hjobs, hhanded]
    exact h.consumed

theorem getElem?_concat {jobs : List (Entry V)} {e e' : Entry V} (h : (jobs ++ [e'])[job]? = some e) :
    jobs[job]? = some e ∨ job = jobs.length := by
  rw [List.getElem?_append, List.getElem?_singleton] at h
  split_ifs at h with hlt hzero
  · exact .inl h
  · right
    omega

variable (permit : SpeculationPermit V)

theorem reserved_quiet {key : String} {permit : SpeculationPermit V} {prepared : Option PreparedCell} (hq : s.Quiet)
    (hkey : s.entries[key]? = none) : (admitInner digest i permit prepared (.reserved key) s).2.Quiet := by
  refine ⟨fun job e he => ?_, record_missed hq.missed rfl⟩
  show e.Doomed ∨ ∃ k, (s.entries.insert key s.jobs.length)[k]? = some job
  rcases getElem?_concat he with hold | hlast
  · rcases hq.listed job e hold with hdoomed | ⟨k, hk⟩
    · exact .inl hdoomed
    · right
      refine ⟨k, ?_⟩
      have hne : key ≠ k := by
        rintro rfl
        rw [hkey] at hk
        cases hk
      rw [Std.TreeMap.getElem?_insert, if_neg (by simpa using hne), hk]
  · right
    refine ⟨key, ?_⟩
    rw [hlast, Std.TreeMap.getElem?_insert_self]

theorem reserved_stepped {permit : SpeculationPermit V} {prepared : Option PreparedCell} {key : String}
    (h : s.Sound limit) (hlock : s.entriesLock = some i) (hlevel : s.Level 1 none) :
    Stepped limit i fair (.reserved key) s (admitInner digest i permit prepared (.reserved key) s) := by
  have hunfinished : tally Entry.live (s.jobs ++ [({ permit } : Entry V)]) = s.unfinished + 1 := tally_concat s.jobs _
  have hquiet : s.Quiet → s.entries[key]? = none → (admitInner digest i permit prepared (.reserved key) s).2.Quiet :=
    reserved_quiet
  have hinflight := hlevel.inflight
  refine .inside hlock ⟨?_, ?_, h.books.once, ?_⟩ ⟨h.capacity.limit_eq, h.capacity.bound, ?_, ?_⟩ ⟨hlock, ?_, ?_⟩
    (.inl ⟨key, rfl⟩) fun _ hq hkey => ⟨hquiet hq hkey, trivial⟩
  · intro e he
    rcases mem_append.mp he with hold | hnew
    · exact h.books.coherent e hold
    · rw [mem_singleton.mp hnew]
      exact ⟨rfl, rfl⟩
  · obtain ⟨refused, missed, hledger⟩ := h.books.ledger
    refine ⟨refused, missed, ?_⟩
    rw [hledger, SpeculationLedger.record_saturate, tally_concat, ← add_assoc]
    have haccount : ({ permit } : Entry V).account = dispatchDelta permit := by
      simp [Entry.account]
    rw [haccount]
  · intro handed hhanded
    obtain ⟨e, he, hclaimed⟩ := h.books.consumed handed hhanded
    have hlt := (List.getElem?_eq_some_iff.mp he).1
    exact ⟨e, by rw [List.getElem?_append_left hlt, he], hclaimed⟩
  · show tally Entry.live (s.jobs ++ [({ permit } : Entry V)]) ≤ s.inflight
    omega
  · intro hnone
    exact nomatch hlock.symm.trans hnone
  · show s.inflight = tally Entry.live (s.jobs ++ [({ permit } : Entry V)]) + 0
    omega
  · intro job e he hjob
    rcases getElem?_concat he with hold | hlast
    · exact hlevel.registered job e hold (by simp)
    · exact absurd (congrArg some hlast.symm) hjob

theorem launched_stepped {job : ℕ} (h : s.Sound limit) (hlock : s.entriesLock = some i)
    (hlevel : s.Level 0 (some job)) :
    Stepped limit i fair (.launched job) s
      (.admitted (.ok .speculated), { s with workers := s.workers ++ [job], entriesLock := none }) := by
  refine .inside hlock (h.books.of_eq rfl rfl rfl) ⟨h.capacity.limit_eq, h.capacity.bound, h.capacity.unfinished_le,
    fun _ => ⟨hlevel.inflight, fun k e he _ => ?_⟩⟩ trivial (.inr (.of_jobs rfl (subset_append_left _ _) rfl))
    fun _ hq _ => ⟨⟨hq.listed, hq.missed⟩, trivial⟩
  by_cases hk : k = job
  · exact .inr (mem_append.mpr (.inr (mem_singleton.mpr hk)))
  · rcases hlevel.registered k e he (fun hsome => hk (Option.some.inj hsome).symm) with hended | hworker
    · exact .inl hended
    · exact .inr (mem_append.mpr (.inl hworker))

theorem admitInner_stepped (prepared : Option PreparedCell) (h : s.Sound limit)
    (hp : Holds i p s) : Stepped limit i fair p s (admitInner digest i permit prepared p s) := by
  cases p with
  | start =>
    unfold admitInner
    cases admissionKey digest permit prepared with
    | error detail => exact .turn h trivial fun _ _ _ => trivial
    | ok key =>
      dsimp only
      cases hlock : s.entriesLock with
      | some k => exact .stay h trivial
      | none =>
        rw [if_neg (by simp)]
        have hidle := h.capacity.idle hlock
        split_ifs with hkey
        · exact .turn h trivial fun _ _ _ => trivial
        · refine ⟨⟨h.books.of_eq rfl rfl rfl, h.capacity.limit_eq, h.capacity.bound, h.capacity.unfinished_le,
            fun hnone => nomatch hnone⟩, ⟨rfl, hidle.inflight, hidle.registered⟩, .inr fun k _ hsome => ?_,
            .inr (.of_jobs rfl (List.Subset.refl _) rfl), fun _ hq _ => ⟨⟨hq.listed, hq.missed⟩, ?_⟩⟩
          · rw [hlock] at hsome
            cases hsome
          · show s.entries[key]? = none
            simpa using hkey
  | checked key =>
    obtain ⟨hlock, hlevel⟩ := hp
    unfold admitInner
    dsimp only
    split_ifs with hroom
    · have hbound : s.inflight + 1 ≤ limit := h.capacity.limit_eq ▸ hroom
      have hinflight := hlevel.inflight
      refine .inside hlock (h.books.of_eq rfl rfl rfl) ⟨h.capacity.limit_eq, hbound, ?_, fun hnone => ?_⟩
        ⟨hlock, ?_, hlevel.registered⟩ (.inr (.of_jobs rfl (List.Subset.refl _) rfl))
        fun _ hq he => ⟨⟨hq.listed, hq.missed⟩, he⟩
      · show s.unfinished ≤ s.inflight + 1
        omega
      · exact nomatch hlock.symm.trans hnone
      · show s.inflight + 1 = s.unfinished + 1
        omega
    · exact .turn h ⟨hlock, hlevel⟩ fun _ _ _ => trivial
  | refusing =>
    obtain ⟨hlock, hlevel⟩ := hp
    refine .inside hlock (h.books.record rfl rfl 1 0 rfl) ⟨h.capacity.limit_eq, h.capacity.bound,
      h.capacity.unfinished_le, fun _ => ⟨hlevel.inflight, hlevel.registered⟩⟩ trivial
      (.inr (.of_jobs rfl (List.Subset.refl _) rfl)) fun _ hq _ => ⟨⟨hq.listed, record_missed hq.missed rfl⟩, trivial⟩
  | reserved key => exact reserved_stepped h hp.1 hp.2
  | launched job =>
    unfold admitInner
    dsimp only
    split_ifs
    · exact .stay h hp
    · exact launched_stepped h hp.1 hp.2
  | _ => exact .stay h hp

theorem Stepped.put {job : ℕ} (h : s.Sound limit) (hjob : s.jobs[job]? = some e) (hchange : e.Change change)
    (hworker : change.1.worker = e.worker) (hholds : Holds i p' (s.put job change))
    (hending : Ending p s → Ending p' (s.put job change)) : Stepped limit i fair p s (p', s.put job change) :=
  .steady h (.put hjob hchange (Entry.live_eq hworker)) (h.books.put hjob hchange) hholds fun _ hq he =>
    ⟨hq.keep (.put hjob hchange) rfl (put_missed hq.missed _ _), hending he⟩

theorem claimEntry_stepped (job : ℕ) (woken : Bool) (clock : Clock) (h : s.Sound limit) (hp : Holds i p s) :
    Stepped limit i fair p s (claimEntry i job woken clock p s) := by
  unfold claimEntry
  cases hjob : s.jobs[job]? with
  | none => exact .stay h hp
  | some e =>
    dsimp only
    have hcoherent : e.Coherent := h.books.coherent e (mem_of_getElem? hjob)
    rcases Entry.claim_cases woken clock hcoherent with hwait | ⟨entry, error, hrefused, hchange, hworker⟩ |
      ⟨entry, counted, result, hhanded, hchange, hworker, hopen, hclaimed⟩
    · rw [hwait]
      exact .turn h trivial fun _ _ _ => trivial
    · rw [hrefused]
      exact .put h hjob hchange hworker trivial fun _ => trivial
    · rw [hhanded]
      have hsteady : s.Steady (s.put job (entry, counted)) := .put hjob hchange (Entry.live_eq hworker)
      refine .steady h ⟨⟨hsteady.jobs, hsteady.workers, hsteady.entries⟩, rfl, rfl, le_rfl, hsteady.spare⟩
        (h.books.hand i hjob hchange hopen hclaimed) trivial fun _ hq _ => ⟨?_, trivial⟩
      have hput : (s.put job (entry, counted)).Quiet := hq.keep hsteady.toKeeps rfl (put_missed hq.missed _ _)
      exact ⟨hput.listed, hput.missed⟩

theorem claim_stepped (clock : Clock) (h : s.Sound limit) (hp : Holds i p s)
    (hfound : fair → p = .start → ∀ key, permit.claimKey digest = .ok key →
      s.entriesLock.isSome ∨ s.entries.contains key) : Stepped limit i fair p s (claim digest i permit clock p s) := by
  cases p with
  | start =>
    unfold claim
    cases hkey : permit.claimKey digest with
    | error detail => exact .turn h trivial fun _ _ _ => trivial
    | ok key =>
      dsimp only
      split_ifs with hlock
      · exact .stay h trivial
      · cases hjob : s.entries[key]? with
        | none =>
          refine .turn h trivial fun hfair _ _ => ?_
          have hthere : s.entries.contains key := (hfound hfair rfl key hkey).resolve_left hlock
          rw [Std.TreeMap.contains_eq_isSome_getElem?, hjob] at hthere
          cases hthere
        | some job => exact .turn h trivial fun _ _ _ => trivial
  | missing =>
    exact .steady h ⟨.of_jobs rfl (List.Subset.refl _) rfl, rfl, rfl, le_rfl, fun _ => id⟩
      (h.books.record rfl rfl 0 1 rfl) trivial fun _ _ he => he.elim
  | found job => exact claimEntry_stepped job false clock h hp
  | waiting job => exact claimEntry_stepped job true clock h hp
  | _ => exact .stay h hp

theorem cancelling_ending {job : ℕ} {rest : List ℕ} {e : Entry V} (h : s.Sound limit) (hjob : s.jobs[job]? = some e)
    (he : Ending (.cancelling (job :: rest)) s) : Ending (.cancelling rest) (s.put job e.endTurn) := by
  obtain ⟨hchange, hdoomed, -⟩ := Entry.endTurn_change (h.books.coherent e (mem_of_getElem? hjob))
  have hkept : Ending (.cancelling (job :: rest)) (s.put job e.endTurn) := he.keep (.put hjob hchange)
  intro k e' he'
  refine ⟨?_, (hkept k e' he').2⟩
  by_cases hk : k = job
  · rw [getElem?_put hjob, if_pos hk] at he'
    cases he'
    exact .inl hdoomed
  · rcases (hkept k e' he').1 with hdone | hmem
    · exact .inl hdone
    · exact .inr ((mem_cons.mp hmem).resolve_left hk)

theorem endTurn_stepped (h : s.Sound limit) (hp : Holds i p s) : Stepped limit i fair p s (endTurn i p s) := by
  cases p with
  | start =>
    unfold endTurn
    dsimp only
    split_ifs with hlock
    · exact .stay h trivial
    · refine .turn h trivial fun _ hq _ job e hjob => ⟨(hq.listed job e hjob).imp_right ?_, ?_⟩
      · rintro ⟨key, hkey⟩
        exact mem_map.mpr ⟨(key, job), Std.TreeMap.mem_toList_iff_getElem?_eq_some.mpr hkey, rfl⟩
      · exact (h.capacity.idle (by simpa using hlock)).registered job e hjob (by simp)
  | cancelling rest =>
    cases rest with
    | nil =>
      unfold endTurn
      dsimp only
      split_ifs
      · exact .stay h trivial
      · refine .steady h ⟨.of_jobs rfl (List.Subset.refl _) rfl, rfl, rfl, le_rfl, fun _ => id⟩
          (h.books.of_eq rfl rfl rfl)
          trivial fun _ hq he => ⟨⟨hq.listed, hq.missed⟩, fun job e hjob => ?_⟩
        obtain ⟨hdoomed, hregistered⟩ := he job e hjob
        exact ⟨hdoomed.resolve_right (by simp), hregistered⟩
    | cons job rest =>
      unfold endTurn
      dsimp only
      cases hjob : s.jobs[job]? with
      | none =>
        refine .turn h trivial fun _ _ he k e hk => ⟨?_, (he k e hk).2⟩
        refine (he k e hk).1.imp_right fun hmem => (mem_cons.mp hmem).resolve_left ?_
        rintro rfl
        rw [hjob] at hk
        cases hk
      | some e =>
        obtain ⟨hchange, -, hworker⟩ := Entry.endTurn_change (h.books.coherent e (mem_of_getElem? hjob))
        exact .put h hjob hchange hworker trivial (cancelling_ending h hjob)
  | joining =>
    unfold endTurn
    cases hworkers : s.workers with
    | nil =>
      have hworkers' : s.workers ⊆ [] := by rw [hworkers]; exact List.Subset.refl _
      refine .steady h ⟨.of_jobs rfl hworkers' rfl, rfl, rfl, le_rfl, fun _ => id⟩ (h.books.of_eq rfl rfl rfl) trivial
        fun _ hq he => ⟨⟨hq.listed, hq.missed⟩, fun job e hjob => ?_⟩
      obtain ⟨hdoomed, hregistered⟩ := he job e hjob
      exact ⟨hdoomed, hregistered.resolve_right (by simp [hworkers])⟩
    | cons job rest =>
      dsimp only
      split_ifs with hended
      · have hkeeps : s.Keeps { s with workers := rest } := by
          refine ⟨fun k e he => ⟨e, he, id, id⟩, fun k hk => ?_, fun _ => id⟩
          rw [hworkers] at hk
          rcases mem_cons.mp hk with rfl | hrest
          · right
            intro e he
            rw [show s.jobs[k]? = some e from he] at hended
            simpa using hended
          · exact .inl hrest
        exact .steady h ⟨hkeeps, rfl, rfl, le_rfl, fun _ => id⟩ (h.books.of_eq rfl rfl rfl) trivial
          fun _ hq he => ⟨⟨hq.listed, hq.missed⟩, Ending.keep (p := .joining) he hkeeps⟩
      · exact .stay h trivial
  | joined =>
    unfold endTurn
    dsimp only
    split_ifs
    · exact .stay h trivial
    · have hkeeps : s.Keeps { s with entries := ∅ } :=
        ⟨fun k e he => ⟨e, he, id, id⟩, fun k hk => .inl hk, fun key _ => Std.TreeMap.getElem?_emptyc⟩
      exact .steady h ⟨hkeeps, rfl, rfl, le_rfl, fun _ => id⟩ (h.books.of_eq rfl rfl rfl) trivial
        fun _ hq he => ⟨⟨fun job e hjob => .inl (he job e hjob).1, hq.missed⟩, he⟩
  | cleared => exact .turn h trivial fun _ _ _ => trivial
  | _ => exact .stay h hp

theorem workerStep_steady (job : ℕ) (work : Work V) (h : s.Sound limit) :
    s.Steady (workerStep job work s) ∧ (workerStep job work s).Books ∧ (s.Quiet → (workerStep job work s).Quiet) := by
  unfold workerStep
  cases hjob : s.jobs[job]? with
  | none => exact ⟨.refl s, h.books, id⟩
  | some e =>
    have hcoherent : e.Coherent := h.books.coherent e (mem_of_getElem? hjob)
    -- The entry is changed, and its job is in flight as before.
    have hput : ∀ {change : Entry V × Option OutcomeClass}, e.Change change → change.1.live = e.live →
        s.Steady (s.put job change) ∧ (s.put job change).Books ∧ (s.Quiet → (s.put job change).Quiet) :=
      fun hchange hlive => ⟨.put hjob hchange hlive, h.books.put hjob hchange,
        fun hq => hq.keep (.put hjob hchange) rfl (put_missed hq.missed _ _)⟩
    dsimp only
    cases hworker : e.worker with
    | spawned => exact hput (Entry.start_change hcoherent hworker) (by simp [Entry.live, hworker])
    | working =>
      refine hput (Entry.store_change work hcoherent hworker) ?_
      unfold Entry.store
      split_ifs
      · simp [Entry.live, hworker]
      · cases work.result <;> simp [Entry.live, hworker]
    | stored =>
      have hchange := Entry.end_change hcoherent hworker
      have hkeeps := Keeps.put hjob hchange
      -- The job leaves the count together with the jobs in flight.
      have hunfinished : (s.put job ({ e with worker := .ended }, none)).unfinished + e.live =
          s.unfinished + ({ e with worker := .ended }).live := unfinished_put hjob
      have hlive : e.live = 1 ∧ ({ e with worker := .ended }).live = 0 := by simp [Entry.live, hworker]
      refine ⟨⟨⟨hkeeps.jobs, hkeeps.workers, hkeeps.entries⟩, rfl, rfl, Nat.sub_le _ _, fun n hn => ?_⟩,
        (h.books.put hjob hchange).of_eq rfl rfl rfl, fun hq => ?_⟩
      · show s.inflight - 1 = (s.put job ({ e with worker := .ended }, none)).unfinished + n
        omega
      · have hquiet := hq.keep hkeeps rfl (put_missed hq.missed _ _)
        exact ⟨hquiet.listed, hquiet.missed⟩
    | ended => exact ⟨.refl s, h.books, id⟩

end Steps
end Runtime
end Zero.Speculation
