import ZeroStack.Kernel.Cell
import ZeroStack.Kernel.Revocation

/-! While the guest's code runs, its cell can be taken back: the stored record of the cell, if
there is one, leads to the files with which the cell began. -/

open Durable

namespace Zero.Kernel
variable {L : Layout} {fault : Prop} {f : Focus} {s : World} {α : Type} {Q : α → World → Prop}

def Idle (k : RecordKey) (s : World) : Prop := s.journal.slot k = none ∨ Filed k s

structure Recovers (L : Layout) (f : Focus) (s : World) : Prop where
  sound : f.Holds L s
  idle : Idle f.key s
  files : s.journal.slot f.key = none → s.files = f.files

/-- No restore fails, without `fault` no publication of a record does, and a failed effect
that is cancelled has spared its file. -/
def Steady (L : Layout) (fault : Prop) (c : KernelChoice) (o : KernelOp) (s : World) : Prop :=
  (¬ fault → c.persist = none) ∧ Spares L c o s ∧ c.restore = none

abbrev Hosting (L : Layout) (fault : Prop) (f : Focus) (Q : α → World → Prop) (p : KernelProgram α)
    (s : World) : Prop := (kernel L).Safe (Steady L fault) (fun _ t => Recovers L f t) Q p s

theorem Sound.holds (h : Sound L (some f) s) : f.Holds L s := h f rfl

theorem Focus.Holds.sound (h : f.Holds L s) : Sound L (some f) s := by
  rintro g ⟨rfl⟩
  exact h

theorem Recovers.filed (h : f.Holds L s) (hf : Filed f.key s) : Recovers L f s := by
  refine ⟨h, .inr hf, fun hnone => ?_⟩
  obtain ⟨r, hr, -⟩ := hf
  rw [hr] at hnone
  cases hnone

theorem hosting_of {Q' : α → World → Prop} {p : KernelProgram α} (h : Runs L fault (some f) Q p s)
    (h' : Revokes L f.key Q' p s) : Hosting L fault f (fun a t => Q a t ∧ Q' a t) p s := by
  refine (h.and h').mono (fun c o s hc => ?_) (fun s t hst => ?_) fun _ _ hq => hq
  · exact ⟨⟨hc.1, fun _ => hc.2.1⟩, hc.2.2⟩
  · exact .filed hst.1.2.holds hst.2

section Begin

theorem begunRecord_revocable (c : EngineCallContext) : Revocable c.key.session (begunRecord c) := by
  refine ⟨rfl, ?_, ?_⟩
  · exact nofun
  · exact nofun

structure Opens (c : EngineCallContext) (s : World) (out : Except TransactionError Transaction)
    (t : World) : Prop where
  files : t.files = s.files
  idle : Idle c.key t
  opened : ∀ tx, out = .ok tx → tx.context = c ∧ Reverts tx ∧ Filed c.key t

variable {c : EngineCallContext}

theorem Opens.refused {e : TransactionError} {t : World}
    (hf : t.files = s.files) (hi : Idle c.key t) : Opens c s (.error e) t :=
  ⟨hf, hi, nofun⟩

theorem Opens.begun {r : TransactionRecord} {t : World}
    (hf : t.files = s.files) (hr : Revocable c.key.session r) (ht : Filed c.key t) :
    Opens c s (.ok ⟨c, r, false⟩) t := by
  refine ⟨hf, .inr ht, fun tx he => ?_⟩
  cases he
  exact ⟨rfl, ⟨hr, nofun⟩, ht⟩

theorem opens_beginExisting {s' : World} (hf : s'.files = s.files) (h : Idle c.key s') :
    (kernel L).Safe Restoring (fun _ t => t.files = s.files ∧ Idle c.key t) (Opens c s) (beginExisting L c) s' := by
  have hkeep : ∀ e, Opens c s (.error e) s' := fun _ => .refused hf h
  refine safe_loadRecord ⟨hf, h⟩ (fun _ _ _ _ => hkeep _) (fun _ _ _ _ => hkeep _) (fun _ => hkeep _) fun e he => ?_
  rcases e with r | e | _
  · dsimp only
    split_ifs
    · -- the stored record is the revocable one
      rcases h with hnone | ⟨r', hr', hrev⟩
      · rw [he] at hnone
        cases hnone
      · have hsame := he.symm.trans hr'
        cases hsame
        exact .begun hf hrev ⟨r, hr', hrev⟩
    · exact hkeep _
  · exact hkeep _
  · exact hkeep _

theorem opens_beginNew {s' : World} (hf : s'.files = s.files) (h : Idle c.key s') :
    (kernel L).Safe Restoring (fun _ t => t.files = s.files ∧ Idle c.key t) (Opens c s) (beginNew L c) s' := by
  have hput : Filed c.key (s'.putRecord c.key (begunRecord c)) := .putRecord (begunRecord_revocable c)
  exact safe_persistRecord ⟨⟨hf, .inr hput⟩, .begun hf (begunRecord_revocable c) hput⟩
    (fun _ _ _ _ _ => ⟨⟨hf, h⟩, .refused hf h⟩) fun _ _ _ _ _ => ⟨⟨hf, .inr hput⟩, .refused hf (.inr hput)⟩

theorem opens_begin (h : Idle c.key s) :
    (kernel L).Safe Restoring (fun _ t => t.files = s.files ∧ Idle c.key t) (Opens c s) (begin L c) s := by
  refine safe_lease ⟨rfl, h⟩ ⟨rfl, h⟩ (fun _ _ => .refused rfl h) fun _ => ?_
  have hbody : (kernel L).Safe Restoring (fun _ t => t.files = s.files ∧ Idle c.key t) (Opens c s)
      (beginLeased L c) { s with leased := true } := by
    refine safe_recordExists ⟨rfl, h⟩ ?_
    split_ifs
    · exact opens_beginExisting rfl h
    · exact opens_beginNew rfl h
  refine hbody.bind fun out t hout => ?_
  cases out with
  | ok tx => exact hout
  | error e => exact safe_release ⟨hout.files, hout.idle⟩ (.refused hout.files hout.idle)

end Begin

structure Bound (f : Focus) (cell : Cell) : Prop where
  key : cell.invocation.key = f.key
  root : cell.state.root = f.root
  trace : cell.operations = []

structure Attends (L : Layout) (fault : Prop) (f : Focus) (cell : Cell) (s : World) : Prop where
  recovers : Recovers L f s
  idle : cell.transaction = none → s.files = f.files
  held : ∀ tx, cell.transaction = some tx → (∃ st, Held L fault (some f) tx st s) ∧ Reverts tx

structure Hosts (L : Layout) (fault : Prop) (f : Focus) (cell : Cell) (s : World) : Prop
    extends Bound f cell, Attends L fault f cell s

variable {tx : Transaction}

namespace Attends
variable {cell : Cell}

theorem take {st : TransactionRecord} (ht : cell.transaction = some tx)
    (hheld : Held L fault (some f) tx st s) (hrev : Reverts tx) (hfiled : Filed f.key s) :
    Attends L fault f cell s := by
  refine ⟨.filed hheld.sound.holds hfiled, fun hnone => ?_, fun tx' htx' => ?_⟩
  · rw [ht] at hnone
    cases hnone
  · rw [ht] at htx'
    cases htx'
    exact ⟨⟨st, hheld⟩, hrev⟩

theorem leave (ht : cell.transaction = none) (hrec : Recovers L f s) (hfiles : s.files = f.files) :
    Attends L fault f cell s := by
  refine ⟨hrec, fun _ => hfiles, fun tx htx => ?_⟩
  rw [ht] at htx
  cases htx

theorem filed (h : Attends L fault f cell s) (ht : cell.transaction = some tx) : Filed f.key s := by
  obtain ⟨⟨st, hheld⟩, -⟩ := h.held tx ht
  rcases h.recovers.idle with hnone | hfiled
  · have hstored := hheld.stored
    rw [hheld.key f rfl, hnone] at hstored
    cases hstored
  · exact hfiled

end Attends

namespace Hosts
variable {cell : Cell}

theorem begins (h : Hosts L fault f cell s) (ht : cell.transaction = none) :
    Hosting L fault f (fun out t => Begins L fault (some f) cell.invocation s out t ∧
      Opens cell.invocation s out t) (begin L cell.invocation) s := by
  have hfiles := h.idle ht
  have hidle : Idle cell.invocation.key s := h.key ▸ h.recovers.idle
  have hruns : Runs L fault (some f) (Begins L fault (some f) cell.invocation s)
      (begin L cell.invocation) s := by
    apply runs_begin h.recovers.sound.sound
    rintro g ⟨rfl⟩
    exact ⟨h.key, fun _ => hfiles⟩
  refine (hruns.and (opens_begin hidle)).mono (fun c o s hc => ?_) (fun u t hst => ?_) fun _ _ hq => hq
  · exact ⟨⟨hc.1, fun _ => hc.2.1⟩, hc.2.2⟩
  · obtain ⟨⟨-, hsound⟩, hsame, hstill⟩ := hst
    rw [h.key] at hstill
    exact ⟨hsound.holds, hstill, fun _ => hsame.trans hfiles⟩

end Hosts

section Traversal
variable {C : KernelChoice → KernelOp → World → Prop} {G : World → World → Prop} {I : Cell → World → Prop}

def GuestCall.onFiles : GuestCall → Bool
  | .file _ | .effect _ => true
  | .stateSet .. | .stateDelete _ | .replaceState _ => false

structure CellRule (L : Layout) (C : KernelChoice → KernelOp → World → Prop) (G : World → World → Prop)
    (I : Cell → World → Prop) : Prop where
  begins : ∀ {cell s}, I cell s → cell.transaction = none → (kernel L).Safe C G
    (fun out t => I (cell.withTransaction out.toOption) t) (begin L cell.invocation) s
  applies : ∀ {cell tx s}, I cell s → cell.transaction = some tx → ∀ request, (kernel L).Safe C G
    (fun out t => I (cell.withTransaction (some out.1)) t) (apply L tx request) s
  rolls : ∀ {cell tx s}, I cell s → cell.transaction = some tx →
    (kernel L).Safe C G (fun _ t => I (cell.withTransaction none) t) (rollback L tx) s
  handles : ∀ {cell s}, I cell s → ∀ handles, I (cell.pushHandles handles) s

theorem Cell.withTransaction_eq {cell : Cell} {tx : Option Transaction} (h : cell.transaction = tx) :
    cell.withTransaction tx = cell := by
  subst h
  rfl

namespace CellRule
variable (K : CellRule L C G I) {cell : Cell}
include K

theorem applyHeld {tx : Transaction} (h : I (cell.withTransaction (some tx)) s) (request : FileEffectRequest) :
    (kernel L).Safe C G (fun out t => I out.1 t) (applyHeld L cell tx request) s := by
  refine (K.applies h rfl request).bind fun ⟨tx', result⟩ t ht => ?_
  cases result with
  | error e => exact ht
  | ok receipt => exact K.handles ht _

variable (h : I cell s)
include h

theorem applyFileEffect (request : FileEffectRequest) :
    (kernel L).Safe C G (fun out t => I out.1 t) (applyFileEffect L cell request) s := by
  unfold Kernel.applyFileEffect
  cases ht : cell.transaction with
  | some tx =>
    rw [← Cell.withTransaction_eq ht] at h
    exact K.applyHeld h request
  | none =>
    refine (K.begins h ht).bind fun out t hout => ?_
    cases out with
    | error e => exact Cell.withTransaction_eq ht ▸ hout
    | ok tx => exact K.applyHeld hout request

theorem applyFileEffects (requests : List FileEffectRequest) :
    (kernel L).Safe C G (fun out t => I out.1 t) (applyFileEffects L cell requests) s := by
  induction requests generalizing cell s with
  | nil => exact h
  | cons request requests ih =>
    refine (K.applyFileEffect h request).bind fun ⟨cell', result⟩ t ht => ?_
    cases result with
    | error e => exact ht
    | ok receipt =>
      refine (ih ht).bind fun ⟨cell'', results⟩ u hu => ?_
      cases results with
      | error e | ok receipts => exact hu

theorem rollbackTransaction : (kernel L).Safe C G (fun out t => I out.1 t) (rollbackTransaction L cell) s := by
  unfold Kernel.rollbackTransaction
  cases ht : cell.transaction with
  | none => exact h
  | some tx =>
    refine (K.rolls h ht).bind fun result t hout => ?_
    cases result with
    | error e | ok u => exact hout

theorem effect (planned : List FileEffectRequest) :
    (kernel L).Safe C G (fun out t => I out.1 t) (effect L cell planned) s := by
  unfold Kernel.effect
  split_ifs with hsome
  · exact h
  · have ht : cell.transaction = none := by simpa using hsome
    have hbegin : (kernel L).Safe C G (fun out t => I out.1 t) (beginTransaction L cell) s := by
      unfold beginTransaction
      rw [ht]
      refine (K.begins h ht).bind fun out t hout => ?_
      cases out with
      | error e => exact Cell.withTransaction_eq ht ▸ hout
      | ok tx => exact hout
    refine hbegin.bind fun ⟨cell', begun⟩ t hcell => ?_
    cases begun with
    | error e => exact hcell
    | ok u =>
      refine (K.applyFileEffects hcell planned).bind fun ⟨cell'', applied⟩ v hcell' => ?_
      cases applied with
      | ok receipts => exact hcell'
      | error e =>
        refine (K.rollbackTransaction hcell').bind fun ⟨_, rolled⟩ z hcell'' => ?_
        cases rolled with
        | error e' | ok u' => exact hcell''

theorem guestCalls (calls : List GuestCall) (hstate : ∀ call ∈ calls, call.onFiles = false → ∀ cell s, I cell s →
      (kernel L).Safe C G I (guestCall L cell call) s) : (kernel L).Safe C G I (guestCalls L cell calls) s := by
  induction calls generalizing cell s with
  | nil => exact h
  | cons call calls ih =>
    obtain ⟨hcall, hcalls⟩ := List.forall_mem_cons.mp hstate
    have hone : (kernel L).Safe C G I (guestCall L cell call) s := by
      cases call with
      | file request => exact (K.applyFileEffect h request).bind fun _ _ ht => ht
      | effect planned => exact (K.effect h planned).bind fun _ _ ht => ht
      | stateSet key value | stateDelete key | replaceState values => exact hcall rfl cell s h
    exact hone.bind fun cell' t ht => ih ht hcalls

end CellRule
end Traversal

section Calls
variable {cell : Cell}

theorem hosting_rollback {st : TransactionRecord}
    (hheld : Held L fault (some f) tx st s) (hrev : Reverts tx) (hfiled : Filed f.key s) :
    Hosting L fault f (fun _ t => Recovers L f t ∧ t.files = f.files) (rollback L tx) s := by
  have hkey : tx.key = f.key := hheld.key f rfl
  have honly : Revokes L f.key (fun out t => Reverting tx out t ∧ out.1.record.state = .rolledBack)
      (rollbackOnly L tx) s := by
    rw [← hkey] at hfiled ⊢
    exact revokes_rollbackOnly hfiled hrev
  refine (hosting_of (runs_rollbackOnly hheld) honly).bind fun ⟨tx', result⟩ t hout => ?_
  obtain ⟨⟨⟨hcontext, st', hheld'⟩, -⟩, hreverting, hrolled⟩ := hout
  have hkey' : tx'.key = f.key := hheld'.key f rfl
  have hdrop : Revokes L f.key (fun _ t => Filed f.key t) (drop L tx') t := by
    have hfiled' := hreverting.filed
    rw [hkey] at hfiled'
    rw [← hkey'] at hfiled' ⊢
    exact revokes_drop hfiled' hreverting.reverts
  refine (hosting_of (runs_drop hheld') hdrop).bind fun _ u ⟨hdrops, hfiled''⟩ => ?_
  exact ⟨.filed hdrops.sound.holds hfiled'', hdrops.undone hrolled f rfl⟩

theorem hosts_rule : CellRule L (Steady L fault) (fun _ t => Recovers L f t) (Hosts L fault f) where
  begins {cell s} h ht := by
    refine (h.begins ht).post fun out t ⟨hbegins, hopens⟩ => ?_
    cases out with
    | error e =>
      have hfiles : t.files = f.files := hopens.files.trans (h.idle ht)
      have hrec : Recovers L f t := ⟨hbegins.sound.holds, h.key ▸ hopens.idle, fun _ => hfiles⟩
      exact ⟨⟨h.key, h.root, h.trace⟩, .leave rfl hrec hfiles⟩
    | ok tx =>
      obtain ⟨-, -, st, hheld⟩ := hbegins.held tx rfl
      obtain ⟨-, hrev, hfiled⟩ := hopens.opened tx rfl
      exact ⟨⟨h.key, h.root, h.trace⟩, .take rfl hheld hrev (h.key ▸ hfiled)⟩
  applies {cell tx s} h ht request := by
    obtain ⟨⟨st, hheld⟩, hrev⟩ := h.held tx ht
    have hkey : tx.key = f.key := hheld.key f rfl
    have hwalk : Revokes L f.key (Reverting tx) (apply L tx request) s := by
      have hfiled := h.filed ht
      rw [← hkey] at hfiled ⊢
      exact revokes_apply hfiled hrev
    refine (hosting_of (runs_apply hheld) hwalk).post fun ⟨tx', result⟩ t ⟨⟨_, st', hheld'⟩, hout⟩ => ?_
    have hfiled' : Filed f.key t := hkey ▸ hout.filed
    exact ⟨⟨h.key, h.root, h.trace⟩, .take rfl hheld' hout.reverts hfiled'⟩
  rolls {cell tx s} h ht := by
    obtain ⟨⟨st, hheld⟩, hrev⟩ := h.held tx ht
    refine (hosting_rollback hheld hrev (h.filed ht)).post fun _ t hout => ?_
    exact ⟨⟨h.key, h.root, h.trace⟩, .leave rfl hout.1 hout.2⟩
  handles h _ := ⟨⟨h.key, h.root, h.trace⟩, h.recovers, h.idle, h.held⟩

theorem hosting_guestCalls (h : Hosts L fault f cell s) (calls : List GuestCall) :
    Hosting L fault f (fun cell' t => Hosts L fault f cell' t) (guestCalls L cell calls) s := by
  refine hosts_rule.guestCalls h calls fun call _ hstate cell s h => ?_
  cases call with
  | file request | effect planned => cases hstate
  | stateSet key value | stateDelete key | replaceState values =>
    exact ⟨⟨h.key, h.root, h.trace⟩, h.recovers, h.idle, h.held⟩

end Calls
end Zero.Kernel
