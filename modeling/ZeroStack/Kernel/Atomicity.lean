import ZeroStack.Kernel.Runs

/-! A transaction that ends rolled back has put every file back, unless `apply` drops the preparation of a failed
effect that had overwritten its file, because the cancellation was set by then. -/

open Durable

namespace Zero.Kernel

/-- The calls of one transaction: `begin` is for this record, and where it creates the record
it finds the files of the start. -/
def OneTransaction (k : RecordKey) (files : FileTree) (call : TransactionCall)
    (c : Config (Option Transaction) World) : Prop :=
  ∀ context, call = .begin context → context.key = k ∧ (c.disk.journal.slot k = none → c.disk.files = files)

def OthersSettled (k : RecordKey) (s : World) : Prop :=
  ∀ j, j ≠ k → ∀ r, s.journal.slot j = some (.record r) → r.state = .committed ∨ r.state = .rolledBack

section Runs
variable {L : Layout} {k : RecordKey} {w : World}

def startOf (k : RecordKey) (settled : RecordKey → Prop) (w : World) : Focus :=
  ⟨k, w.files, w.stateRoot, settled⟩

theorem holds_startOf {settled : RecordKey → Prop} (hnew : w.journal.slot k = none)
    (hothers : ∀ j, settled j → j ≠ k → ∀ r, w.journal.slot j = some (.record r) →
      r.state = .committed ∨ r.state = .rolledBack) : (startOf k settled w).Holds L w := by
  refine ⟨rfl, fun r hr => ?_, hothers⟩
  rw [show w.journal.slot (startOf k settled w).key = none from hnew] at hr
  cases hr

theorem sound_startOf (hnew : w.journal.slot k = none) (hothers : OthersSettled k w) :
    Sound L (some (startOf k (fun _ => True) w)) w := by
  rintro f ⟨rfl⟩
  exact holds_startOf hnew fun j _ => hothers j

theorem meets_startOf {is : List TransactionInvocation} {c : Config (Option Transaction) World}
    (h : (transactionSystem L).Meets (kernel L) (OneTransaction k w.files) (Spares L) is c) :
    (transactionSystem L).Meets (kernel L) (Focused (some (startOf k (fun _ => True) w)))
      (Allowed L True (some (startOf k (fun _ => True) w))) is c := by
  refine h.mono (fun call c hcall => ?_) fun c o s hspares => ⟨fun h => absurd trivial h, fun _ => hspares⟩
  constructor
  · rintro f ⟨rfl⟩ context hcontext
    exact hcall context hcontext
  · rintro f ⟨rfl⟩ context _ j _
    trivial

end Runs

/-- Where the cancellation never makes `apply` forget an overwritten file, a record that is
stored or held as rolled back stands for files that are as they were when it was begun, at
every step of every run. -/
theorem rolledBack_restores (L : Layout) (k : RecordKey) (w : World)
    (hnew : w.journal.slot k = none) (hothers : OthersSettled k w) (is : List TransactionInvocation)
    (hm : (transactionSystem L).Meets (kernel L) (OneTransaction k w.files) (Spares L) is ⟨none, w⟩) :
    (∀ t ∈ w :: (transactionSystem L).history (kernel L) is ⟨none, w⟩, ∀ r,
      t.journal.slot k = some (.record r) → r.state = .rolledBack → t.files = w.files) ∧
    ∀ tx, ((transactionSystem L).play (kernel L) is ⟨none, w⟩).memory = some tx → tx.record.state = .rolledBack →
        ((transactionSystem L).play (kernel L) is ⟨none, w⟩).disk.files = w.files := by
  have hinv := transaction_invariant L True (some (startOf k (fun _ => True) w))
  have hstart : Kept L True (some (startOf k (fun _ => True) w)) ⟨none, w⟩ := sound_startOf hnew hothers
  have hmeets := meets_startOf hm
  constructor
  · intro t ht r hr hrolled
    have hsound := (hinv.history (fun _ => step_reboot) is hstart hmeets).2 t ht
    exact ((hsound _ rfl).fits r hr).undone hrolled
  · intro tx hmem hrolled
    have hkept := hinv.play is hstart hmeets
    unfold Kept at hkept
    rw [hmem] at hkept
    obtain ⟨st, hheld⟩ := hkept
    exact (hheld.fits _ rfl).undone hrolled

section Sample

def sampleLayout : Layout :=
  ⟨fun k => k.cell, id, fun _ => "z://state", fun root => root.getD "empty", fun digest => digest⟩

def sampleContext : EngineCallContext := ⟨"session", "cell-1", "session-cell-1"⟩

def sampleRequest : FileEffectRequest := ⟨.edit, "a.txt", some [], none, none, false⟩

def sampleWorld : World where
  files := fun path => if path = "a.txt" then some "old" else none
  journal := .empty
  poisoned := fun _ => none
  leased := false
  stateRoot := none
  events := []

def smooth : KernelChoice where
  lease := none
  read := none
  apply := .succeed (some "new") "a.txt" "z://journal"
  restore := none
  cancelled := false
  put := .ok "z://preparation"
  load := none
  persist := none
  list := .ok []
  rename := none
  state := none
  serialize := none
  project := .ok ⟨"null", none⟩
  publish := .done "z://event"

def smoothly (call : TransactionCall) : TransactionInvocation := ⟨call, fun _ => smooth, none⟩

def overwrittenThenCancelled : ℕ → KernelChoice
  | 5 => { smooth with apply := .fail ⟨.io, "disk full", false⟩ (some (some "torn")) }
  | n => { smooth with cancelled := n ≥ 6 }

def cancelledOverwrite : List TransactionInvocation :=
  [smoothly (.begin sampleContext), ⟨.apply sampleRequest, overwrittenThenCancelled, none⟩, smoothly .drop]

theorem cancelledOverwrite_forgets :
    let end_ := (transactionSystem sampleLayout).play (kernel sampleLayout) cancelledOverwrite ⟨none, sampleWorld⟩
    (∃ r, end_.disk.journal.slot sampleContext.key = some (.record r) ∧ r.state = .rolledBack) ∧
      sampleWorld.files "a.txt" = some "old" ∧ end_.disk.files "a.txt" = some "torn" := by
  exact ⟨⟨_, rfl, rfl⟩, rfl, rfl⟩

def appliedThenDropped : List TransactionInvocation :=
  [smoothly (.begin sampleContext), smoothly (.apply sampleRequest), smoothly .drop]

theorem appliedThenDropped_meets : (transactionSystem sampleLayout).Meets (kernel sampleLayout)
      (OneTransaction sampleContext.key sampleWorld.files) (Spares sampleLayout) appliedThenDropped
      ⟨none, sampleWorld⟩ := by
  apply System.meets_of_choices
  · -- no call is cancelled
    have hsmooth : ∀ o s, Spares sampleLayout smooth o s := fun _ _ _ _ _ _ _ hc => by cases hc
    intro i hi n o s
    rcases List.mem_cons.mp hi with rfl | hi
    · exact hsmooth o s
    · rcases List.mem_cons.mp hi with rfl | hi
      · exact hsmooth o s
      · rw [List.mem_singleton.mp hi]
        exact hsmooth o s
  · refine ⟨fun c hc => ?_, Machine.along_free .., nofun, Machine.along_free ..,
      nofun, Machine.along_free .., trivial⟩
    cases hc
    exact ⟨rfl, fun _ => rfl⟩

theorem appliedThenDropped_restores :
    ∃ r, ((transactionSystem sampleLayout).play (kernel sampleLayout) appliedThenDropped
        ⟨none, sampleWorld⟩).disk.journal.slot sampleContext.key = some (.record r) ∧
      r.state = .rolledBack ∧ r.effects ≠ [] ∧
      ((transactionSystem sampleLayout).play (kernel sampleLayout) appliedThenDropped
        ⟨none, sampleWorld⟩).disk.files = sampleWorld.files := by
  have hall := rolledBack_restores sampleLayout sampleContext.key sampleWorld rfl
    nofun appliedThenDropped appliedThenDropped_meets
  exact ⟨_, rfl, rfl, List.cons_ne_nil _ _, hall.1 _ (System.play_disk_mem _ _) _ rfl rfl⟩

end Sample
end Zero.Kernel
