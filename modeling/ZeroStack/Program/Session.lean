import ZeroStack.Program.Basic

/-! Runs made of calls. A process keeps volatile memory between calls; a call runs to its end or dies after any number
of its operations, and then the memory is lost and the state rebooted. -/

namespace Durable

open List

structure System (Op : Type) (Res : Op → Type) (μ σ Call β : Type) where
  prog : Call → μ → Program Op Res (μ × β)
  fresh : μ
  reboot : σ → σ

structure Config (μ σ : Type) where
  memory : μ
  disk : σ

/-- One call with the environment's choices; `stop := some n` kills the process after
`n` operations. -/
structure Invocation (Call ε : Type) where
  call : Call
  env : ℕ → ε
  stop : Option ℕ

namespace System
variable {Op : Type} {Res : Op → Type} {μ σ ε Call β : Type}
variable (S : System Op Res μ σ Call β) (M : Machine Op Res σ ε)

def invoke (i : Invocation Call ε) (c : Config μ σ) : Config μ σ :=
  match i.stop with
  | none => ⟨(M.run (S.prog i.call c.memory) i.env c.disk).1.1, (M.run (S.prog i.call c.memory) i.env c.disk).2⟩
  | some n => ⟨S.fresh, S.reboot (M.cut n (S.prog i.call c.memory) i.env c.disk)⟩

def reply (i : Invocation Call ε) (c : Config μ σ) : Option β :=
  match i.stop with
  | none => some (M.run (S.prog i.call c.memory) i.env c.disk).1.2
  | some _ => none

def visited (i : Invocation Call ε) (c : Config μ σ) : List σ :=
  match i.stop with
  | none => M.states (S.prog i.call c.memory) i.env c.disk
  | some n => (M.states (S.prog i.call c.memory) i.env c.disk).take n ++
      [S.reboot (M.cut n (S.prog i.call c.memory) i.env c.disk)]

def play : List (Invocation Call ε) → Config μ σ → Config μ σ
  | [], c => c
  | i :: is, c => play is (S.invoke M i c)

def history : List (Invocation Call ε) → Config μ σ → List σ
  | [], _ => []
  | i :: is, c => S.visited M i c ++ history is (S.invoke M i c)

def replies : List (Invocation Call ε) → Config μ σ → List (Call × β)
  | [], _ => []
  | i :: is, c => (S.reply M i c).toList.map (i.call, ·) ++ replies is (S.invoke M i c)

def Meets (D : Call → Config μ σ → Prop) (C : ε → Op → σ → Prop) : List (Invocation Call ε) → Config μ σ → Prop
  | [], _ => True
  | i :: is, c => D i.call c ∧ M.Along C (S.prog i.call c.memory) i.env c.disk ∧ Meets D C is (S.invoke M i c)

variable {S M} {D : Call → Config μ σ → Prop} {C : ε → Op → σ → Prop} {G : σ → σ → Prop}
variable {J : Config μ σ → Prop} {I : σ → Prop}

variable {c : Config μ σ} {is : List (Invocation Call ε)}

theorem meets_of_forall {K : Call → Prop} (h : ∀ i ∈ is, K i.call) : S.Meets M (fun k _ => K k) Machine.Free is c := by
  induction is generalizing c with
  | nil => trivial
  | cons i is ih =>
    exact ⟨h i mem_cons_self, M.along_free _ _ _, ih fun j hj => h j (mem_cons_of_mem i hj)⟩

theorem meets_free : S.Meets M (fun _ _ => True) Machine.Free is c := meets_of_forall fun _ _ => trivial

theorem Meets.mono {D' : Call → Config μ σ → Prop} {C' : ε → Op → σ → Prop}
    (hD : ∀ k c, D k c → D' k c) (hC : ∀ e o s, C e o s → C' e o s) (h : S.Meets M D C is c) :
      S.Meets M D' C' is c := by
  induction is generalizing c with
  | nil => trivial
  | cons i is ih => exact ⟨hD _ _ h.1, Machine.Along.mono M hC h.2.1, ih h.2.2⟩

theorem meets_of_choices (hC : ∀ i ∈ is, ∀ n o s, C (i.env n) o s) (h : S.Meets M D Machine.Free is c) :
    S.Meets M D C is c := by
  induction is generalizing c with
  | nil => trivial
  | cons i is ih =>
    obtain ⟨hi, his⟩ := forall_mem_cons.mp hC
    exact ⟨h.1, M.along_of_forall hi _ _, ih his h.2.2⟩

variable {i : Invocation Call ε}

theorem invoke_of_safe {P : σ → Prop} {Q : β → σ → Prop} (hboot : ∀ s, P s → P (S.reboot s)) (hc : P c.disk)
    (h : M.Safe C (fun _ t => P t) (fun out t => P t ∧ Q out.2 t) (S.prog i.call c.memory) c.disk)
    (hA : M.Along C (S.prog i.call c.memory) i.env c.disk) :
    P (S.invoke M i c).disk ∧ ∀ out, S.reply M i c = some out → Q out (S.invoke M i c).disk := by
  unfold invoke reply
  cases i.stop with
  | none =>
    obtain ⟨hP, hQ⟩ := h.run hA
    refine ⟨hP, fun out hout => ?_⟩
    cases hout
    exact hQ
  | some n =>
    have hcut : P (M.cut n (S.prog i.call c.memory) i.env c.disk) :=
      Machine.isChain_invariant (I := P) (fun _ _ _ ht => ht) hc (h.isChain hA) _
        (M.cut_mem n _ _ _)
    exact ⟨hboot _ hcut, nofun⟩

/-- `J` relates memory and disk between calls, `I` is what the disk alone keeps at every step, and a reboot turns `I`
back into `J`. -/
structure Invariant (S : System Op Res μ σ Call β) (M : Machine Op Res σ ε)
    (D : Call → Config μ σ → Prop) (C : ε → Op → σ → Prop) (G : σ → σ → Prop)
    (J : Config μ σ → Prop) (I : σ → Prop) : Prop where
  call : ∀ k m s, J ⟨m, s⟩ → D k ⟨m, s⟩ → M.Safe C G (fun out t => J ⟨out.1, t⟩) (S.prog k m) s
  disk : ∀ m s, J ⟨m, s⟩ → I s
  step : ∀ s t, I s → G s t → I t
  reboot : ∀ s, I s → J ⟨S.fresh, S.reboot s⟩

theorem Invariant.cut (h : Invariant S M D C G J I)
    (hc : J c) (hD : D i.call c) (hA : M.Along C (S.prog i.call c.memory) i.env c.disk) (n : ℕ) :
    I (M.cut n (S.prog i.call c.memory) i.env c.disk) :=
  Machine.isChain_invariant h.step (h.disk _ _ hc) ((h.call _ _ _ hc hD).isChain hA) _
    (M.cut_mem n _ _ _)

theorem visited_getLastD (i : Invocation Call ε) (c : Config μ σ) :
    (S.visited M i c).getLastD c.disk = (S.invoke M i c).disk := by
  unfold visited invoke
  cases i.stop with
  | none => exact (M.run_snd _ _ _).symm
  | some n => simp

theorem history_getLastD (is : List (Invocation Call ε)) (c : Config μ σ) :
    (S.history M is c).getLastD c.disk = (S.play M is c).disk := by
  induction is generalizing c with
  | nil => rfl
  | cons i is ih =>
    have hlast : ∀ (l m : List σ) s, (l ++ m).getLastD s = m.getLastD (l.getLastD s) := by
      intro l m s
      cases m with
      | nil | cons a m => simp
    rw [history, hlast, visited_getLastD, ih]
    rfl

theorem play_disk_mem (is : List (Invocation Call ε)) (c : Config μ σ) :
    (S.play M is c).disk ∈ c.disk :: S.history M is c := by
  rw [← history_getLastD]
  exact getLastD_mem_cons

theorem visited_eq_of_states (hboot : S.reboot c.disk = c.disk)
    (h : ∀ t ∈ M.states (S.prog i.call c.memory) i.env c.disk, t = c.disk) : ∀ t ∈ S.visited M i c, t = c.disk := by
  unfold visited
  cases i.stop with
  | none => exact h
  | some n =>
    have hcut : M.cut n (S.prog i.call c.memory) i.env c.disk = c.disk := by
      rcases mem_cons.mp (M.cut_mem n (S.prog i.call c.memory) i.env c.disk) with hc | hc
      · exact hc
      · exact h _ hc
    intro t ht
    rcases mem_append.mp ht with ht | ht
    · exact h t (mem_of_mem_take ht)
    · rw [mem_singleton.mp ht, hcut, hboot]

variable (h : Invariant S M D C G J I)
include h

theorem Invariant.visited_isChain (hboot : ∀ s, I s → G s (S.reboot s)) (hc : J c)
    (hD : D i.call c) (hA : M.Along C (S.prog i.call c.memory) i.env c.disk) :
    (c.disk :: S.visited M i c).IsChain G := by
  have hrun := (h.call _ _ _ hc hD).isChain hA
  unfold visited
  cases i.stop with
  | none => exact hrun
  | some n =>
    have htake : (c.disk :: (M.states (S.prog i.call c.memory) i.env c.disk).take n).IsChain G := by
      simpa using hrun.take (n + 1)
    exact Machine.isChain_glue htake (isChain_pair.mpr (hboot _ (h.cut hc hD hA n))) rfl

theorem Invariant.invoke (hc : J c) (hD : D i.call c) (hA : M.Along C (S.prog i.call c.memory) i.env c.disk) :
    J (S.invoke M i c) := by
  unfold System.invoke
  cases i.stop with
  | none => exact (h.call _ _ _ hc hD).run hA
  | some n => exact h.reboot _ (h.cut hc hD hA n)

theorem Invariant.play (is : List (Invocation Call ε)) (hc : J c) (hm : S.Meets M D C is c) : J (S.play M is c) := by
  induction is generalizing c with
  | nil => exact hc
  | cons i is ih => exact ih (h.invoke hc hm.1 hm.2.1) hm.2.2

theorem Invariant.history (hboot : ∀ s, I s → G s (S.reboot s)) (is : List (Invocation Call ε))
    (hc : J c) (hm : S.Meets M D C is c) :
    (c.disk :: S.history M is c).IsChain G ∧ ∀ t ∈ c.disk :: S.history M is c, I t := by
  have hchain : (c.disk :: S.history M is c).IsChain G := by
    induction is generalizing c with
    | nil => exact isChain_singleton _
    | cons i is ih =>
      exact Machine.isChain_glue (h.visited_isChain hboot hc hm.1 hm.2.1)
        (ih (h.invoke hc hm.1 hm.2.1) hm.2.2) (visited_getLastD i c)
  exact ⟨hchain, Machine.isChain_invariant h.step (h.disk _ _ hc) hchain⟩

end System
end Durable
