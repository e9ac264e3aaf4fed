import Mathlib.Data.List.Chain

/-! Finite programs over a signature of operations, interpreted by a machine. What the environment decides is an
explicit choice, so a run is a function of its choices and a statement about every run quantifies over them. -/

namespace Durable

open List

inductive Program (Op : Type) (Res : Op → Type) (α : Type) where
  | ret (a : α)
  | step (o : Op) (next : Res o → Program Op Res α)

namespace Program
variable {Op : Type} {Res : Op → Type} {α β γ : Type}

def bind : Program Op Res α → (α → Program Op Res β) → Program Op Res β
  | .ret a, f => f a
  | .step o next, f => .step o fun r => (next r).bind f

instance : Monad (Program Op Res) where
  pure := .ret
  bind := bind

def perform (o : Op) : Program Op Res (Res o) := .step o .ret

theorem pure_eq_ret (a : α) : (pure a : Program Op Res α) = .ret a := rfl

@[simp] theorem ret_bind (a : α) (f : α → Program Op Res β) : (ret a >>= f) = f a := rfl

@[simp] theorem step_bind (o : Op) (next : Res o → Program Op Res α) (f : α → Program Op Res β) :
    (step o next >>= f) = step o fun r => next r >>= f := rfl

theorem bind_ret (p : Program Op Res α) : (p >>= ret) = p := by
  induction p with
  | ret a => rfl
  | step o next ih =>
    rw [step_bind]
    congr 1
    funext r
    exact ih r

theorem bind_assoc (p : Program Op Res α) (f : α → Program Op Res β) (g : β → Program Op Res γ) :
    ((p >>= f) >>= g) = p >>= fun a => f a >>= g := by
  induction p with
  | ret a => rfl
  | step o next ih =>
    simp only [step_bind]
    congr 1
    funext r
    exact ih r

instance : LawfulMonad (Program Op Res) :=
  LawfulMonad.mk' _ bind_ret (fun _ _ => rfl) bind_assoc

end Program

structure Machine (Op : Type) (Res : Op → Type) (σ ε : Type) where
  exec : ε → (o : Op) → σ → Res o × σ

namespace Machine
variable {Op : Type} {Res : Op → Type} {σ ε α β : Type} (M : Machine Op Res σ ε)

def later (n : ℕ) (env : ℕ → ε) : ℕ → ε := fun i => env (n + i)

theorem later_zero (env : ℕ → ε) : later 0 env = env := funext fun i => congrArg env (Nat.zero_add i)

theorem later_later (m n : ℕ) (env : ℕ → ε) : later n (later m env) = later (m + n) env :=
  funext fun i => congrArg env (Nat.add_assoc m n i).symm

def run : Program Op Res α → (ℕ → ε) → σ → α × σ
  | .ret a, _, s => (a, s)
  | .step o next, env, s =>
    run (next (M.exec (env 0) o s).1) (later 1 env) (M.exec (env 0) o s).2

def states : Program Op Res α → (ℕ → ε) → σ → List σ
  | .ret _, _, _ => []
  | .step o next, env, s => (M.exec (env 0) o s).2 ::
    states (next (M.exec (env 0) o s).1) (later 1 env) (M.exec (env 0) o s).2

def cut (n : ℕ) (p : Program Op Res α) (env : ℕ → ε) (s : σ) : σ :=
  ((M.states p env s).take n).getLastD s

def Along (C : ε → Op → σ → Prop) : Program Op Res α → (ℕ → ε) → σ → Prop
  | .ret _, _, _ => True
  | .step o next, env, s => C (env 0) o s ∧ Along C (next (M.exec (env 0) o s).1) (later 1 env) (M.exec (env 0) o s).2

/-- Whatever the environment chooses within `C`, every step moves by `G` and the
result satisfies `Q`. -/
def Safe (C : ε → Op → σ → Prop) (G : σ → σ → Prop) (Q : α → σ → Prop) : Program Op Res α → σ → Prop
  | .ret a, s => Q a s
  | .step o next, s => ∀ e, C e o s → G s (M.exec e o s).2 ∧ Safe C G Q (next (M.exec e o s).1) (M.exec e o s).2

def Free : ε → Op → σ → Prop := fun _ _ _ => True

variable {p : Program Op Res α} {env : ℕ → ε} {s : σ}

section Rules
variable {M} {C : ε → Op → σ → Prop} {G : σ → σ → Prop} {Q : α → σ → Prop}

theorem safe_bind {p : Program Op Res β} {f : β → Program Op Res α} :
    M.Safe C G Q (p >>= f) s ↔ M.Safe C G (fun b t => M.Safe C G Q (f b) t) p s := by
  induction p generalizing s with
  | ret b => exact Iff.rfl
  | step o next ih =>
    exact forall_congr' fun e => imp_congr_right fun _ => and_congr_right fun _ => ih _

variable {Q' : α → σ → Prop}

theorem Safe.mono {C' : ε → Op → σ → Prop} {G' : σ → σ → Prop}
    (hC : ∀ e o s, C' e o s → C e o s) (hG : ∀ s t, G s t → G' s t)
    (hQ : ∀ a s, Q a s → Q' a s) (h : M.Safe C G Q p s) : M.Safe C' G' Q' p s := by
  induction p generalizing s with
  | ret a => exact hQ a s h
  | step o next ih =>
    intro e he
    obtain ⟨hg, hn⟩ := h e (hC e o s he)
    exact ⟨hG _ _ hg, ih _ hn⟩

theorem Safe.post (hQ : ∀ a s, Q a s → Q' a s) (h : M.Safe C G Q p s) : M.Safe C G Q' p s :=
  h.mono (fun _ _ _ hc => hc) (fun _ _ hg => hg) hQ

theorem Safe.bind {P : β → σ → Prop} {p : Program Op Res β} {f : β → Program Op Res α}
    (hp : M.Safe C G P p s) (hf : ∀ b t, P b t → M.Safe C G Q (f b) t) :
    M.Safe C G Q (p >>= f) s := safe_bind.mpr (hp.post hf)

theorem Safe.and {C' : ε → Op → σ → Prop} {G' : σ → σ → Prop} (h : M.Safe C G Q p s) (h' : M.Safe C' G' Q' p s) :
    M.Safe (fun e o s => C e o s ∧ C' e o s) (fun s t => G s t ∧ G' s t) (fun a t => Q a t ∧ Q' a t) p s := by
  induction p generalizing s with
  | ret a => exact ⟨h, h'⟩
  | step o next ih =>
    intro e he
    obtain ⟨hg, hn⟩ := h e he.1
    obtain ⟨hg', hn'⟩ := h' e he.2
    exact ⟨⟨hg, hg'⟩, ih _ hn hn'⟩

theorem safe_trivial (p : Program Op Res α) (s : σ) : M.Safe C (fun _ _ => True) (fun _ _ => True) p s := by
  induction p generalizing s with
  | ret a => trivial
  | step o next ih => exact fun e _ => ⟨trivial, ih _ _⟩

theorem Safe.run (h : M.Safe C G Q p s) (ha : M.Along C p env s) : Q (M.run p env s).1 (M.run p env s).2 := by
  induction p generalizing env s with
  | ret a => exact h
  | step o next ih => exact ih _ (h _ ha.1).2 ha.2

theorem Safe.isChain (h : M.Safe C G Q p s) (ha : M.Along C p env s) : (s :: M.states p env s).IsChain G := by
  induction p generalizing env s with
  | ret a => exact isChain_singleton s
  | step o next ih =>
    rw [states, isChain_cons_cons]
    exact ⟨(h _ ha.1).1, ih _ (h _ ha.1).2 ha.2⟩

theorem Safe.states {I : σ → Prop} (h : M.Safe C (fun _ t => I t) Q p s)
    (ha : M.Along C p env s) : ∀ t ∈ M.states p env s, I t := by
  induction p generalizing env s with
  | ret a => exact fun t ht => (not_mem_nil ht).elim
  | step o next ih =>
    obtain ⟨hi, hn⟩ := h _ ha.1
    intro t ht
    rcases mem_cons.mp ht with rfl | ht
    · exact hi
    · exact ih _ hn ha.2 t ht

end Rules

theorem along_of_forall {C : ε → Op → σ → Prop} (h : ∀ i o s, C (env i) o s)
    (p : Program Op Res α) (s : σ) : M.Along C p env s := by
  induction p generalizing env s with
  | ret a => trivial
  | step o next ih => exact ⟨h 0 o s, ih _ (fun i => h (1 + i)) _⟩

theorem along_free (p : Program Op Res α) (env : ℕ → ε) (s : σ) : M.Along Free p env s :=
  M.along_of_forall (fun _ _ _ => trivial) p s

theorem Along.mono {C C' : ε → Op → σ → Prop} (hC : ∀ e o s, C e o s → C' e o s) (h : M.Along C p env s) :
    M.Along C' p env s := by
  induction p generalizing env s with
  | ret a => trivial
  | step o next ih => exact ⟨hC _ _ _ h.1, ih _ h.2⟩

theorem Along.and {C C' : ε → Op → σ → Prop} (h : M.Along C p env s) (h' : M.Along C' p env s) :
    M.Along (fun e o s => C e o s ∧ C' e o s) p env s := by
  induction p generalizing env s with
  | ret a => trivial
  | step o next ih => exact ⟨⟨h.1, h'.1⟩, ih _ h.2 h'.2⟩

theorem along_bind {C : ε → Op → σ → Prop} (p : Program Op Res β) (f : β → Program Op Res α)
    (env : ℕ → ε) (s : σ) : M.Along C (p >>= f) env s ↔ M.Along C p env s ∧
      M.Along C (f (M.run p env s).1) (later (M.states p env s).length env) (M.run p env s).2 := by
  induction p generalizing env s with
  | ret b => simp only [Program.ret_bind, run, states, length_nil, later_zero, Along, true_and]
  | step o next ih =>
    simp only [Program.step_bind, run, states, length_cons, Along, ih, later_later, Nat.add_comm, and_assoc]

theorem run_bind (p : Program Op Res β) (f : β → Program Op Res α) (env : ℕ → ε) (s : σ) : M.run (p >>= f) env s =
      M.run (f (M.run p env s).1) (later (M.states p env s).length env) (M.run p env s).2 := by
  induction p generalizing env s with
  | ret b => simp only [Program.ret_bind, run, states, length_nil, later_zero]
  | step o next ih => simp only [Program.step_bind, run, states, length_cons, ih, later_later, Nat.add_comm]

theorem states_bind (p : Program Op Res β) (f : β → Program Op Res α) (env : ℕ → ε) (s : σ) :
    M.states (p >>= f) env s = M.states p env s ++
      M.states (f (M.run p env s).1) (later (M.states p env s).length env) (M.run p env s).2 := by
  induction p generalizing env s with
  | ret b => simp only [Program.ret_bind, run, states, length_nil, later_zero, nil_append]
  | step o next ih =>
    simp only [Program.step_bind, run, states, length_cons, ih, later_later, Nat.add_comm, cons_append]

theorem run_snd (p : Program Op Res α) (env : ℕ → ε) (s : σ) : (M.run p env s).2 = (M.states p env s).getLastD s := by
  induction p generalizing env s with
  | ret a => rfl
  | step o next ih =>
    rw [run, ih, states, getLastD_cons]

theorem cut_mem (n : ℕ) (p : Program Op Res α) (env : ℕ → ε) (s : σ) : M.cut n p env s ∈ s :: M.states p env s := by
  rcases mem_cons.mp getLastD_mem_cons with h | h
  · exact mem_cons.mpr (.inl h)
  · exact mem_cons_of_mem s (mem_of_mem_take h)

theorem isChain_glue {G : σ → σ → Prop} {l m : List σ} {s t : σ} (hl : (s :: l).IsChain G)
    (hm : (t :: m).IsChain G) (ht : l.getLastD s = t) : (s :: (l ++ m)).IsChain G := by
  induction l generalizing s with
  | nil =>
    rw [getLastD_nil] at ht
    rwa [ht]
  | cons u l ih =>
    rw [isChain_cons_cons] at hl
    rw [getLastD_cons] at ht
    exact isChain_cons_cons.mpr ⟨hl.1, ih hl.2 ht⟩

theorem isChain_invariant {G : σ → σ → Prop} {I : σ → Prop} {l : List σ}
    (hstep : ∀ s t, I s → G s t → I t) (hs : I s) (hl : (s :: l).IsChain G) : ∀ t ∈ s :: l, I t := by
  induction l generalizing s with
  | nil => simpa using hs
  | cons t l ih =>
    rw [isChain_cons_cons] at hl
    intro u hu
    rcases mem_cons.mp hu with rfl | hu
    · exact hs
    · exact ih (hstep s t hs hl.1) hl.2 u hu

end Machine
end Durable
