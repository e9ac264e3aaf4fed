import ZeroStack.Program.FileStore

/-! Two programs that share one machine and take their steps in any order. -/

namespace Durable

inductive Side where
  | left
  | right
  deriving DecidableEq

structure Race (Op : Type) (Res : Op → Type) (σ α β : Type) where
  left : Program Op Res α
  right : Program Op Res β
  state : σ

namespace Program
variable {Op : Type} {Res : Op → Type} {α β : Type}

def result? : Program Op Res α → Option α
  | .ret a => some a
  | .step _ _ => none

theorem eq_ret_of_result? {p : Program Op Res α} {a : α} (h : p.result? = some a) : p = .ret a := by
  cases p with
  | ret b =>
    cases h
    rfl
  | step o next => cases h

def next? : Program Op Res α → Option Op
  | .ret _ => none
  | .step o _ => some o

end Program

namespace Machine
variable {Op : Type} {Res : Op → Type} {σ ε α β : Type} (M : Machine Op Res σ ε)

def advance (e : ε) : Program Op Res α → σ → Program Op Res α × σ
  | .ret a, s => (.ret a, s)
  | .step o next, s => (next (M.exec e o s).1, (M.exec e o s).2)

variable {M} {C : ε → Op → σ → Prop} {G : σ → σ → Prop} {Q : α → σ → Prop}

theorem Safe.advance {p : Program Op Res α} {s : σ} {e : ε} (h : M.Safe C G Q p s) (hG : G s s)
    (hC : ∀ o ∈ p.next?, C e o s) : G s (M.advance e p s).2 ∧ M.Safe C G Q (M.advance e p s).1 (M.advance e p s).2 := by
  cases p with
  | ret a => exact ⟨hG, h⟩
  | step o next => exact h e (hC o rfl)

end Machine

namespace Race
variable {Op : Type} {Res : Op → Type} {σ ε α β : Type} (M : Machine Op Res σ ε) (e : ε)

def step (who : Side) (c : Race Op Res σ α β) : Race Op Res σ α β :=
  match who with
  | .left => ⟨(M.advance e c.left c.state).1, c.right, (M.advance e c.left c.state).2⟩
  | .right => ⟨c.left, (M.advance e c.right c.state).1, (M.advance e c.right c.state).2⟩

def run : List Side → Race Op Res σ α β → Race Op Res σ α β
  | [], c => c
  | who :: sched, c => run sched (c.step M e who)

def trace : List Side → Race Op Res σ α β → List σ
  | [], _ => []
  | who :: sched, c => (c.step M e who).state :: trace sched (c.step M e who)

def Meets (D : Side → Race Op Res σ α β → Prop) : List Side → Race Op Res σ α β → Prop
  | [], _ => True
  | who :: sched, c => D who c ∧ Meets D sched (c.step M e who)

instance decidableMeets (D : Side → Race Op Res σ α β → Prop)
    [∀ who c, Decidable (D who c)] : ∀ sched c, Decidable (Meets M e D sched c)
  | [], _ => isTrue trivial
  | who :: sched, c =>
    have := decidableMeets D sched (c.step M e who)
    inferInstanceAs (Decidable (D who c ∧ Meets M e D sched (c.step M e who)))

def finished (c : Race Op Res σ α β) : Prop :=
  c.left.result?.isSome = true ∧ c.right.result?.isSome = true

variable {M e} {D : Side → Race Op Res σ α β → Prop} {J : Race Op Res σ α β → Prop}
variable {G : σ → σ → Prop}

theorem run_append (as bs : List Side) (c : Race Op Res σ α β) : run M e (as ++ bs) c = run M e bs (run M e as c) := by
  induction as generalizing c with
  | nil => rfl
  | cons who as ih => exact ih _

theorem trace_append (as bs : List Side) (c : Race Op Res σ α β) :
    trace M e (as ++ bs) c = trace M e as c ++ trace M e bs (run M e as c) := by
  induction as generalizing c with
  | nil => rfl
  | cons who as ih => exact congrArg _ (ih _)

variable {c : Race Op Res σ α β}

theorem Meets.imp {D' : Side → Race Op Res σ α β → Prop} (hD : ∀ who c, D who c → D' who c)
    {sched : List Side} (h : Meets M e D sched c) : Meets M e D' sched c := by
  induction sched generalizing c with
  | nil => trivial
  | cons who sched ih => exact ⟨hD who c h.1, ih h.2⟩

theorem exists_of_not_meets {sched : List Side}
    (h : ¬ Meets M e D sched c) : ∃ pre who post, sched = pre ++ who :: post ∧
      Meets M e D pre c ∧ ¬ D who (run M e pre c) := by
  induction sched generalizing c with
  | nil => exact absurd trivial h
  | cons who sched ih =>
    by_cases hD : D who c
    · obtain ⟨pre, who', post, rfl, hpre, hnot⟩ := ih fun hm => h ⟨hD, hm⟩
      exact ⟨who :: pre, who', post, rfl, ⟨hD, hpre⟩, hnot⟩
    · exact ⟨[], who, sched, rfl, trivial, hD⟩

theorem run_invariant (hstep : ∀ who c, D who c → J c → G c.state (c.step M e who).state ∧ J (c.step M e who))
    {sched : List Side} (hc : J c) (hm : Meets M e D sched c) :
    J (run M e sched c) ∧ (c.state :: trace M e sched c).IsChain G := by
  induction sched generalizing c with
  | nil => exact ⟨hc, List.isChain_singleton _⟩
  | cons who sched ih =>
    obtain ⟨hg, hj⟩ := hstep who c hm.1 hc
    obtain ⟨hrun, hchain⟩ := ih hj hm.2
    exact ⟨hrun, List.isChain_cons_cons.mpr ⟨hg, hchain⟩⟩

theorem mem_trace_of_idle (who : Side) {sched : List Side} (hidle : ∀ side, side = who ∨ c.step M e side = c)
    (hopen : ¬ c.finished) (hfin : (run M e sched c).finished) : (c.step M e who).state ∈ trace M e sched c := by
  induction sched with
  | nil => exact absurd hfin hopen
  | cons side sched ih =>
    rcases hidle side with rfl | hside
    · exact List.mem_cons_self
    · rw [run, hside] at hfin
      rw [trace, hside]
      exact List.mem_cons_of_mem _ (ih hfin)

end Race

def publishing {K : Type} {V : K → Type} {α : Type} (p : Program (FileOp K V) FileOp.Res α) : Bool :=
  match p.next? with
  | some (.replace _ _) => true
  | _ => false

section Overtaken
variable {K : Type} {V : K → Type} [DecidableEq K] {E α β : Type} {s t : Files K V}

/-- A reader that another process may overtake reads from `s` until the files become `t`, and from `t` after that. It
ends with `P` if they never do and with `Q` if they do on the way. -/
def Overtaken (s t : Files K V) (P Q : α → Prop) : Program (FileOp K V) FileOp.Res α → Prop
  | .ret a => P a
  | .step (.load k) next =>
    disk.Safe NoFault (· = ·) (fun a u => u = t ∧ Q a) (.step (.load k) next) t ∧
      Overtaken s t P Q (next (.found (s k)))
  | .step _ _ => False

namespace Overtaken
variable {P Q : α → Prop} {P' Q' : β → Prop}

variable {x : Program (FileOp K V) FileOp.Res α}

theorem bind {f : α → Program (FileOp K V) FileOp.Res β}
    (hx : Overtaken s t P Q x) (hP : ∀ a, P a → Overtaken s t P' Q' (f a))
    (hQ : ∀ a, Q a → disk.Safe NoFault (· = ·) (fun b u => u = t ∧ Q' b) (f a) t) : Overtaken s t P' Q' (x >>= f) := by
  induction x with
  | ret a => exact hP a hx
  | step o next ih =>
    cases o with
    | load k =>
      refine ⟨hx.1.bind fun a u hu => ?_, ih _ hx.2⟩
      obtain ⟨rfl, ha⟩ := hu
      exact hQ a ha
    | replace k v | now => exact hx.elim

theorem mono {Q'' : α → Prop} (hx : Overtaken s t P Q x) (hQ : ∀ a, Q a → Q'' a) : Overtaken s t P Q'' x := by
  induction x with
  | ret a => exact hx
  | step o next ih =>
    cases o with
    | load k => exact ⟨hx.1.post fun a u h => ⟨h.1, hQ a h.2⟩, ih _ hx.2⟩
    | replace k v | now => exact hx.elim

theorem safe (hx : Overtaken s t P Q x)
    (hPQ : ∀ a, P a → Q a) : disk.Safe NoFault (· = ·) (fun a u => u = t ∧ Q a) x t := by
  cases x with
  | ret a => exact ⟨rfl, hPQ a hx⟩
  | step o next =>
    cases o with
    | load k => exact hx.1
    | replace k v | now => exact hx.elim

theorem safe_bind {G : Files K V → Files K V → Prop} {R : β → Files K V → Prop}
    {f : α → Program (FileOp K V) FileOp.Res β} (hx : Overtaken s t P Q x) (hG : ∀ u, G u u)
    (hP : ∀ a, P a → disk.Safe NoFault G R (f a) t)
    (hQ : ∀ a, Q a → disk.Safe NoFault G R (f a) t) : disk.Safe NoFault G R (x >>= f) t := by
  have hboth := (hx.mono fun _ => Or.inr).safe fun _ => Or.inl
  refine (hboth.mono (fun _ _ _ h => h) (fun u _ h => h ▸ hG u) fun _ _ h => h).bind fun a u hu => ?_
  obtain ⟨rfl, ha⟩ := hu
  exact ha.elim (hP a) (hQ a)

theorem andThen {x : FileProgram K V E α} {f : α → FileProgram K V E β}
    {P Q : Except (Failure E) α → Prop} {P' Q' : Except (Failure E) β → Prop}
    (hx : Overtaken s t P Q x.run) (hP : ∀ a, P (.ok a) → Overtaken s t P' Q' (f a).run)
    (hPerr : ∀ err, P (.error err) → P' (.error err))
    (hQ : ∀ a, Q (.ok a) → disk.Safe NoFault (· = ·) (fun b u => u = t ∧ Q' b) (f a).run t)
    (hQerr : ∀ err, Q (.error err) → Q' (.error err)) : Overtaken s t P' Q' (x >>= f).run := by
  refine hx.bind (fun r hr => ?_) fun r hr => ?_
  · cases r with
    | ok a => exact hP a hr
    | error err => exact hPerr err hr
  · cases r with
    | ok a => exact hQ a hr
    | error err => exact ⟨rfl, hQerr err hr⟩

theorem observe_bind {x : FileProgram K V E α} {f : Except (Failure E) α → FileProgram K V E β}
    {P Q : Except (Failure E) α → Prop} {P' Q' : Except (Failure E) β → Prop}
    (hx : Overtaken s t P Q x.run) (hP : ∀ r, P r → Overtaken s t P' Q' (f r).run)
    (hQ : ∀ r, Q r → disk.Safe NoFault (· = ·) (fun b u => u = t ∧ Q' b) (f r).run t) :
    Overtaken s t P' Q' (x.observe >>= f).run := by
  rw [Fallible.run_observe_bind]
  exact hx.bind hP hQ

theorem load_bind {k : K} {f : Loaded (V k) → FileProgram K V E α} {P Q : Except (Failure E) α → Prop}
    (ht : disk.Safe NoFault (· = ·) (fun a u => u = t ∧ Q a) (FileProgram.load k >>= f).run t)
    (hs : Overtaken s t P Q (f (.found (s k))).run) : Overtaken s t P Q (FileProgram.load k >>= f).run := ⟨ht, hs⟩

end Overtaken
end Overtaken
end Durable
