import ZeroStack.Program.Basic

/-! Programs that may fail: with an error value that the caller can look at, or by a
panic that ends the call. -/

namespace Durable

inductive Failure (E : Type) where
  | err (e : E)
  | panic (message : String)
  deriving DecidableEq

abbrev Fallible (Op : Type) (Res : Op → Type) (E α : Type) :=
  ExceptT (Failure E) (Program Op Res) α

namespace Fallible
variable {Op : Type} {Res : Op → Type} {E α β : Type}

def call (o : Op) : Fallible Op Res E (Res o) := ExceptT.lift (Program.perform o)

def fail (e : E) : Fallible Op Res E α := throw (.err e)

def panic (message : String) : Fallible Op Res E α := throw (.panic message)

def ofExcept : Except E α → Fallible Op Res E α
  | .ok a => pure a
  | .error e => fail e

def outcome : Except E α → Except (Failure E) α
  | .ok a => .ok a
  | .error e => .error (.err e)

def observe (x : Fallible Op Res E α) : Fallible Op Res E (Except (Failure E) α) :=
  ExceptT.lift x.run

@[simp] theorem fail_bind (e : E) (f : α → Fallible Op Res E β) : (fail e >>= f) = fail e := rfl

@[simp] theorem panic_bind (message : String) (f : α → Fallible Op Res E β) :
    (panic message >>= f) = panic message := rfl

@[simp] theorem ofExcept_ok (a : α) : (ofExcept (.ok a) : Fallible Op Res E α) = pure a := rfl

@[simp] theorem ofExcept_error (e : E) : (ofExcept (.error e) : Fallible Op Res E α) = fail e := rfl

theorem run_ofExcept (x : Except E α) : (ofExcept x : Fallible Op Res E α).run = .ret (outcome x) := by
  cases x <;> rfl

theorem run_observe_bind (x : Fallible Op Res E α) (f : Except (Failure E) α → Fallible Op Res E β) :
    (x.observe >>= f).run = x.run >>= fun r => (f r).run :=
  Program.bind_assoc x.run _ _

theorem ofExcept_pure (a : α) : (ofExcept (pure a) : Fallible Op Res E α) = pure a := rfl

theorem ofExcept_bind (x : Except E α) (f : α → Except E β) :
    (ofExcept (x >>= f) : Fallible Op Res E β) = ofExcept x >>= fun a => ofExcept (f a) := by
  cases x <;> rfl

end Fallible

namespace Machine
variable {Op : Type} {Res : Op → Type} {σ ε E α β : Type} {M : Machine Op Res σ ε}
variable {C : ε → Op → σ → Prop} {G : σ → σ → Prop} {Q : Except (Failure E) α → σ → Prop}

theorem Safe.andThen {P : Except (Failure E) β → σ → Prop} {x : Fallible Op Res E β}
    {f : β → Fallible Op Res E α} {s : σ} (hx : M.Safe C G P x.run s)
    (hok : ∀ b t, P (.ok b) t → M.Safe C G Q (f b).run t)
    (herr : ∀ e t, P (.error e) t → Q (.error e) t) : M.Safe C G Q (x >>= f).run s := by
  refine Safe.bind hx fun r t hr => ?_
  cases r with
  | ok b => exact hok b t hr
  | error e => exact herr e t hr

theorem safe_ofExcept {x : Except E α} {s : σ} (hok : ∀ a, x = .ok a → Q (.ok a) s)
    (herr : ∀ e, x = .error e → Q (.error (.err e)) s) :
    M.Safe C G Q (Fallible.ofExcept x : Fallible Op Res E α).run s := by
  cases x with
  | ok a => exact hok a rfl
  | error e => exact herr e rfl

end Machine
end Durable
