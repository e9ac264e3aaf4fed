import Mathlib.Data.List.Basic

/-! Runs whose steps all meet a condition on the state they are made in; and objects driven by calls that may be
refused, with the list of the calls that were accepted. -/

namespace Guarded

section Steps
variable {σ Command : Type} (step : σ → Command → σ) (Fits : σ → Command → Prop)

def Along : σ → List Command → Prop
  | _, [] => True
  | s, command :: commands => Fits s command ∧ Along (step s command) commands

instance decidableAlong [∀ s command, Decidable (Fits s command)] (s : σ) (commands : List Command) :
    Decidable (Along step Fits s commands) :=
  match commands with
  | [] => isTrue trivial
  | command :: commands =>
    haveI := decidableAlong (step s command) commands
    inferInstanceAs (Decidable (Fits s command ∧ Along step Fits (step s command) commands))

variable {step Fits}

theorem Along.invariant {I : σ → Prop} (hstep : ∀ s command, I s → Fits s command → I (step s command)) {s : σ}
    {commands : List Command} (h : Along step Fits s commands) (hs : I s) : I (commands.foldl step s) := by
  induction commands generalizing s with
  | nil => exact hs
  | cons command commands ih => exact ih h.2 (hstep s command hs h.1)

end Steps

structure Object (σ Call ε : Type) where
  call : Call → σ → Except ε Unit × σ

namespace Object
variable {σ Call ε : Type} (O : Object σ Call ε)

def accepts (c : Call) (s : σ) : Bool :=
  match (O.call c s).1 with
  | .ok () => true
  | .error _ => false

def play : List Call → σ → σ
  | [], s => s
  | c :: cs, s => play cs (O.call c s).2

def accepted : List Call → σ → List Call
  | [], _ => []
  | c :: cs, s => if O.accepts c s then c :: accepted cs (O.call c s).2 else accepted cs (O.call c s).2

def Atomic : Prop := ∀ c s e, (O.call c s).1 = .error e → (O.call c s).2 = s

variable {O}

theorem Atomic.history (hatomic : O.Atomic) {H : List Call → σ → Prop}
    (hstep : ∀ done c s, H done s → (O.call c s).1 = .ok () → H (done ++ [c]) (O.call c s).2) {done : List Call} {s : σ}
    (h : H done s) (cs : List Call) : H (done ++ O.accepted cs s) (O.play cs s) := by
  -- the calls already made are carried in `done`
  induction cs generalizing done s with
  | nil => simpa [accepted, play] using h
  | cons c cs ih =>
    cases hcall : (O.call c s).1 with
    | error e =>
      have hsame : (O.call c s).2 = s := hatomic c s e hcall
      have hrest : H (done ++ O.accepted cs s) (O.play cs s) := ih h
      have haccepted : O.accepted (c :: cs) s = O.accepted cs s := by simp [accepted, accepts, hcall, hsame]
      rw [haccepted, play, hsame]
      exact hrest
    | ok u =>
      have hrest : H ((done ++ [c]) ++ O.accepted cs (O.call c s).2) (O.play cs (O.call c s).2) :=
        ih (hstep done c s h hcall)
      have haccepted : O.accepted (c :: cs) s = c :: O.accepted cs (O.call c s).2 := by
        simp [accepted, accepts, hcall]
      rw [haccepted, play]
      simpa using hrest

theorem Atomic.invariant (hatomic : O.Atomic) {I : σ → Prop}
    (hstep : ∀ c s, I s → (O.call c s).1 = .ok () → I (O.call c s).2) {s : σ} (h : I s) (cs : List Call) :
    I (O.play cs s) :=
  @Atomic.history σ Call ε O hatomic (fun _ => I) (fun _ => hstep) [] s h cs

end Object
end Guarded
