import ZeroStack.Program.Interleave

/-! Programs that follow an abstract state while other processes move it. `rep` is the concrete state for an abstract
one, `R` what the others may do between two steps and `G` what the program does. -/

namespace Durable

namespace Machine
variable {Op : Type} {Res : Op → Type} {σ τ ε E α β : Type}

/-- Every step of the program, taken from wherever the others have moved the abstract
state, moves it by `G`; the result satisfies `Q`. -/
def Tracks (M : Machine Op Res σ ε) (rep : τ → σ) (C : ε → Op → σ → Prop) (R G : τ → τ → Prop)
    (Q : α → τ → Prop) : Program Op Res α → τ → Prop
  | .ret a, x => Q a x
  | .step o next, x => ∀ y, R x y → ∀ e, C e o (rep y) → ∃ z, (M.exec e o (rep y)).2 = rep z ∧
    G y z ∧ Tracks M rep C R G Q (next (M.exec e o (rep y)).1) z

variable {M : Machine Op Res σ ε} {rep : τ → σ} {C : ε → Op → σ → Prop} {R G : τ → τ → Prop}
variable {Q : α → τ → Prop} {x y : τ}

namespace Tracks

theorem bind {P : β → τ → Prop} {p : Program Op Res β} {f : β → Program Op Res α}
    (hp : M.Tracks rep C R G P p x) (hf : ∀ b z, P b z → M.Tracks rep C R G Q (f b) z) :
    M.Tracks rep C R G Q (p >>= f) x := by
  induction p generalizing x with
  | ret b => exact hf b x hp
  | step o next ih =>
    intro y hy e he
    obtain ⟨z, hz, hG, hnext⟩ := hp y hy e he
    exact ⟨z, hz, hG, ih _ hnext⟩

theorem andThen {Q : Except (Failure E) α → τ → Prop} {P : Except (Failure E) β → τ → Prop}
    {p : Fallible Op Res E β} {f : β → Fallible Op Res E α} (hp : M.Tracks rep C R G P p.run x)
    (hok : ∀ b z, P (.ok b) z → M.Tracks rep C R G Q (f b).run z)
    (herr : ∀ e z, P (.error e) z → Q (.error e) z) : M.Tracks rep C R G Q (p >>= f).run x := by
  refine hp.bind fun r z hr => ?_
  cases r with
  | ok b => exact hok b z hr
  | error e => exact herr e z hr

theorem ofExcept_bind {Q : Except (Failure E) α → τ → Prop} {r : Except E β}
    {f : β → Fallible Op Res E α} (hok : ∀ b, r = .ok b → M.Tracks rep C R G Q (f b).run x)
    (herr : ∀ e, r = .error e → Q (.error (.err e)) x) : M.Tracks rep C R G Q (Fallible.ofExcept r >>= f).run x := by
  cases r with
  | ok b => exact hok b rfl
  | error e => exact herr e rfl

theorem stable {p : Program Op Res α} (h : M.Tracks rep C R G Q p x) (hxy : R x y)
    (htrans : ∀ x y z, R x y → R y z → R x z) (hQ : ∀ a x y, Q a x → R x y → Q a y) : M.Tracks rep C R G Q p y := by
  cases p with
  | ret a => exact hQ a x y h hxy
  | step o next => exact fun z hz => h z (htrans x y z hxy hz)

theorem safe {p : Program Op Res α} (h : M.Tracks rep C R G Q p x) (hR : ∀ x, R x x)
    (hrefl : ∀ x, G x x) (htrans : ∀ x y z, G x y → G y z → G x z) :
    M.Safe C (fun s t => ∃ y z, s = rep y ∧ t = rep z ∧ G x z ∧ G y z)
      (fun a t => ∃ z, t = rep z ∧ G x z ∧ Q a z) p (rep x) := by
  have hfrom : ∀ p y, G x y → M.Tracks rep C R G Q p y →
      M.Safe C (fun s t => ∃ y z, s = rep y ∧ t = rep z ∧ G x z ∧ G y z)
        (fun a t => ∃ z, t = rep z ∧ G x z ∧ Q a z) p (rep y) := by
    intro p
    induction p with
    | ret a => exact fun y hy h => ⟨y, rfl, hy, h⟩
    | step o next ih =>
      intro y hy h e he
      obtain ⟨z, hz, hG, hnext⟩ := h y (hR y) e he
      refine ⟨⟨y, z, rfl, hz, htrans x y z hy hG, hG⟩, ?_⟩
      rw [hz]
      exact ih _ z (htrans x y z hy hG) hnext
  exact hfrom p x (hrefl x) h

theorem advance {p : Program Op Res α} {e : ε} (h : M.Tracks rep C R G Q p x) (hR : R x x)
    (hG : G x x) (hC : ∀ o ∈ p.next?, C e o (rep x)) : ∃ z, (M.advance e p (rep x)).2 = rep z ∧ G x z ∧
      M.Tracks rep C R G Q (M.advance e p (rep x)).1 z := by
  cases p with
  | ret a => exact ⟨x, rfl, hG, h⟩
  | step o next => exact h x hR e (hC o rfl)

end Tracks
end Machine

namespace Race
variable {Op : Type} {Res : Op → Type} {σ τ ε α β : Type} {M : Machine Op Res σ ε} {e : ε}
variable {rep : τ → σ} {C : ε → Op → σ → Prop} {G : τ → τ → Prop}
variable {Q : α → τ → Prop} {P : β → τ → Prop}

def next? (who : Side) (c : Race Op Res σ α β) : Option Op :=
  match who with
  | .left => c.left.next?
  | .right => c.right.next?

/-- Two programs that each track the state while the other moves it by `G` track it together. -/
theorem run_tracks (hrefl : ∀ x, G x x) (htrans : ∀ x y z, G x y → G y z → G x z)
    (hQ : ∀ a x y, Q a x → G x y → Q a y) (hP : ∀ b x y, P b x → G x y → P b y)
    {sched : List Side} {c : Race Op Res σ α β} {x : τ} (hx : c.state = rep x)
    (hl : M.Tracks rep C G G Q c.left x) (hr : M.Tracks rep C G G P c.right x)
    (hm : Meets M e (fun who c => ∀ o ∈ c.next? who, C e o c.state) sched c) :
    ∃ y, (run M e sched c).state = rep y ∧ G x y ∧ M.Tracks rep C G G Q (run M e sched c).left y ∧
      M.Tracks rep C G G P (run M e sched c).right y := by
  refine (run_invariant (G := fun _ _ => True) (J := fun c => ∃ y, c.state = rep y ∧ G x y ∧
    M.Tracks rep C G G Q c.left y ∧ M.Tracks rep C G G P c.right y)
    (fun who c hD hJ => ⟨trivial, ?_⟩) ⟨x, hx, hrefl x, hl, hr⟩ hm).1
  obtain ⟨y, hy, hxy, hl, hr⟩ := hJ
  cases who with
  | left =>
    have hC : ∀ o ∈ c.left.next?, C e o (rep y) := fun o ho => hy ▸ hD o ho
    obtain ⟨z, hz, hG, hnext⟩ := hl.advance (hrefl y) (hrefl y) hC
    rw [← hy] at hz hnext
    exact ⟨z, hz, htrans x y z hxy hG, hnext, hr.stable hG htrans hP⟩
  | right =>
    have hC : ∀ o ∈ c.right.next?, C e o (rep y) := fun o ho => hy ▸ hD o ho
    obtain ⟨z, hz, hG, hnext⟩ := hr.advance (hrefl y) (hrefl y) hC
    rw [← hy] at hz hnext
    exact ⟨z, hz, htrans x y z hxy hG, hl.stable hG htrans hQ, hnext⟩

theorem tracks_result {p : Program Op Res α} {a : α} {x : τ}
    (h : M.Tracks rep C G G Q p x) (ha : p.result? = some a) : Q a x := by
  rw [Program.eq_ret_of_result? ha] at h
  exact h

end Race

section Files
variable {K : Type} {V : K → Type} [DecidableEq K] {τ E α : Type} {rep : τ → Files K V}
variable {C : FileChoice → FileOp K V → Files K V → Prop} {R G : τ → τ → Prop}
variable {Q : Except (Failure E) α → τ → Prop} {x : τ}

theorem tracks_load_bind {k : K} {f : Loaded (V k) → FileProgram K V E α} (hG : ∀ x, G x x)
    (h : ∀ y, R x y → ∀ c, C c (.load k) (rep y) → disk.Tracks rep C R G Q (f (c.load.apply (rep y k))).run y) :
    disk.Tracks rep C R G Q (FileProgram.load k >>= f).run x :=
  fun y hy c hc => ⟨y, rfl, hG y, h y hy c hc⟩

theorem tracks_now_bind {f : ℕ → FileProgram K V E α} (hG : ∀ x, G x x)
    (h : ∀ y, R x y → ∀ n, disk.Tracks rep C R G Q (f n).run y) :
    disk.Tracks rep C R G Q (FileProgram.now >>= f).run x :=
  fun y hy c _ => ⟨y, rfl, hG y, h y hy c.clock⟩

theorem tracks_replace_bind {k : K} {v : V k} {f : Replaced → FileProgram K V E α} (hG : ∀ x, G x x)
    (hkeep : ∀ y, R x y → ∀ c, C c (.replace k v) (rep y) → c.replace.published = false →
      disk.Tracks rep C R G Q (f c.replace).run y)
    (hnew : ∀ y, R x y → ∀ c, C c (.replace k v) (rep y) → c.replace.published = true →
      ∃ z, (rep y).publish k v = rep z ∧ G y z ∧ disk.Tracks rep C R G Q (f c.replace).run z) :
    disk.Tracks rep C R G Q (FileProgram.replace k v >>= f).run x := by
  intro y hy c hc
  cases hp : c.replace.published with
  | false =>
    have hs : (disk.exec c (.replace k v) (rep y)).2 = rep y := by simp [disk, hp]
    exact ⟨y, hs, hG y, hkeep y hy c hc hp⟩
  | true =>
    have hs : (disk.exec c (.replace k v) (rep y)).2 = (rep y).publish k v := by simp [disk, hp]
    obtain ⟨z, hz, hyz, hnext⟩ := hnew y hy c hc hp
    exact ⟨z, hs.trans hz, hyz, hnext⟩

end Files
end Durable
