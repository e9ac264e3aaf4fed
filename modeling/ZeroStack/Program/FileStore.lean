import ZeroStack.Program.Fallible

/-! Files that hold one record each and are replaced by renaming a temporary file. Every way in which a read or a
replacement can fail is a choice of the environment. -/

namespace Durable

inductive Foreign where
  | notRegular (error : String)
  | tooLarge
  | undecodable (error : String)
  | noncanonical
  deriving DecidableEq

inductive Slot (α : Type) where
  | absent
  | foreign (why : Foreign)
  | record (value : α)
  deriving DecidableEq

def Slot.any {α : Type} (p : α → Bool) : Slot α → Bool
  | .record v => p v
  | _ => false

def Slot.all {α : Type} (p : α → Bool) : Slot α → Bool
  | .record v => p v
  | _ => true

inductive Loaded (α : Type) where
  | statFailed (error : String)
  | readFailed (error : String)
  | found (slot : Slot α)
  deriving DecidableEq

inductive LoadFault where
  | none
  | stat (error : String)
  | read (error : String)
  deriving DecidableEq

inductive Replaced where
  | done
  | createFailed (error : String)
  | crashBeforeWrite
  | writeFailed (error : String)
  | syncFailed (error : String)
  | crashAfterFileSync
  | renameFailed (error : String)
  | crashAfterRename
  | directorySyncFailed (error : String)
  | crashAfterDirectorySync
  deriving DecidableEq

def Replaced.published : Replaced → Bool
  | .done | .crashAfterRename | .directorySyncFailed _ | .crashAfterDirectorySync => true
  | _ => false

structure FileChoice where
  load : LoadFault
  replace : Replaced
  clock : ℕ
  deriving DecidableEq

inductive FileOp (K : Type) (V : K → Type) where
  | load (k : K)
  | replace (k : K) (v : V k)
  | now

def FileOp.Res {K : Type} {V : K → Type} : FileOp K V → Type
  | .load k => Loaded (V k)
  | .replace _ _ => Replaced
  | .now => ℕ

abbrev Files (K : Type) (V : K → Type) := (k : K) → Slot (V k)

variable {K : Type} {V : K → Type}

def LoadFault.apply {α : Type} (s : Slot α) : LoadFault → Loaded α
  | .none => .found s
  | .stat e => .statFailed e
  | .read e => .readFailed e

namespace Files
variable [DecidableEq K]

def empty : Files K V := fun _ => .absent

def publish (s : Files K V) (k : K) (v : V k) : Files K V := Function.update s k (.record v)

@[simp] theorem publish_self (s : Files K V) (k : K) (v : V k) : s.publish k v k = .record v :=
  Function.update_self ..

theorem publish_of_ne (s : Files K V) {k j : K} (v : V k) (h : j ≠ k) : s.publish k v j = s j :=
  Function.update_of_ne h ..

end Files

def disk [DecidableEq K] : Machine (FileOp K V) FileOp.Res (Files K V) FileChoice where
  exec c o s := match o with
    | .load k => (c.load.apply (s k), s)
    | .replace k v => (c.replace, if c.replace.published then s.publish k v else s)
    | .now => (c.clock, s)

abbrev FileProgram (K : Type) (V : K → Type) (E α : Type) := Fallible (FileOp K V) FileOp.Res E α

namespace FileProgram
variable {E : Type}

def load (k : K) : FileProgram K V E (Loaded (V k)) := Fallible.call (FileOp.load k)

def replace (k : K) (v : V k) : FileProgram K V E Replaced := Fallible.call (FileOp.replace k v)

def now : FileProgram K V E ℕ := Fallible.call FileOp.now

end FileProgram

def NoFault : FileChoice → FileOp K V → Files K V → Prop :=
  fun c _ _ => c.load = .none ∧ c.replace = .done

def quiet : FileChoice := ⟨.none, .done, 0⟩

def FaultFree (env : ℕ → FileChoice) : Prop := ∀ i, (env i).load = .none ∧ (env i).replace = .done

theorem faultFree_quiet : FaultFree fun _ => quiet := fun _ => ⟨rfl, rfl⟩

def Faulty (C : FileChoice → FileOp K V → Files K V → Prop) (s : Files K V) : Prop :=
  ∃ k c, C c (.load k) s ∧ c.load ≠ .none

theorem not_faulty_noFault (s : Files K V) : ¬ Faulty NoFault s :=
  fun ⟨_, _, hc, hne⟩ => hne hc.1

section Rules
variable [DecidableEq K] {C : FileChoice → FileOp K V → Files K V → Prop}
variable {G : Files K V → Files K V → Prop} {E α : Type}
variable {Q : Except (Failure E) α → Files K V → Prop} {s : Files K V}

theorem safe_load_bind {k : K} {f : Loaded (V k) → FileProgram K V E α} (hG : G s s)
    (h : ∀ c, C c (.load k) s → disk.Safe C G Q (f (c.load.apply (s k))).run s) :
    disk.Safe C G Q (FileProgram.load k >>= f).run s := fun c hc => ⟨hG, h c hc⟩

theorem safe_replace_bind {k : K} {v : V k} {f : Replaced → FileProgram K V E α}
    (hkeep : ∀ c, C c (.replace k v) s → c.replace.published = false → G s s ∧ disk.Safe C G Q (f c.replace).run s)
    (hnew : ∀ c, C c (.replace k v) s → c.replace.published = true →
      G s (s.publish k v) ∧ disk.Safe C G Q (f c.replace).run (s.publish k v)) :
    disk.Safe C G Q (FileProgram.replace k v >>= f).run s := by
  intro c hc
  cases hp : c.replace.published with
  | false =>
    have hs : (disk.exec c (.replace k v) s).2 = s := by simp [disk, hp]
    rw [hs]
    exact hkeep c hc hp
  | true =>
    have hs : (disk.exec c (.replace k v) s).2 = s.publish k v := by simp [disk, hp]
    rw [hs]
    exact hnew c hc hp

end Rules

/-- `x` changes no file: on `s` it ends with `r`, or after a failed read with an error
in `bad`. -/
def Reads [DecidableEq K] {E α : Type} (x : FileProgram K V E α) (s : Files K V)
    (r : Except (Failure E) α) (bad : E → Prop) : Prop :=
  ∀ (C : FileChoice → FileOp K V → Files K V → Prop) (G : Files K V → Files K V → Prop)
    (Q : Except (Failure E) α → Files K V → Prop), G s s → Q r s →
      (Faulty C s → ∀ e, bad e → Q (.error (.err e)) s) → disk.Safe C G Q x.run s

namespace Reads
variable [DecidableEq K] {E α β : Type} {x : FileProgram K V E α} {s : Files K V}
variable {r : Except (Failure E) β} {bad : E → Prop}

theorem ofPure (a : α) : Reads (pure a : FileProgram K V E α) s (.ok a) bad :=
  fun _ _ _ _ hQ _ => hQ

theorem ofFail (e : E) : Reads (Fallible.fail e : FileProgram K V E α) s (.error (.err e)) bad :=
  fun _ _ _ _ hQ _ => hQ

theorem ofExcept (y : Except E α) : Reads (Fallible.ofExcept y : FileProgram K V E α) s (Fallible.outcome y) bad := by
  cases y with
  | ok a => exact ofPure a
  | error e => exact ofFail e

variable {f : α → FileProgram K V E β}

theorem safe_bind {C : FileChoice → FileOp K V → Files K V → Prop}
    {G : Files K V → Files K V → Prop} {Q : Except (Failure E) β → Files K V → Prop} {a : α}
    (hx : Reads x s (.ok a) bad) (hG : G s s)
    (hf : disk.Safe C G Q (f a).run s) (hbad : Faulty C s → ∀ e, bad e → Q (.error (.err e)) s) :
    disk.Safe C G Q (x >>= f).run s := Machine.safe_bind.mpr (hx C G _ hG hf hbad)

theorem bind {a : α} (hx : Reads x s (.ok a) bad) (hf : Reads (f a) s r bad) : Reads (x >>= f) s r bad :=
  fun C G Q hG hQ hbad => hx.safe_bind hG (hf C G Q hG hQ hbad) hbad

theorem bind_error {e : Failure E} (hx : Reads x s (.error e) bad) : Reads (x >>= f) s (.error e) bad :=
  fun C G _ hG hQ hbad => Machine.safe_bind.mpr (hx C G _ hG hQ hbad)

theorem observe_bind {r' : Except (Failure E) α}
    {f : Except (Failure E) α → FileProgram K V E β} (hx : Reads x s r' bad) (hf : Reads (f r') s r bad)
    (hbad : ∀ e, bad e → Reads (f (.error (.err e))) s r bad ∨
      ∃ e', bad e' ∧ Reads (f (.error (.err e))) s (.error (.err e')) bad) : Reads (x.observe >>= f) s r bad := by
  intro C G Q hG hQ hQbad
  rw [Fallible.run_observe_bind]
  refine Machine.safe_bind.mpr (hx C G _ hG (hf C G Q hG hQ hQbad) fun hF e he => ?_)
  rcases hbad e he with h | ⟨e', he', h⟩
  · exact h C G Q hG hQ hQbad
  · exact h C G Q hG (hQbad hF e' he') hQbad

theorem noFault {r : Except (Failure E) α} (hx : Reads x s r bad) :
    disk.Safe NoFault (· = ·) (fun r' t => t = s ∧ r' = r) x.run s :=
  hx _ _ _ rfl ⟨rfl, rfl⟩ fun hF => absurd hF (not_faulty_noFault s)

theorem run_eq {r : Except (Failure E) α} {env : ℕ → FileChoice} (hx : Reads x s r bad)
    (henv : FaultFree env) : disk.run x.run env s = (r, s) := by
  obtain ⟨ht, hr⟩ := hx.noFault.run (disk.along_of_forall (fun i _ _ => henv i) _ s)
  exact Prod.ext hr ht

theorem safe_of_bind {C : FileChoice → FileOp K V → Files K V → Prop}
    {G : Files K V → Files K V → Prop} {Q : Except (Failure E) β → Files K V → Prop} {a : α} {env : ℕ → FileChoice}
    (hx : Reads x s (.ok a) bad)
    (henv : FaultFree env) (hC : ∀ i o u, C (env i) o u)
    (h : disk.Safe C G Q (x >>= f).run s) : disk.Safe C G Q (f a).run s := by
  have hrun : disk.Safe C G Q (ExceptT.bindCont f (disk.run x.run env s).1)
      (disk.run x.run env s).2 :=
    (Machine.safe_bind.mp h).run (disk.along_of_forall hC _ s)
  rw [hx.run_eq henv] at hrun
  exact hrun

theorem states_eq {r : Except (Failure E) α} (hx : Reads x s r bad) (env : ℕ → FileChoice) :
    ∀ t ∈ disk.states x.run env s, t = s := by
  have hsafe : disk.Safe Machine.Free (fun u t => u = s → t = s) (fun _ _ => True) x.run s :=
    hx _ _ _ (fun h => h) trivial fun _ _ _ => trivial
  intro t ht
  exact Machine.isChain_invariant (I := (· = s)) (fun u t hu h => h hu) rfl
    (hsafe.isChain (disk.along_free _ env s)) t (List.mem_cons_of_mem s ht)

end Reads
end Durable
