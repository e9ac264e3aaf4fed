import ZeroStack.Wire.Words

/-! Readers that consume bytes from the front of a buffer. A reader is exact for an encoding if it accepts precisely
the buffers that begin with the encoding of the value it returns. -/

namespace Wire

open List

structure Cursor where
  offset : ℕ
  rest : List UInt8
  deriving DecidableEq

def Cursor.new (bs : List UInt8) : Cursor := ⟨0, bs⟩

def Cursor.Splits (c : Cursor) (bs : List UInt8) (c' : Cursor) : Prop :=
  c.rest = bs ++ c'.rest ∧ c'.offset = c.offset + bs.length

def Cursor.Bounded (c : Cursor) : Prop := c.offset + c.rest.length < 2 ^ 64

abbrev Reader (ε α : Type) := StateT Cursor (Except ε) α

section Cursor
variable {c c' c'' : Cursor} {bs as : List UInt8}

theorem Cursor.Splits.bounded (h : c.Splits bs c') (hc : c.Bounded) : c'.Bounded := by
  unfold Bounded at *
  rw [h.1, length_append] at hc
  rw [h.2]
  omega

theorem Cursor.splits_nil : c.Splits [] c' ↔ c = c' := by
  constructor
  · rintro ⟨hrest, hoffset⟩
    cases c
    cases c'
    simp_all
  · rintro rfl
    exact ⟨rfl, rfl⟩

theorem Cursor.splits_append : c.Splits (bs ++ as) c' ↔ ∃ m, c.Splits bs m ∧ Cursor.Splits m as c' := by
  constructor
  · rintro ⟨hrest, hoffset⟩
    refine ⟨⟨c.offset + bs.length, as ++ c'.rest⟩, ⟨?_, rfl⟩, rfl, ?_⟩
    · rw [hrest, append_assoc]
    · rw [hoffset, length_append, Nat.add_assoc]
  · rintro ⟨m, ⟨hrest, hoffset⟩, hrest', hoffset'⟩
    constructor
    · rw [hrest, hrest', append_assoc]
    · rw [hoffset', hoffset, length_append, Nat.add_assoc]

theorem Cursor.splits_new {buffer : List UInt8} :
    (∃ c', (Cursor.new buffer).Splits bs c' ∧ c'.rest = []) ↔ buffer = bs := by
  constructor
  · rintro ⟨c', ⟨hrest, -⟩, hnil⟩
    rw [hnil, append_nil] at hrest
    exact hrest
  · rintro rfl
    exact ⟨⟨buffer.length, []⟩, ⟨by simp [new], by simp [new]⟩, rfl⟩

end Cursor

theorem bind_eq_ok {ε α β : Type} {x : Except ε α} {f : α → Except ε β} {b : β} :
    (x >>= f) = .ok b ↔ ∃ a, x = .ok a ∧ f a = .ok b := by
  cases x with
  | error e =>
    constructor
    · intro h
      cases h
    · rintro ⟨a, ha, -⟩
      cases ha
  | ok a =>
    constructor
    · exact fun h => ⟨a, rfl, h⟩
    · rintro ⟨a', ha, hb⟩
      cases ha
      exact hb

theorem bind_ok {ε α β : Type} {x : Except ε α} {f : α → Except ε β} {a : α} {b : β} (hx : x = .ok a)
    (hf : f a = .ok b) : (x >>= f) = .ok b := bind_eq_ok.mpr ⟨a, hx, hf⟩

theorem guard_eq_ok {ε α : Type*} {p : Prop} [Decidable p] {e : ε} {x : Except ε α} {a : α} :
    (if p then .error e else x) = .ok a ↔ ¬p ∧ x = .ok a := by
  by_cases h : p <;> simp [h]

namespace Reader
variable {ε α β : Type}

/-- `p` accepts the encodings of the values that satisfy `P`, and nothing else. -/
def Exact (p : Reader ε α) (P : α → Prop) (e : α → List UInt8) : Prop :=
  ∀ c, c.Bounded → ∀ a c', p.run c = .ok (a, c') ↔ P a ∧ c.Splits (e a) c'

def take (overflow eof : ε) (len : ℕ) : Reader ε (List UInt8) := fun c =>
  if 2 ^ 64 ≤ c.offset + len then .error overflow
  else if c.rest.length < len then .error eof
  else .ok (c.rest.take len, ⟨c.offset + len, c.rest.drop len⟩)

def beWord (overflow eof : ε) (w : ℕ) : Reader ε ℕ := ofBe <$> take overflow eof w

def check (overflow eof error : ε) (len : ℕ) (found : List UInt8 → Bool) : Reader ε Unit := do
  let bs ← take overflow eof len
  if found bs then pure () else throw error

def decode (p : Reader ε α) (f : α → Option β) (error : α → ε) : Reader ε β := do
  let a ← p
  match f a with
  | some b => pure b
  | none => throw (error a)

variable {f : α → Reader ε β}

theorem run_bind_ok {p : Reader ε α} {c c'' : Cursor} {b : β} :
    (p >>= f).run c = .ok (b, c'') ↔ ∃ a c', p.run c = .ok (a, c') ∧ (f a).run c' = .ok (b, c'') := by
  rw [StateT.run_bind, bind_eq_ok]
  exact Prod.exists

theorem run_pure_ok {a b : α} {c c' : Cursor} : (pure a : Reader ε α).run c = .ok (b, c') ↔ b = a ∧ c = c' := by
  constructor
  · intro h
    cases h
    exact ⟨rfl, rfl⟩
  · rintro ⟨rfl, rfl⟩
    rfl

theorem run_throw_ok {e : ε} {b : α} {c c' : Cursor} : ¬ (throw e : Reader ε α).run c = .ok (b, c') := by
  intro h
  cases h

theorem Exact.bind_ok {p : Reader ε α} {P : α → Prop} {e : α → List UInt8} (hp : p.Exact P e) {c c'' : Cursor}
    (hc : c.Bounded) {b : β} : (p >>= f).run c = .ok (b, c'') ↔
      ∃ a c', P a ∧ c.Splits (e a) c' ∧ (f a).run c' = .ok (b, c'') := by
  rw [run_bind_ok]
  constructor
  · rintro ⟨a, c', ha, hb⟩
    obtain ⟨hP, hs⟩ := (hp c hc a c').mp ha
    exact ⟨a, c', hP, hs, hb⟩
  · rintro ⟨a, c', hP, hs, hb⟩
    exact ⟨a, c', (hp c hc a c').mpr ⟨hP, hs⟩, hb⟩

variable (overflow eof : ε)

theorem exact_take (len : ℕ) : (take overflow eof len).Exact (fun bs => bs.length = len) id := by
  intro c hc bs c'
  unfold Cursor.Bounded at hc
  change (if _ then _ else _) = _ ↔ _
  constructor
  · intro h
    split_ifs at h with hover hshort
    cases h
    have hlen : (c.rest.take len).length = len := by
      rw [length_take]
      omega
    exact ⟨hlen, (take_append_drop len c.rest).symm, by rw [id, hlen]⟩
  · rintro ⟨rfl, hrest, hoffset⟩
    have hrest' : c.rest = bs ++ c'.rest := hrest
    have hlength : c.rest.length = bs.length + c'.rest.length := by rw [hrest', length_append]
    rw [if_neg (by omega)]
    cases c'
    simp_all

theorem exact_check (error : ε) {found : List UInt8 → Bool} (mark : List UInt8)
    (hfound : ∀ bs, bs.length = mark.length → (found bs = true ↔ bs = mark)) :
    (check overflow eof error mark.length found).Exact (fun _ => True) (fun _ => mark) := by
  intro c hc u c'
  rw [check, (exact_take overflow eof mark.length).bind_ok hc]
  constructor
  · rintro ⟨bs, m, hlen, hsplit, hrest⟩
    split_ifs at hrest with hmark
    · obtain ⟨-, rfl⟩ := run_pure_ok.mp hrest
      rw [← (hfound bs hlen).mp hmark]
      exact ⟨trivial, hsplit⟩
    · exact (run_throw_ok hrest).elim
  · rintro ⟨-, hsplit⟩
    refine ⟨mark, c', rfl, hsplit, ?_⟩
    rw [if_pos ((hfound mark rfl).mpr rfl)]
    rfl

section Sequence
variable {p : Reader ε α} {P : α → Prop} {e : α → List UInt8} {S : β → Prop} {e' : β → List UInt8}

theorem Exact.bind (hp : p.Exact (fun _ => True) e) (field : β → α)
    (hf : ∀ a, (f a).Exact (fun b => S b ∧ field b = a) e') : (p >>= f).Exact S (fun b => e (field b) ++ e' b) := by
  intro c hc b c''
  rw [hp.bind_ok hc, Cursor.splits_append]
  constructor
  · rintro ⟨a, c', -, hsplit, hrest⟩
    obtain ⟨⟨hS, rfl⟩, hsplit'⟩ := (hf a c' (hsplit.bounded hc) b c'').mp hrest
    exact ⟨hS, c', hsplit, hsplit'⟩
  · rintro ⟨hS, c', hsplit, hsplit'⟩
    exact ⟨field b, c', trivial, hsplit, (hf _ c' (hsplit.bounded hc) b c'').mpr ⟨⟨hS, rfl⟩, hsplit'⟩⟩

theorem Exact.after {mark : List UInt8} {q : Reader ε Unit} {r : Reader ε β}
    (hq : q.Exact (fun _ => True) fun _ => mark) (hr : r.Exact S e') :
    (q >>= fun _ => r).Exact S (fun b => mark ++ e' b) :=
  hq.bind (fun _ => ()) fun _ => by simpa using hr

theorem Exact.close {mark : List UInt8} {q : Reader ε Unit} (hq : q.Exact (fun _ => True) fun _ => mark)
    {b : β} (hS : ∀ b', S b' ↔ b' = b) : (q >>= fun _ => pure b).Exact S (fun _ => mark) := by
  intro c hc b' c'
  rw [hq.bind_ok hc, hS]
  simp only [run_pure_ok]
  constructor
  · rintro ⟨-, m, -, hsplit, rfl, rfl⟩
    exact ⟨rfl, hsplit⟩
  · rintro ⟨rfl, hsplit⟩
    exact ⟨(), c', trivial, hsplit, rfl, rfl⟩

theorem Exact.map (hp : p.Exact P e) {f : α → β} {g : β → α} (hf : ∀ b, S b → P (g b) ∧ f (g b) = b)
    (hg : ∀ a, P a → S (f a) ∧ g (f a) = a) : (f <$> p).Exact S (fun b => e (g b)) := by
  intro c hc b c'
  rw [← bind_pure_comp, hp.bind_ok hc]
  simp only [run_pure_ok]
  constructor
  · rintro ⟨a, c'', hP, hsplit, rfl, rfl⟩
    obtain ⟨hS, hback⟩ := hg a hP
    rw [hback]
    exact ⟨hS, hsplit⟩
  · rintro ⟨hS, hsplit⟩
    exact ⟨g b, c', (hf b hS).1, hsplit, (hf b hS).2.symm, rfl⟩

theorem exact_beWord (w : ℕ) : (beWord overflow eof w).Exact (· < 256 ^ w) (beBytes w) := by
  refine (exact_take overflow eof w).map (fun n hn => ⟨length_beBytes w n, ofBe_beBytes hn⟩) fun bs hbs => ?_
  have hlen : bs.length = w := hbs
  subst hlen
  exact ⟨ofBe_lt bs, beBytes_ofBe bs⟩

theorem Exact.decode (hp : p.Exact (fun _ => True) e) {f : α → Option β} {g : β → α}
    (hf : ∀ a b, f a = some b ↔ a = g b) (error : α → ε) :
    (p.decode f error).Exact (fun _ => True) (fun b => e (g b)) := by
  intro c hc b c'
  rw [Reader.decode, hp.bind_ok hc]
  constructor
  · rintro ⟨a, m, -, hsplit, hrest⟩
    cases hfa : f a with
    | none =>
      rw [hfa] at hrest
      exact (run_throw_ok hrest).elim
    | some b' =>
      rw [hfa] at hrest
      obtain ⟨rfl, rfl⟩ := run_pure_ok.mp hrest
      obtain rfl := (hf a b).mp hfa
      exact ⟨trivial, hsplit⟩
  · rintro ⟨-, hsplit⟩
    refine ⟨g b, c', trivial, hsplit, ?_⟩
    rw [(hf (g b) b).mpr rfl]
    rfl

def times (p : Reader ε α) : ℕ → Reader ε (List α)
  | 0 => pure []
  | n + 1 => do
    let a ← p
    let as ← times p n
    pure (a :: as)

theorem Exact.times (hp : p.Exact P e) (n : ℕ) :
    (p.times n).Exact (fun as => as.length = n ∧ ∀ a ∈ as, P a) (fun as => as.flatMap e) := by
  induction n with
  | zero =>
    intro c hc as c'
    rw [Reader.times, run_pure_ok]
    constructor
    · rintro ⟨rfl, rfl⟩
      exact ⟨⟨rfl, fun _ ha => (not_mem_nil ha).elim⟩, Cursor.splits_nil.mpr rfl⟩
    · rintro ⟨⟨hlen, -⟩, hsplit⟩
      have hnil : as = [] := length_eq_zero_iff.mp hlen
      subst hnil
      exact ⟨rfl, Cursor.splits_nil.mp hsplit⟩
  | succ n ih =>
    intro c hc as c''
    rw [Reader.times, hp.bind_ok hc]
    constructor
    · rintro ⟨a, c', hP, hsplit, hrest⟩
      obtain ⟨as', m, ⟨hlen, hall⟩, hsplit', hlast⟩ := (ih.bind_ok (hsplit.bounded hc)).mp hrest
      obtain ⟨rfl, rfl⟩ := run_pure_ok.mp hlast
      refine ⟨⟨congrArg (· + 1) hlen, forall_mem_cons.mpr ⟨hP, hall⟩⟩, ?_⟩
      exact Cursor.splits_append.mpr ⟨c', hsplit, hsplit'⟩
    · rintro ⟨⟨hlen, hall⟩, hsplit⟩
      cases as with
      | nil => cases hlen
      | cons a as =>
        obtain ⟨c', hsplit, hsplit'⟩ := Cursor.splits_append.mp hsplit
        obtain ⟨hP, hall'⟩ := forall_mem_cons.mp hall
        refine ⟨a, c', hP, hsplit, (ih.bind_ok (hsplit.bounded hc)).mpr ?_⟩
        exact ⟨as, c'', ⟨Nat.succ.inj hlen, hall'⟩, hsplit', run_pure_ok.mpr ⟨rfl, rfl⟩⟩

end Sequence

end Reader
end Wire
