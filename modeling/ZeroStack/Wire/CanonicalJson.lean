import ZeroStack.Wire.Decimal
import ZeroStack.Wire.Hex
import ZeroStack.Wire.Json
import ZeroStack.Wire.Utf8

/-! JSON trees in their canonical form: no spaces, members in the order of their names. The form says where it ends,
so that trees are equal as soon as their bytes are. -/

namespace Wire

open List

def isNumeric (b : UInt8) : Bool := (48 ≤ b && b ≤ 57) || b = 43 || b = 45 || b = 46 || b = 69 || b = 101

structure Number where
  text : List UInt8
  ne_nil : text ≠ []
  numeric : ∀ b ∈ text, isNumeric b = true
  deriving DecidableEq

inductive Json where
  | null
  | bool (b : Bool)
  | num (n : Number)
  | str (s : List UInt8)
  | arr (items : List Json)
  | obj (members : List (String × Json))

inductive Json.Kind where
  | null | bool | num | str | arr | obj
  deriving DecidableEq

namespace Json

def quoted (s : List UInt8) : List UInt8 := quote :: (escape s ++ [quote])

def quotedName (name : String) : List UInt8 := quoted (utf8Bytes name)

mutual

def canonical : Json → List UInt8
  | null => [110, 117, 108, 108]
  | bool true => [116, 114, 117, 101]
  | bool false => [102, 97, 108, 115, 101]
  | num n => n.text
  | str s => quoted s
  | arr [] => [91, 93]
  | arr (v :: rest) => 91 :: (canonical v ++ itemsAfter rest)
  | obj [] => [123, 125]
  | obj ((k, v) :: rest) => 123 :: (quotedName k ++ 58 :: (canonical v ++ membersAfter rest))

def itemsAfter : List Json → List UInt8
  | [] => [93]
  | v :: rest => 44 :: (canonical v ++ itemsAfter rest)

def membersAfter : List (String × Json) → List UInt8
  | [] => [125]
  | (k, v) :: rest => 44 :: (quotedName k ++ 58 :: (canonical v ++ membersAfter rest))

end

def kind : Json → Kind
  | null => .null
  | bool _ => .bool
  | num _ => .num
  | str _ => .str
  | arr _ => .arr
  | obj _ => .obj

def kindAt (b : UInt8) : Kind :=
  if b = 110 then .null
  else if b = 116 ∨ b = 102 then .bool
  else if b = quote then .str
  else if b = 91 then .arr
  else if b = 123 then .obj
  else .num

def Stops (rest : List UInt8) : Prop := ∀ b ∈ rest.head?, isNumeric b = false

theorem quoted_append_inj {s t x y : List UInt8} (h : quoted s ++ x = quoted t ++ y) : s = t ∧ x = y := by
  have hbody : escape s ++ quote :: x = escape t ++ quote :: y := by simpa [quoted] using h
  have hs := readString_escape (show s.length < max s.length t.length + 1 by omega) x
  have ht := readString_escape (show t.length < max s.length t.length + 1 by omega) y
  rw [hbody, ht] at hs
  simp only [Option.some.injEq, Prod.mk.injEq] at hs
  exact ⟨hs.1.symm, hs.2.symm⟩

theorem quotedName_append_inj {s t : String} {x y : List UInt8} (h : quotedName s ++ x = quotedName t ++ y) :
    s = t ∧ x = y := by
  obtain ⟨hname, hrest⟩ := quoted_append_inj h
  exact ⟨utf8Bytes_inj hname, hrest⟩

theorem stops_itemsAfter (items : List Json) (rest : List UInt8) : Stops (itemsAfter items ++ rest) := by
  cases items with
  | nil | cons v items => simp [itemsAfter, Stops, isNumeric]

theorem stops_membersAfter (members : List (String × Json)) (rest : List UInt8) :
    Stops (membersAfter members ++ rest) := by
  rcases members with _ | ⟨⟨k, v⟩, members⟩ <;> simp [membersAfter, Stops, isNumeric]

theorem numeric_append_inj {m n x y : List UInt8} (hm : ∀ b ∈ m, isNumeric b = true) (hn : ∀ b ∈ n, isNumeric b = true)
    (hx : Stops x) (hy : Stops y) (h : m ++ x = n ++ y) : m = n ∧ x = y := by
  have hcut : ∀ {l rest : List UInt8}, (∀ b ∈ l, isNumeric b = true) → Stops rest →
      (l ++ rest).takeWhile isNumeric = l := by
    intro l rest hl hrest
    rw [takeWhile_append_of_pos hl]
    cases rest with
    | nil => exact append_nil l
    | cons b rest => simp [hrest b rfl]
  have htext : m = n := by rw [← hcut hm hx, h, hcut hn hy]
  subst htext
  exact ⟨rfl, append_cancel_left h⟩

theorem kindAt_of_isNumeric {b : UInt8} (h : isNumeric b = true) : kindAt b = .num := by
  have hother : ∀ c ∈ [110, 116, 102, quote, 91, 123], b ≠ c := by
    rintro c hc rfl
    have hnot : ∀ c ∈ [110, 116, 102, quote, 91, 123], isNumeric c = false := by
      simp [isNumeric, quote]
    rw [hnot b hc] at h
    cases h
  simp [kindAt, hother]

theorem canonical_head (v : Json) : ∃ b rest, canonical v = b :: rest ∧ kindAt b = v.kind ∧ b ≠ 93 := by
  cases v with
  | null => exact ⟨_, _, by rw [canonical], rfl, by decide⟩
  | bool b =>
    cases b with
    | true | false => exact ⟨_, _, by rw [canonical], rfl, by decide⟩
  | num n =>
    obtain ⟨b, rest, htext⟩ := exists_cons_of_ne_nil n.ne_nil
    have hb : isNumeric b = true := n.numeric b (by rw [htext]; exact mem_cons_self)
    refine ⟨b, rest, by rw [canonical, htext], kindAt_of_isNumeric hb, ?_⟩
    rintro rfl
    cases hb
  | str s => exact ⟨_, _, by rw [canonical, quoted], rfl, by decide⟩
  | arr items =>
    cases items with
    | nil | cons v items => exact ⟨_, _, by rw [canonical], rfl, by decide⟩
  | obj members =>
    rcases members with _ | ⟨⟨k, v⟩, members⟩ <;> exact ⟨_, _, by rw [canonical], rfl, by decide⟩

theorem kind_eq_of_canonical {v w : Json} {x y : List UInt8} (h : canonical v ++ x = canonical w ++ y) :
    v.kind = w.kind := by
  obtain ⟨b, r, hv, hb, -⟩ := canonical_head v
  obtain ⟨c, s, hw, hc, -⟩ := canonical_head w
  rw [hv, hw] at h
  have hbc : b = c := (List.cons.inj h).1
  rw [← hb, ← hc, hbc]

theorem canonical_append_ne_bracket (v : Json) (x y : List UInt8) : canonical v ++ x ≠ 93 :: y := by
  intro h
  obtain ⟨b, rest, hv, -, hb⟩ := canonical_head v
  rw [hv] at h
  exact hb (List.cons.inj h).1

mutual

theorem canonical_append_inj : ∀ v w {x y : List UInt8}, Stops x → Stops y →
    canonical v ++ x = canonical w ++ y → v = w ∧ x = y
  | null, w, x, y, _, _, h => by
    have hkind := kind_eq_of_canonical h
    cases w <;> cases hkind
    exact ⟨rfl, by simpa [canonical] using h⟩
  | bool b, w, x, y, _, _, h => by
    have hkind := kind_eq_of_canonical h
    cases w <;> cases hkind
    rename_i c
    cases b <;> cases c <;> simp [canonical] at h ⊢ <;> exact h
  | num m, w, x, y, hx, hy, h => by
    have hkind := kind_eq_of_canonical h
    cases w <;> cases hkind
    rename_i n
    simp only [canonical] at h
    obtain ⟨htext, hrest⟩ := numeric_append_inj m.numeric n.numeric hx hy h
    cases m
    cases n
    cases htext
    exact ⟨rfl, hrest⟩
  | str s, w, x, y, _, _, h => by
    have hkind := kind_eq_of_canonical h
    cases w <;> cases hkind
    simp only [canonical] at h
    obtain ⟨rfl, hrest⟩ := quoted_append_inj h
    exact ⟨rfl, hrest⟩
  | arr [], w, x, y, _, _, h => by
    have hkind := kind_eq_of_canonical h
    cases w <;> cases hkind
    rename_i ws
    cases ws with
    | nil => exact ⟨rfl, by simpa [canonical] using h⟩
    | cons w ws =>
      simp only [canonical, cons_append, append_assoc, List.cons.injEq, true_and] at h
      exact absurd h.symm (canonical_append_ne_bracket w _ x)
  | arr (v :: vs), w, x, y, _, _, h => by
    have hkind := kind_eq_of_canonical h
    cases w <;> cases hkind
    rename_i ws
    cases ws with
    | nil =>
      simp only [canonical, cons_append, append_assoc, List.cons.injEq, true_and] at h
      exact absurd h (canonical_append_ne_bracket v _ y)
    | cons w ws =>
      have hafter : itemsAfter (v :: vs) ++ x = itemsAfter (w :: ws) ++ y := by simpa [canonical, itemsAfter] using h
      obtain ⟨hitems, hrest⟩ := itemsAfter_append_inj (v :: vs) (w :: ws) hafter
      exact ⟨congrArg arr hitems, hrest⟩
  | obj [], w, x, y, _, _, h => by
    have hkind := kind_eq_of_canonical h
    cases w <;> cases hkind
    rename_i ns
    rcases ns with _ | ⟨⟨l, w⟩, ns⟩
    · exact ⟨rfl, by simpa [canonical] using h⟩
    · simp [canonical, quotedName, quoted, quote] at h
  | obj ((k, v) :: ms), w, x, y, _, _, h => by
    have hkind := kind_eq_of_canonical h
    cases w <;> cases hkind
    rename_i ns
    rcases ns with _ | ⟨⟨l, w⟩, ns⟩
    · simp [canonical, quotedName, quoted, quote] at h
    · have hafter : membersAfter ((k, v) :: ms) ++ x = membersAfter ((l, w) :: ns) ++ y := by
        simpa [canonical, membersAfter] using h
      obtain ⟨hmembers, hrest⟩ := membersAfter_append_inj ((k, v) :: ms) ((l, w) :: ns) hafter
      exact ⟨congrArg obj hmembers, hrest⟩

theorem itemsAfter_append_inj : ∀ vs ws {x y : List UInt8},
    itemsAfter vs ++ x = itemsAfter ws ++ y → vs = ws ∧ x = y
  | [], [], _, _, h => ⟨rfl, by simpa [itemsAfter] using h⟩
  | [], w :: ws, _, _, h | v :: vs, [], _, _, h => by simp [itemsAfter] at h
  | v :: vs, w :: ws, x, y, h => by
    simp only [itemsAfter, cons_append, append_assoc, List.cons.injEq, true_and] at h
    obtain ⟨rfl, hafter⟩ := canonical_append_inj v w (stops_itemsAfter vs x) (stops_itemsAfter ws y) h
    obtain ⟨rfl, hrest⟩ := itemsAfter_append_inj vs ws hafter
    exact ⟨rfl, hrest⟩

theorem membersAfter_append_inj : ∀ ms ns {x y : List UInt8},
    membersAfter ms ++ x = membersAfter ns ++ y → ms = ns ∧ x = y
  | [], [], _, _, h => ⟨rfl, by simpa [membersAfter] using h⟩
  | [], (l, w) :: ns, _, _, h | (k, v) :: ms, [], _, _, h => by simp [membersAfter] at h
  | (k, v) :: ms, (l, w) :: ns, x, y, h => by
    simp only [membersAfter, cons_append, append_assoc, List.cons.injEq, true_and] at h
    obtain ⟨rfl, hvalue⟩ := quotedName_append_inj h
    obtain ⟨rfl, hafter⟩ := canonical_append_inj v w (stops_membersAfter ms x) (stops_membersAfter ns y)
      (List.cons.inj hvalue).2
    obtain ⟨rfl, hrest⟩ := membersAfter_append_inj ms ns hafter
    exact ⟨rfl, hrest⟩

end

theorem canonical_inj {v w : Json} (h : canonical v = canonical w) : v = w := by
  have hnil : Stops [] := by simp [Stops]
  have happend : canonical v ++ [] = canonical w ++ [] := by rw [h]
  exact (canonical_append_inj v w hnil hnil happend).1

instance : DecidableEq Json := fun v w => decidable_of_iff (canonical v = canonical w)
  ⟨canonical_inj, fun h => congrArg canonical h⟩

def text (s : String) : Json := str (utf8Bytes s)

@[simp] theorem text_inj {s t : String} : text s = text t ↔ s = t := by
  constructor
  · intro h
    exact utf8Bytes_inj (str.inj h)
  · rintro rfl
    rfl

theorem toNat_of_mem_decimal {n : ℕ} {c : Char} (h : c ∈ decimal n) : 48 ≤ c.toNat ∧ c.toNat ≤ 57 := by
  have hdigit := isDigit_of_mem_decimal h
  simp only [Char.isDigit, Bool.and_eq_true, decide_eq_true_eq] at hdigit
  exact hdigit

def decimalBytes (n : ℕ) : List UInt8 := (decimal n).map fun c => UInt8.ofNat c.toNat

theorem map_decimalBytes (n : ℕ) : (decimalBytes n).map (fun b => Char.ofNat b.toNat) = decimal n := by
  rw [decimalBytes, map_map]
  conv_rhs => rw [← map_id (decimal n)]
  apply map_congr_left
  intro c hc
  have hrange := toNat_of_mem_decimal hc
  have hsmall : (UInt8.ofNat c.toNat).toNat = c.toNat := by
    rw [UInt8.toNat_ofNat']
    omega
  show Char.ofNat (UInt8.ofNat c.toNat).toNat = c
  rw [hsmall, Char.ofNat_toNat]

theorem decimalBytes_inj {m n : ℕ} (h : decimalBytes m = decimalBytes n) : m = n := by
  have hdecimal : decimal m = decimal n := by rw [← map_decimalBytes m, h, map_decimalBytes n]
  have hvalue := congrArg (fun s => Nat.ofDigitChars 10 s 0) hdecimal
  simpa only [decimal, Nat.ofDigitChars_ten_toDigits] using hvalue

theorem isNumeric_of_mem_decimalBytes {n : ℕ} {b : UInt8} (h : b ∈ decimalBytes n) : isNumeric b = true := by
  obtain ⟨c, hc, rfl⟩ := mem_map.mp h
  have hrange := toNat_of_mem_decimal hc
  have hall : ∀ d : Fin 10, isNumeric (UInt8.ofNat (48 + d)) = true := by decide
  have hd := hall ⟨c.toNat - 48, by omega⟩
  simpa only [Nat.add_sub_cancel' hrange.1] using hd

def nat (n : ℕ) : Json :=
  num ⟨decimalBytes n, by simp [decimalBytes, decimal_ne_nil], fun _ h => isNumeric_of_mem_decimalBytes h⟩

@[simp] theorem nat_inj {m n : ℕ} : nat m = nat n ↔ m = n := by
  constructor
  · intro h
    exact decimalBytes_inj (congrArg Number.text (num.inj h))
  · rintro rfl
    rfl

def option {α : Type*} (f : α → Json) : Option α → Json
  | none => null
  | some a => f a

theorem option_inj {α : Type*} {f : α → Json} (hf : Function.Injective f) (hnull : ∀ a, f a ≠ null) :
    Function.Injective (option f) := by
  intro a b h
  cases a with
  | none =>
    cases b with
    | none => rfl
    | some b => exact absurd h.symm (hnull b)
  | some a =>
    cases b with
    | none => exact absurd h (hnull a)
    | some b => exact congrArg some (hf h)

def hex (bytes : List UInt8) : Json := str (bytes.flatMap fun b => [hexByte (b.toNat / 16), hexByte (b.toNat % 16)])

theorem hex_inj : Function.Injective hex :=
  fun _ _ h => hexPairs_injective (by decide) (str.inj h)

mutual

/-- The length of the indented form of a tree, on a line that begins with `indent` blanks. -/
def prettyLength (indent : ℕ) : Json → ℕ
  | null => 4
  | bool b => if b then 4 else 5
  | num n => n.text.length
  | str s => (quoted s).length
  | arr [] => 2
  | arr (v :: rest) => 1 + (1 + (indent + 2) + prettyLength (indent + 2) v + prettyItemsAfter indent rest)
  | obj [] => 2
  | obj ((k, v) :: rest) =>
    1 + (1 + (indent + 2) + (quotedName k).length + 2 + prettyLength (indent + 2) v + prettyMembersAfter indent rest)

def prettyItemsAfter (indent : ℕ) : List Json → ℕ
  | [] => 1 + indent + 1
  | v :: rest => 1 + (1 + (indent + 2) + prettyLength (indent + 2) v + prettyItemsAfter indent rest)

def prettyMembersAfter (indent : ℕ) : List (String × Json) → ℕ
  | [] => 1 + indent + 1
  | (k, v) :: rest =>
    1 + (1 + (indent + 2) + (quotedName k).length + 2 + prettyLength (indent + 2) v + prettyMembersAfter indent rest)

end

end Json
end Wire
