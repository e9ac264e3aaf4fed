import ZeroStack.Wire.CanonicalJson

/-! Objects whose members are data: maps from names, and members that are left out when they are absent. -/

namespace Wire

/-- A map from names. Its entries stand in the order of their names, so that maps are equal as soon as their entries
are. -/
structure Members (α : Type) where
  entries : List (String × α)
  sorted : entries.Pairwise fun a b => a.1 < b.1
  deriving DecidableEq

namespace Members
variable {α : Type}

def empty : Members α := ⟨[], List.Pairwise.nil⟩

def json (f : α → Json) (m : Members α) : Json := .obj (m.entries.map fun e => (e.1, f e.2))

theorem json_inj {f : α → Json} (hf : Function.Injective f) : Function.Injective (json f) := by
  intro m n h
  have hentry : Function.Injective fun e : String × α => (e.1, f e.2) := by
    rintro ⟨k, a⟩ ⟨l, b⟩ he
    obtain ⟨hname, hvalue⟩ := Prod.mk.inj he
    exact Prod.ext hname (hf hvalue)
  have hentries : m.entries = n.entries := List.map_injective_iff.mpr hentry (Json.obj.inj h)
  cases m
  cases n
  cases hentries
  rfl

def nonempty (f : α → Json) (m : Members α) : Option Json := if m.entries = [] then none else some (m.json f)

theorem nonempty_inj {f : α → Json} (hf : Function.Injective f) : Function.Injective (nonempty f) := by
  intro m n h
  unfold nonempty at h
  split_ifs at h with hm hn
  · cases m
    cases n
    cases hm
    cases hn
    rfl
  · exact json_inj hf (Option.some.inj h)

end Members

namespace Json

def optional (name : String) : Option Json → List (String × Json)
  | none => []
  | some v => [(name, v)]

theorem notMem_names_optional {name other : String} (v : Option Json) (h : name ≠ other) :
    name ∉ (optional other v).map Prod.fst := by
  cases v with
  | none => exact List.not_mem_nil
  | some v => simpa [optional] using h

theorem optional_append_inj {name : String} {v w : Option Json} {ms ns : List (String × Json)}
    (hm : name ∉ ms.map Prod.fst) (hn : name ∉ ns.map Prod.fst) :
    optional name v ++ ms = optional name w ++ ns ↔ v = w ∧ ms = ns := by
  have hms : ∀ w, ms ≠ (name, w) :: ns := by
    rintro w rfl
    simp at hm
  have hns : ∀ v, (name, v) :: ms ≠ ns := by
    rintro v rfl
    simp at hn
  cases v <;> cases w <;> simp [optional, hms, hns]

end Json
end Wire
