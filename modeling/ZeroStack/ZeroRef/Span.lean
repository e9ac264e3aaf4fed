import ZeroStack.ZeroRef.Select

/-! `SpanRef`: a selected part of an object, bound to the digests of the object and of the part. -/

open Wire

namespace Zero.Ref

structure SpanRef (Digest : Type) where
  byteLen : ℕ
  byteStart : ℕ
  objectDigest : Digest
  objectId : Digest
  spanDigest : Digest

inductive SpanRefError where
  | selection (error : ZeroRefError)
  | rangeOverflow
  | rangeOutOfBounds
  | objectIdentityMismatch
  | objectDigestMismatch
  | spanDigestMismatch
  | payloadLengthMismatch

structure Part (object : List UInt8) where
  start : ℕ
  stop : ℕ
  ordered : start ≤ stop
  inside : stop ≤ object.length

section Model
variable {Digest : Type} [DecidableEq Digest] (sha256 : List UInt8 → Digest) (object : List UInt8)

def Part.bytes {object : List UInt8} (p : Part object) : List UInt8 := object.extract p.start p.stop

/-- `&object[start..stop]`, nothing where it panics. -/
def part (start stop : ℕ) : Option (Part object) :=
  if h : start ≤ stop ∧ stop ≤ object.length then some ⟨start, stop, h.1, h.2⟩ else none

def borrowFragment (fragment : ZeroFragment) (context : String) (policy : LineEndPolicy) :
    Except ZeroRefError (Option (Part object)) := do
  let _ ← selectFragmentWithPolicy object fragment context policy
  match fragment with
  | .none => .ok (part object 0 object.length)
  | .bytes start stop => .ok (part object start stop)
  | .lines start stop =>
    let lineStarts := lineStartOffsets object
    let stop ← resolvePolicyEnd policy start stop lineStarts.length context
    .ok (lineStarts[start - 1]?.bind (part object · (lineStarts[stop]?.getD object.length)))

def toU64 (n : ℕ) : Except SpanRefError ℕ := if n < 2 ^ 64 then .ok n else .error .rangeOverflow

namespace SpanRef

def fromFragment (fragment : ZeroFragment) (context : String) :
    Except SpanRefError (Option (SpanRef Digest × Part object)) := do
  match ← (borrowFragment object fragment context canonicalLineEndPolicy).mapError .selection with
  | none => .ok none
  | some selected =>
    let byteStart ← toU64 selected.start
    let byteLen ← toU64 selected.bytes.length
    let _ ← toU64 (byteStart + byteLen)
    .ok (some (⟨byteLen, byteStart, sha256 object, sha256 object, sha256 selected.bytes⟩, selected))

def verifySpan (s : SpanRef Digest) (payload : List UInt8) : Except SpanRefError Unit :=
  if payload.length ≠ s.byteLen then .error .payloadLengthMismatch
  else if sha256 payload ≠ s.spanDigest then .error .spanDigestMismatch
  else .ok ()

def verifyAndSelect (s : SpanRef Digest) : Except SpanRefError (List UInt8) :=
  if sha256 object ≠ s.objectId then .error .objectIdentityMismatch
  else if sha256 object ≠ s.objectDigest then .error .objectDigestMismatch
  else do
    let stop ← toU64 (s.byteStart + s.byteLen)
    match part object s.byteStart stop with
    | none => .error .rangeOutOfBounds
    | some selected =>
      s.verifySpan sha256 selected.bytes
      .ok selected.bytes

end SpanRef

def Exact (selected : List UInt8) : ZeroFragment → Prop
  | .none => selected = object
  | .bytes start stop => start ≤ stop ∧ stop ≤ object.length ∧ selected = object.extract start stop
  | .lines start stop => 1 ≤ start ∧ start ≤ stop ∧ stop ≤ (blobLines object).length ∧
    selected = ((blobLines object).extract (start - 1) stop).flatten

end Model

section Selection
variable {object selected : List UInt8} {context : String} {policy : LineEndPolicy} {start stop : ℕ}

theorem part_of_le (hordered : start ≤ stop) (hinside : stop ≤ object.length) :
    part object start stop = some ⟨start, stop, hordered, hinside⟩ := dif_pos ⟨hordered, hinside⟩

theorem start_add_length (p : Part object) : p.start + p.bytes.length = p.stop := by
  have hordered := p.ordered
  have hinside := p.inside
  simp only [Part.bytes, List.extract_eq_take_drop, List.length_take, List.length_drop]
  omega

theorem lines_selected (h : selectFragmentWithPolicy object (.lines start stop) context policy = .ok selected) :
    ∃ resolved, resolvePolicyEnd policy start stop (lineStartOffsets object).length context = .ok resolved ∧
      1 ≤ start ∧ start ≤ stop ∧ start ≤ resolved ∧ resolved ≤ (blobLines object).length ∧
      (policy = .strict → resolved = stop) ∧
        selected = lineSpanBytes object (lineStartOffsets object) start resolved := by
  simp only [selectFragmentWithPolicy, selectLines] at h
  split_ifs at h with hspan
  push Not at hspan
  obtain ⟨resolved, hresolved, hselected⟩ := bind_eq_ok.mp h
  have hends : start ≤ resolved ∧ resolved ≤ (blobLines object).length ∧ (policy = .strict → resolved = stop) := by
    rw [length_lineStartOffsets] at hresolved
    cases policy with
    | strict =>
      simp only [resolvePolicyEnd] at hresolved
      split_ifs at hresolved with hbeyond
      cases hresolved
      exact ⟨hspan.2, Nat.not_lt.mp hbeyond, fun _ => rfl⟩
    | clampEnd =>
      simp only [resolvePolicyEnd] at hresolved
      split_ifs at hresolved with hempty hbeyond
      cases hresolved
      exact ⟨le_min hspan.2 (Nat.not_lt.mp hbeyond), min_le_right _ _, fun h => by cases h⟩
  exact ⟨resolved, hresolved, Nat.pos_of_ne_zero hspan.1, hspan.2, hends.1, hends.2.1, hends.2.2,
    (Except.ok.inj hselected).symm⟩

theorem borrowFragment_cases (object : List UInt8) (fragment : ZeroFragment) (context : String)
    (policy : LineEndPolicy) : (∃ e, borrowFragment object fragment context policy = .error e) ∨
      ∃ p : Part object, borrowFragment object fragment context policy = .ok (some p) ∧
        selectFragmentWithPolicy object fragment context policy = .ok p.bytes := by
  unfold borrowFragment
  cases hselect : selectFragmentWithPolicy object fragment context policy with
  | error e => exact .inl ⟨e, rfl⟩
  | ok selected =>
    right
    cases fragment with
    | none =>
      cases hselect
      exact ⟨_, congrArg Except.ok (part_of_le (Nat.zero_le _) le_rfl), by simp [Part.bytes]⟩
    | bytes start stop =>
      simp only [selectFragmentWithPolicy] at hselect
      split_ifs at hselect with hreversed hbeyond
      cases hselect
      exact ⟨_, congrArg Except.ok (part_of_le (Nat.not_lt.mp hreversed) (Nat.not_lt.mp hbeyond)), rfl⟩
    | lines start stop =>
      obtain ⟨resolved, hresolved, hone, -, hstart, hcount, -, rfl⟩ := lines_selected hselect
      have hmono : pieceOffset (blobLines object) (start - 1) ≤ pieceOffset (blobLines object) resolved :=
        pieceOffset_mono _ (by omega)
      refine ⟨⟨_, _, hmono, lineOffset_le object resolved⟩, bind_ok rfl (bind_eq_ok.mpr ⟨resolved, hresolved, ?_⟩), ?_⟩
      · rw [lineStart (by omega), lineEnd]
        exact congrArg Except.ok (part_of_le _ _)
      · rw [lineSpanBytes_eq (by omega)]
        rfl

end Selection

theorem toU64_eq_ok {n m : ℕ} : toU64 n = .ok m ↔ n < 2 ^ 64 ∧ m = n := by
  unfold toU64
  split_ifs with hfits
  · rw [Except.ok.injEq, eq_comm]
    exact (and_iff_right hfits).symm
  · exact iff_of_false nofun fun h => hfits h.1

section References
variable {Digest : Type} {sha256 : List UInt8 → Digest} {object : List UInt8} {selected : Part object}

theorem fromFragment_ok {s : SpanRef Digest} {fragment : ZeroFragment} {context : String}
    (h : SpanRef.fromFragment sha256 object fragment context = .ok (some (s, selected))) :
    selectFragment object fragment context = .ok selected.bytes ∧ selected.stop < 2 ^ 64 ∧
      s = ⟨selected.bytes.length, selected.start, sha256 object, sha256 object, sha256 selected.bytes⟩ := by
  unfold SpanRef.fromFragment at h
  rcases borrowFragment_cases object fragment context canonicalLineEndPolicy with ⟨e, he⟩ | ⟨p, hborrow, hselect⟩
  · rw [he] at h
    cases h
  · rw [hborrow] at h
    obtain ⟨borrowed, hborrowed, h⟩ := bind_eq_ok.mp h
    cases hborrowed
    obtain ⟨byteStart, hbyteStart, h⟩ := bind_eq_ok.mp h
    obtain ⟨byteLen, hbyteLen, h⟩ := bind_eq_ok.mp h
    obtain ⟨stop, hstop, h⟩ := bind_eq_ok.mp h
    cases (toU64_eq_ok.mp hbyteStart).2
    cases (toU64_eq_ok.mp hbyteLen).2
    have hfits := (toU64_eq_ok.mp hstop).1
    rw [start_add_length] at hfits
    cases h
    exact ⟨hselect, hfits, rfl⟩

theorem verifyAndSelect_part [DecidableEq Digest] (hfits : selected.stop < 2 ^ 64) :
    SpanRef.verifyAndSelect sha256 object
    ⟨selected.bytes.length, selected.start, sha256 object, sha256 object, sha256 selected.bytes⟩ =
      .ok selected.bytes := by
  have hpart : part object selected.start selected.stop = some selected := part_of_le selected.ordered selected.inside
  simp only [SpanRef.verifyAndSelect, ne_eq, not_true_eq_false, if_false, start_add_length]
  refine bind_eq_ok.mpr ⟨_, if_pos hfits, ?_⟩
  rw [hpart]
  exact bind_eq_ok.mpr ⟨(), by simp [SpanRef.verifySpan], rfl⟩

end References

end Zero.Ref
