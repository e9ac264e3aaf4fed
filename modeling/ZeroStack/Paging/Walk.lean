import ZeroStack.Paging.Options

/-! The pages of a stored object, read by following each response's `next`. -/

open Wire Zero.Cas List

namespace Zero.Paging

structure TokenAccounting where
  tokenizer : String
  billed : ℕ
  visible : ℕ
  cached : ℕ
  certified : Bool
  deriving DecidableEq

structure TokenEngine where
  expand : ZeroHandle → ExpandOptions → Except Kernel.EngineError (List UInt8)
  measure : List UInt8 → Except Kernel.EngineError TokenAccounting

structure ExpandResult where
  schema : String
  source : ZeroHandle
  text : Option String
  bytes : Option (List Char)
  encoding : String
  byteStart : ℕ
  byteEnd : ℕ
  byteLength : ℕ
  exactDigest : String
  complete : Bool
  recoveredTokens : ℕ
  accounting : TokenAccounting
  next : Option ℕ
  deriving DecidableEq

def expandResultSchema : String := "zerostack.expand"

structure CallView where
  cas : CasView
  tokens : TokenEngine

section Model
variable (blake3 : List UInt8 → String) (view : CallView)

/-- The bytes of a response with their range. The token engine's bytes are taken for the whole object. -/
def recover (handle : ZeroHandle) (options : ExpandOptions) : Except Kernel.EngineError ExpandedBlob :=
  match expandWithRange blake3 view.cas handle options with
  | .ok expanded => .ok expanded
  | .error _ => do
    let bytes ← view.tokens.expand handle options
    .ok ⟨bytes, 0, bytes.length, bytes.length⟩

def respond (handle : ZeroHandle) (blob : ExpandedBlob) (accounting : TokenAccounting) : ExpandResult :=
  let text := fromUtf8 blob.bytes
  let complete := blob.byteStart = 0 ∧ blob.byteEnd = blob.byteLength
  { schema := expandResultSchema
    source := handle
    text
    bytes := if text.isSome then none else some (hexChars blob.bytes)
    encoding := if text.isSome then "utf8" else "hex"
    byteStart := blob.byteStart
    byteEnd := blob.byteEnd
    byteLength := blob.byteLength
    exactDigest := blake3 blob.bytes
    complete
    recoveredTokens := accounting.visible
    accounting
    next := if ¬complete ∧ blob.byteEnd < blob.byteLength then some blob.byteEnd else none }

def expandHandle (handle : ZeroHandle) (options : ExpandOptions) : Except Kernel.EngineError ExpandResult := do
  let blob ← recover blake3 view handle options
  let accounting ← view.tokens.measure blob.bytes
  .ok (respond blake3 handle blob accounting)

def request (handle : ZeroHandle) (args : Json) : Except ConnectorError ExpandResult :=
  match expandOptions (some args) with
  | .error e => .error e
  | .ok options => (expandHandle blake3 view handle options).mapError fun e => .host (.engine e)

def walkFrom (handle : ZeroHandle) (limit : ℕ) : List CallView → Json → Except ConnectorError (List ExpandResult)
  | [], _ => .ok []
  | view :: views, args => do
    let page ← request blake3 view handle args
    match page.next with
    | none => .ok [page]
    | some next => do
      let rest ← walkFrom handle limit views (nextArgs next limit)
      .ok (page :: rest)

def walk (handle : ZeroHandle) (limit : ℕ) (views : List CallView) : Except ConnectorError (List ExpandResult) :=
  walkFrom blake3 handle limit views (startArgs limit)

end Model

def ExpandResult.content (r : ExpandResult) : Option (List UInt8) :=
  match r.text with
  | some text => some (utf8Bytes text)
  | none => r.bytes.bind unhex

structure Serves (blake3 : List UInt8 → String) (view : CallView) (handle : ZeroHandle)
    (object : List UInt8) : Prop where
  file : view.cas.file handle = .ok object
  digest : blake3 object = handle.digest
  size : object.length ≤ zeroCasObjectByteLimit
  measured : ∀ bytes, ∃ accounting, view.tokens.measure bytes = .ok accounting

inductive Pages (object : List UInt8) : ℕ → List ExpandResult → Prop where
  | last {r : ExpandResult} (hcontent : r.content = some (object.extract r.byteStart r.byteEnd))
      (hspan : r.byteStart ≤ r.byteEnd) (hend : r.byteEnd = object.length) (hlength : r.byteLength = object.length)
      (hnext : r.next = none) : Pages object r.byteStart [r]
  | more {r : ExpandResult} {rest : List ExpandResult}
      (hcontent : r.content = some (object.extract r.byteStart r.byteEnd)) (hsome : r.byteStart < r.byteEnd)
      (hlength : r.byteLength = object.length) (hcomplete : r.complete = false) (hnext : r.next = some r.byteEnd)
      (hrest : Pages object r.byteEnd rest) : Pages object r.byteStart (r :: rest)

section Pages
variable {object : List UInt8}

theorem Pages.start_le {start : ℕ} {pages : List ExpandResult} (h : Pages object start pages) :
    start ≤ object.length := by
  induction h with
  | last hcontent hspan hend => exact hend ▸ hspan
  | more hcontent hsome hlength hcomplete hnext hrest ih => exact hsome.le.trans ih

theorem Pages.ne_nil {start : ℕ} {pages : List ExpandResult} (h : Pages object start pages) : pages ≠ [] := by
  cases h <;> exact cons_ne_nil _ _

theorem Pages.join {start : ℕ} {pages : List ExpandResult} (h : Pages object start pages) :
    ∃ slices : List (List UInt8), pages.map (·.content) = slices.map some ∧
      slices.flatten = object.extract start object.length := by
  induction h with
  | @last r hcontent hspan hend =>
    refine ⟨[object.extract r.byteStart r.byteEnd], ?_, ?_⟩
    · rw [map_singleton, map_singleton, hcontent]
    · rw [flatten_singleton, hend]
  | @more r rest hcontent hsome hlength hcomplete hnext hrest ih =>
    obtain ⟨slices, hslices, hjoin⟩ := ih
    refine ⟨object.extract r.byteStart r.byteEnd :: slices, ?_, ?_⟩
    · rw [map_cons, map_cons, hcontent, hslices]
    · rw [flatten_cons, hjoin]
      exact extract_append_extract hsome.le hrest.start_le

end Pages

def EndsComplete (pages : List ExpandResult) : Prop := pages.getLast?.map (·.complete) = some true

section Respond
variable (blake3 : List UInt8 → String) (handle : ZeroHandle)

theorem content_respond (blob : ExpandedBlob) (accounting : TokenAccounting) :
    (respond blake3 handle blob accounting).content = some blob.bytes := by
  cases hutf8 : fromUtf8 blob.bytes with
  | none =>
    simp only [respond, hutf8, Option.isSome_none, Bool.false_eq_true, if_false]
    exact unhex_hexChars blob.bytes
  | some text =>
    simp only [ExpandResult.content, respond, hutf8]
    rw [utf8Bytes_of_fromUtf8 hutf8]

def pageAt (object : List UInt8) (offset limit : ℕ) : ExpandedBlob :=
  ⟨object.extract offset (min (offset + limit) object.length), offset, min (offset + limit) object.length,
    object.length⟩

theorem next_pageAt (object : List UInt8) (offset limit : ℕ) (accounting : TokenAccounting) :
    (object.length ≤ offset + limit ∧ (respond blake3 handle (pageAt object offset limit) accounting).next = none) ∨
      offset + limit < object.length ∧
        (respond blake3 handle (pageAt object offset limit) accounting).next = some (offset + limit) ∧
        (respond blake3 handle (pageAt object offset limit) accounting).complete = false ∧
        (respond blake3 handle (pageAt object offset limit) accounting).byteEnd = offset + limit := by
  by_cases hend : object.length ≤ offset + limit
  · left
    refine ⟨hend, ?_⟩
    simp [respond, pageAt, Nat.min_eq_right hend]
  · right
    have hlt : offset + limit < object.length := Nat.lt_of_not_le hend
    have hmin : min (offset + limit) object.length = offset + limit := Nat.min_eq_left hlt.le
    refine ⟨hlt, ?_, ?_, hmin⟩
    · simp [respond, pageAt, hmin, hlt, hlt.ne]
    · simp [respond, pageAt, hmin, hlt.ne]

end Respond

section Calls
variable {blake3 : List UInt8 → String} {view : CallView} {handle : ZeroHandle} {object : List UInt8}

theorem Serves.mapObject (h : Serves blake3 view handle object) : mapObject blake3 view.cas handle = .ok object := by
  refine bind_eq_ok.mpr ⟨object, h.file, ?_⟩
  rw [if_neg (Nat.not_lt.mpr h.size), if_neg (not_not.mpr h.digest)]

theorem Serves.expandWithRange (h : Serves blake3 view handle object) {offset limit : ℕ}
    (hoffset : offset ≤ object.length) :
    expandWithRange blake3 view.cas handle { offset := some offset, limit := some limit } =
      .ok (pageAt object offset limit) := by
  have hsize : object.length ≤ 2 ^ 64 - 1 := h.size.trans (by decide)
  have hrange : byteSelection { offset := some offset, limit := some limit } object.length =
      (offset, min (offset + limit) object.length) := by
    simp only [byteSelection, Option.getD_some, Nat.min_eq_left hoffset, Numeric.saturate, Prod.mk.injEq, true_and]
    omega
  have hvalid : ¬min (offset + limit) object.length < offset := by omega
  refine bind_eq_ok.mpr ⟨object, h.mapObject, bind_ok (congrArg Except.ok hrange) ?_⟩
  rw [if_neg hvalid]
  rfl

theorem Serves.request (h : Serves blake3 view handle object) {args : Json} {offset limit : ℕ}
    (hargs : expandOptions (some args) = .ok { offset := some offset, limit := some limit })
    (hoffset : offset ≤ object.length) :
    ∃ accounting, request blake3 view handle args =
      .ok (respond blake3 handle (pageAt object offset limit) accounting) := by
  obtain ⟨accounting, hmeasured⟩ := h.measured (pageAt object offset limit).bytes
  have hrecover : recover blake3 view handle { offset := some offset, limit := some limit } =
      .ok (pageAt object offset limit) := by
    rw [recover, h.expandWithRange hoffset]
  have hexpand : expandHandle blake3 view handle { offset := some offset, limit := some limit } =
      .ok (respond blake3 handle (pageAt object offset limit) accounting) :=
    bind_ok hrecover (bind_eq_ok.mpr ⟨accounting, hmeasured, rfl⟩)
  refine ⟨accounting, ?_⟩
  rw [Paging.request, hargs]
  show (expandHandle blake3 view handle _).mapError _ = _
  rw [hexpand]
  rfl

theorem walkFrom_pages {limit : ℕ} (hlimit : 0 < limit) (hfits : limit < 2 ^ 64) {views : List CallView}
    (hserved : ∀ view ∈ views, Serves blake3 view handle object) {args : Json} {offset : ℕ}
    (hargs : expandOptions (some args) = .ok { offset := some offset, limit := some limit })
    (hoffset : offset ≤ object.length) (hne : views ≠ []) (hcalls : object.length - offset ≤ views.length * limit) :
    ∃ pages, walkFrom blake3 handle limit views args = .ok pages ∧ Pages object offset pages ∧
      (EndsComplete pages ↔ offset = 0 ∧ object.length ≤ limit) := by
  induction views generalizing args offset with
  | nil => exact absurd rfl hne
  | cons view views ih =>
    obtain ⟨hview, hviews⟩ := forall_mem_cons.mp hserved
    obtain ⟨accounting, hpage⟩ := hview.request hargs hoffset
    have hcontent := content_respond blake3 handle (pageAt object offset limit) accounting
    rcases next_pageAt blake3 handle object offset limit accounting with
      ⟨hend, hnext⟩ | ⟨hlt, hnext, hcomplete, hbyteEnd⟩
    · have hreached : min (offset + limit) object.length = object.length := Nat.min_eq_right hend
      refine ⟨[respond blake3 handle (pageAt object offset limit) accounting], ?_, ?_, ?_⟩
      · refine bind_ok hpage ?_
        rw [hnext]
      · have hspan : offset ≤ min (offset + limit) object.length := by rwa [hreached]
        exact .last hcontent hspan hreached rfl hnext
      · have hanswer : EndsComplete [respond blake3 handle (pageAt object offset limit) accounting] ↔
            offset = 0 ∧ min (offset + limit) object.length = object.length := by
          simp [EndsComplete, respond, pageAt]
        rw [hanswer]
        omega
    · have hrestCalls : object.length - (offset + limit) ≤ views.length * limit := by
        rw [length_cons, Nat.succ_mul] at hcalls
        omega
      have hrestNe : views ≠ [] := by
        rintro rfl
        rw [length_nil] at hrestCalls
        omega
      have hsize : object.length < 2 ^ 64 := Nat.lt_of_le_of_lt hview.size (by decide)
      obtain ⟨rest, hrest, hpages, hanswer⟩ :=
        ih hviews (expandOptions_nextArgs (hlt.trans hsize) hfits) hlt.le hrestNe hrestCalls
      refine ⟨respond blake3 handle (pageAt object offset limit) accounting :: rest, ?_, ?_, ?_⟩
      · refine bind_ok hpage ?_
        simp only [hnext]
        exact bind_eq_ok.mpr ⟨rest, hrest, rfl⟩
      · have hmoves : offset < (respond blake3 handle (pageAt object offset limit) accounting).byteEnd := by
          omega
        refine .more hcontent hmoves rfl hcomplete ?_ ?_
        · rw [hnext, hbyteEnd]
        · rw [hbyteEnd]
          exact hpages
      · -- a later page starts behind 0, and so does the last one
        rw [EndsComplete, getLast?_cons_of_ne_nil hpages.ne_nil]
        exact hanswer.trans (by omega)

def Resolves (view : CallView) (handle : ZeroHandle) (object : List UInt8) (options : ExpandOptions) : Prop :=
  ∃ start stop, selectRange view.cas handle object options = .ok (start, stop) ∧ start ≤ stop

theorem Serves.complete_whole (h : Serves blake3 view handle object) {options : ExpandOptions} {r : ExpandResult}
    (hresolves : Resolves view handle object options) (hr : expandHandle blake3 view handle options = .ok r)
    (hcomplete : r.complete = true) : r.content = some object := by
  obtain ⟨start, stop, hselect, hle⟩ := hresolves
  have hstore : Cas.expandWithRange blake3 view.cas handle options =
      .ok ⟨object.extract start stop, start, stop, object.length⟩ := by
    refine bind_eq_ok.mpr ⟨object, h.mapObject, bind_eq_ok.mpr ⟨(start, stop), hselect, ?_⟩⟩
    rw [if_neg (Nat.not_lt.mpr hle)]
  rw [expandHandle, recover, hstore] at hr
  obtain ⟨blob, hblob, hrest⟩ := bind_eq_ok.mp hr
  cases hblob
  obtain ⟨accounting, -, hrespond⟩ := bind_eq_ok.mp hrest
  cases hrespond
  obtain ⟨hstart, hstop⟩ : start = 0 ∧ stop = object.length := of_decide_eq_true hcomplete
  rw [content_respond, hstart, hstop]
  simp

end Calls

/-- Paged recovery is lossless where each call finds the object in the store. The last page says complete if it is also
the first one. -/
theorem paged_recovery_lossless (blake3 : List UInt8 → String) (handle : ZeroHandle) (object : List UInt8) (limit : ℕ)
    (hlimit : 0 < limit) (hfits : limit < 2 ^ 64) (views : List CallView)
    (hserved : ∀ view ∈ views, Serves blake3 view handle object) : (object.length / limit < views.length →
      ∃ pages, walk blake3 handle limit views = .ok pages ∧ Pages object 0 pages ∧
        (EndsComplete pages ↔ object.length ≤ limit) ∧ ∃ slices : List (List UInt8),
          pages.map (·.content) = slices.map some ∧
          slices.flatten = object) ∧
      ∀ view ∈ views, ∀ (options : ExpandOptions) (r : ExpandResult), Resolves view handle object options →
        expandHandle blake3 view handle options = .ok r → r.complete = true → r.content = some object := by
  refine ⟨fun hcalls => ?_, fun view hview options r hresolves hr hcomplete => ?_⟩
  · have hne : views ≠ [] := by
      rintro rfl
      exact absurd hcalls (Nat.not_lt_zero _)
    have hbytes : object.length - 0 ≤ views.length * limit := ((Nat.div_lt_iff_lt_mul hlimit).mp hcalls).le
    obtain ⟨pages, hwalk, hpages, hanswer⟩ :=
      walkFrom_pages hlimit hfits hserved (expandOptions_startArgs hfits) (Nat.zero_le _) hne hbytes
    obtain ⟨slices, hslices, hjoin⟩ := hpages.join
    refine ⟨pages, hwalk, hpages, hanswer.trans (and_iff_right rfl), slices, hslices, ?_⟩
    rw [hjoin]
    simp
  · exact (hserved view hview).complete_whole hresolves hr hcomplete

section Examples

def sampleHandle : ZeroHandle := ⟨"66"⟩

def countBytes (bytes : List UInt8) : TokenAccounting := ⟨"bytes", bytes.length, bytes.length, 0, true⟩

def holding (object : Option (List UInt8)) : CasView where
  file := fun _ => match object with
    | some bytes => .ok bytes
    | none => .error .notFound
  selection := fun _ => .ok none

def digestOf (_ : List UInt8) : String := "66"

def stores (kernel tokens : Option (List UInt8)) : CallView where
  cas := holding kernel
  tokens :=
    { expand := fun handle options =>
        (Cas.expand digestOf (holding tokens) handle options).mapError fun _ => ⟨.corrupt, "ZeroHandle CAS", false⟩
      measure := fun bytes => .ok (countBytes bytes) }

def sampleObject : List UInt8 := [122, 195, 169, 114, 111, 10]

theorem sample_pages_lossless :
    ∃ pages, walk digestOf sampleHandle 2 [stores (some sampleObject) none, stores (some sampleObject) none,
      stores (some sampleObject) none, stores (some sampleObject) none] = .ok pages ∧ Pages sampleObject 0 pages := by
  obtain ⟨pages, hwalk, hpages, -, -⟩ := (paged_recovery_lossless digestOf sampleHandle sampleObject 2 (by decide)
    (by decide) [stores (some sampleObject) none, stores (some sampleObject) none, stores (some sampleObject) none,
      stores (some sampleObject) none] (by
        intro view hview
        have hstores : view = stores (some sampleObject) none := by simpa using hview
        rw [hstores]
        exact ⟨rfl, rfl, by decide, fun bytes => ⟨_, rfl⟩⟩)).1 (by decide)
  exact ⟨pages, hwalk, hpages⟩

def recoveredPage : Option ExpandResult :=
  (request digestOf (stores none (some sampleObject)) sampleHandle (startArgs 4)).toOption

/-- The four bytes are said to be all of them, and no page follows. Where the object is in the store, the second of two
pages ends it and does not say complete. -/
theorem recovered_page_says_complete :
    recoveredPage.bind (·.content) = some [122, 195, 169, 114] ∧ recoveredPage.map (·.complete) = some true ∧
      recoveredPage.map (·.byteLength) = some 4 ∧ recoveredPage.bind (·.next) = none ∧
      recoveredPage.bind (·.content) ≠ some sampleObject ∧
      (walk digestOf sampleHandle 4 [stores (some sampleObject) none, stores (some sampleObject) none]).toOption.map
        (·.map fun page => (page.byteEnd, page.complete)) = some [(4, false), (6, false)] := by
  decide +kernel

end Examples

end Zero.Paging
