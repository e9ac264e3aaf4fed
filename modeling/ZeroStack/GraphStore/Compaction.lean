import ZeroStack.GraphStore.Visible

/-! Compaction: the pending facts are merged into the index of the snapshot, which is then written anew. A blob that a
pending entry touches loses the facts that the snapshot had about it. -/

open Wire GraphZero.DeltaLog List

namespace GraphZero.Store

def loadBase (g : Global) : IndexData where
  blobs := (sidecarBlobs g.sidecar).foldl (fun blobs entry => blobs.insert entry.1 entry.2) ∅
  blobOrder := (sidecarBlobs g.sidecar).map Prod.fst
  defs := g.spans.filterMap fun s => (g.symbols[s.symbolId]?).map fun (name, kind) =>
    ⟨name, kind, g.blobAt s.blobIdx, s.start, s.stop, s.blockStart, s.blockEnd⟩
  edges := (List.range g.symbols.length).flatMap fun src => (g.edgesOf src).map fun e =>
    ⟨g.nameAt src, g.nameAt e.target, e.kind, e.confidence, g.blobAt e.evidence.blobIdx, e.evidence.start,
      e.evidence.stop⟩

variable (base : IndexData)

def mergeBlob (blob : ContentHash × UInt8) : IndexData :=
  match base.blobs[blob.1]? with
  | some record => { base with blobs := base.blobs.insert blob.1 { record with tierBits := blob.2 } }
  | none =>
    { base with
      blobs := base.blobs.insert blob.1 ⟨[], 0, 0, blob.2⟩
      blobOrder := base.blobOrder ++ [blob.1] }

def PendingDef.record (d : PendingDef) : DefRecord := ⟨d.name, otherKind, d.blob, d.start, d.stop, d.start, d.stop⟩

def PendingEdge.record (e : PendingEdge) : EdgeRecord := ⟨e.src, e.dst, e.kind, e.conf, e.blob, e.start, e.stop⟩

def dropDirty (pending : PendingFacts) : IndexData :=
  { base with
    defs := base.defs.filter (·.blob ∉ pending.blobs)
    edges := base.edges.filter (·.blob ∉ pending.blobs) }

def mergePending (pending : PendingFacts) : IndexData :=
  let merged := pending.blobs.toList.foldl mergeBlob (dropDirty base pending)
  { merged with
    defs := merged.defs ++ pending.defs.eraseDups.map PendingDef.record
    edges := merged.edges ++ pending.edges.eraseDups.map PendingEdge.record }

def compactGlobal (g : Global) (pending : PendingFacts) : Except String Global :=
  writeSnapshot (mergePending (loadBase g) pending)

structure IndexData.Loaded (data : IndexData) : Prop where
  recorded : ∀ hash, hash ∈ data.blobs ↔ hash ∈ data.blobOrder
  oneLine : ∀ (hash : ContentHash) (record : BlobMeta), data.blobs[hash]? = some record → '\n' ∉ record.path

theorem IndexData.Loaded.readable {data : IndexData} (h : data.Loaded) : data.Readable := by
  intro hash _
  apply BlobMeta.readable_of_notMem
  rw [blobMeta]
  cases hrecord : data.blobs[hash]? with
  | none => exact not_mem_nil
  | some record => exact h.oneLine hash record hrecord

section Load
variable {data : IndexData}

theorem mem_foldl_insert {entries : List (ContentHash × BlobMeta)} {blobs : Std.TreeMap ContentHash BlobMeta}
    {hash : ContentHash} : hash ∈ entries.foldl (fun blobs entry => blobs.insert entry.1 entry.2) blobs ↔
      hash ∈ blobs ∨ hash ∈ entries.map Prod.fst := by
  induction entries generalizing blobs with
  | nil => simp
  | cons entry entries ih =>
    rw [foldl_cons, ih, map_cons, mem_cons]
    rw [Std.TreeMap.mem_insert, Std.compare_eq_iff_eq, eq_comm, or_assoc, or_left_comm]

theorem getElem?_foldl_insert {entries : List (ContentHash × BlobMeta)} {blobs : Std.TreeMap ContentHash BlobMeta}
    {hash : ContentHash} {record : BlobMeta}
    (h : (entries.foldl (fun blobs entry => blobs.insert entry.1 entry.2) blobs)[hash]? = some record) :
    blobs[hash]? = some record ∨ (hash, record) ∈ entries := by
  induction entries generalizing blobs with
  | nil => exact .inl h
  | cons entry entries ih =>
    rcases ih h with hmem | hlater
    · rw [Std.TreeMap.getElem?_insert] at hmem
      split_ifs at hmem with hhash
      · cases hmem
        have hsame : entry.1 = hash := by simpa using hhash
        exact .inr (hsame ▸ mem_cons_self)
      · exact .inl hmem
    · exact .inr (mem_cons_of_mem _ hlater)

theorem loaded_loadBase {g : Global} : (loadBase g).Loaded := by
  refine ⟨fun hash => mem_foldl_insert.trans (or_iff_right (by simp)), fun hash record h => ?_⟩
  rcases getElem?_foldl_insert h with hnone | hmem
  · simp at hnone
  · exact newline_notMem_path hmem

theorem mem_blobOrder_loadBase {hash : ContentHash} (h : hash ∈ data.blobOrder) :
    hash ∈ (loadBase data.global).blobOrder := by
  obtain ⟨record, hrecord⟩ := exists_mem_sidecarBlobs (mem_map_of_mem (f := fun hash => (hash, data.blobMeta hash)) h)
  exact mem_map_of_mem hrecord

theorem symbols_symbolId {d : DefRecord} (hd : d ∈ data.defs) :
    data.global.symbols[data.symbolId d.name]? = some (d.name, data.kindOf d.name) := by
  have hmem : d.name ∈ data.global.names := IndexData.mem_names.mpr (.inl ⟨d, hd, rfl⟩)
  have hlt : data.global.names.idxOf d.name < data.global.names.length := idxOf_lt_length_iff.mpr hmem
  have hname : data.global.names[data.symbolId d.name]? = some d.name := by
    rw [IndexData.symbolId, ← IndexData.names_global, List.getElem?_eq_getElem hlt, getElem_idxOf hlt]
  rw [Global.names, List.getElem?_map] at hname
  obtain ⟨⟨name, kind⟩, hentry, hfst⟩ := Option.map_eq_some_iff.mp hname
  obtain rfl : name = d.name := hfst
  have hvalue : data.symbolTable[d.name]? = some kind :=
    Std.TreeMap.mem_toList_iff_getElem?_eq_some.mp (mem_of_getElem? hentry)
  obtain ⟨first, hfirst⟩ : ∃ first, data.defs.find? (·.name = d.name) = some first :=
    Option.isSome_iff_exists.mp (List.find?_isSome.mpr ⟨d, hd, decide_eq_true rfl⟩)
  have hkind : kind = data.kindOf d.name := by
    rw [IndexData.getElem?_symbolTable, hfirst] at hvalue
    rw [IndexData.kindOf, hfirst]
    exact (Option.some.inj hvalue).symm
  rw [hentry, hkind]

variable (hclosed : data.Closed)
include hclosed

theorem mem_defs_loadBase {r : DefRecord} :
    r ∈ (loadBase data.global).defs ↔ ∃ d ∈ data.defs, r = { d with kind := data.kindOf d.name } := by
  have hspan : ∀ d ∈ data.defs, ((data.global.symbols[(data.span d).symbolId]?).map fun (name, kind) =>
      (⟨name, kind, data.global.blobAt (data.span d).blobIdx, (data.span d).start, (data.span d).stop,
        (data.span d).blockStart, (data.span d).blockEnd⟩ : DefRecord)) =
          some { d with kind := data.kindOf d.name } := by
    intro d hd
    have hblob : data.global.blobAt (data.span d).blobIdx = d.blob := IndexData.getD_blobIdx (hclosed.defs d hd)
    have hsymbol : data.global.symbols[(data.span d).symbolId]? = some (d.name, data.kindOf d.name) :=
      symbols_symbolId hd
    rw [hsymbol, hblob]
    rfl
  have hspans : ∀ s, s ∈ data.global.spans ↔ ∃ d ∈ data.defs, data.span d = s := by
    intro s
    rw [← mem_map]
    exact (perm_insertionSort ..).mem_iff
  show r ∈ data.global.spans.filterMap _ ↔ _
  rw [mem_filterMap]
  constructor
  · rintro ⟨s, hs, hr⟩
    obtain ⟨d, hd, rfl⟩ := (hspans s).mp hs
    rw [hspan d hd] at hr
    exact ⟨d, hd, (Option.some.inj hr).symm⟩
  · rintro ⟨d, hd, rfl⟩
    exact ⟨data.span d, (hspans _).mpr ⟨d, hd, rfl⟩, hspan d hd⟩

theorem mem_edges_loadBase {r : EdgeRecord} : r ∈ (loadBase data.global).edges ↔ r ∈ data.edges := by
  have hrecord : ∀ e ∈ data.edges, (⟨data.global.nameAt (data.symbolId e.src), data.global.nameAt (data.symbolId e.dst),
      e.kind, e.confidence, data.global.blobAt (data.blobIdx e.blob), e.start, e.stop⟩ : EdgeRecord) = e := by
    intro e he
    have hsrc : e.src ∈ data.global.names := IndexData.mem_names.mpr (.inr ⟨e, he, .inl rfl⟩)
    have hdst : e.dst ∈ data.global.names := IndexData.mem_names.mpr (.inr ⟨e, he, .inr rfl⟩)
    rw [IndexData.nameAt_symbolId hsrc, IndexData.nameAt_symbolId hdst, IndexData.getD_blobIdx (hclosed.edges e he)]
  have hlt : ∀ e ∈ data.edges, data.symbolId e.src < data.global.symbols.length := by
    intro e he
    have hsrc : e.src ∈ data.global.names := IndexData.mem_names.mpr (.inr ⟨e, he, .inl rfl⟩)
    have hidx := idxOf_lt_length_iff.mpr hsrc
    rw [Global.names, length_map] at hidx
    rwa [IndexData.symbolId, ← IndexData.names_global]
  show r ∈ (List.range data.global.symbols.length).flatMap _ ↔ _
  rw [mem_flatMap]
  constructor
  · rintro ⟨src, -, hr⟩
    obtain ⟨c, hc, rfl⟩ := mem_map.mp hr
    obtain ⟨e, he, rfl, rfl⟩ := IndexData.mem_edgesOf.mp hc
    have hsame := hrecord e he
    rw [← hsame] at he
    exact he
  · intro hr
    refine ⟨data.symbolId r.src, mem_range.mpr (hlt r hr), mem_map.mpr ⟨data.csrEdge r, ?_, hrecord r hr⟩⟩
    exact IndexData.mem_edgesOf.mpr ⟨r, hr, rfl, rfl⟩

theorem closed_loadBase : (loadBase data.global).Closed := by
  constructor
  · intro r hr
    obtain ⟨d, hd, rfl⟩ := (mem_defs_loadBase hclosed).mp hr
    exact mem_blobOrder_loadBase (hclosed.defs d hd)
  · intro r hr
    exact mem_blobOrder_loadBase (hclosed.edges r ((mem_edges_loadBase hclosed).mp hr))
  · exact fun hash hmem => (loaded_loadBase.recorded hash).mpr hmem

end Load

section Merge
variable {base : IndexData} {pending : PendingFacts}

structure PendingFacts.Closed (pending : PendingFacts) : Prop where
  defs : ∀ d ∈ pending.defs, d.blob ∈ pending.blobs
  edges : ∀ e ∈ pending.edges, e.blob ∈ pending.blobs

theorem PendingFacts.closed_ofSegments (segments : List (List DeltaEntry)) :
    (PendingFacts.ofSegments segments).Closed := by
  constructor
  · intro d hd
    rw [(of_ofSegments segments).defs] at hd
    obtain ⟨e, he, hdef⟩ := mem_filterMap.mp hd
    refine ((of_ofSegments segments).blobs _).mpr ⟨e, he, .inl (by rw [hdef]; rfl), ?_⟩
    unfold definition? at hdef
    split_ifs at hdef
    obtain ⟨payload, -, rfl⟩ := Option.map_eq_some_iff.mp hdef
    rfl
  · intro d hd
    rw [(of_ofSegments segments).edges] at hd
    obtain ⟨e, he, hedge⟩ := mem_filterMap.mp hd
    refine ((of_ofSegments segments).blobs _).mpr ⟨e, he, .inr (.inl (by rw [hedge]; rfl)), ?_⟩
    unfold edge? at hedge
    split_ifs at hedge
    obtain ⟨payload, -, rfl⟩ := Option.map_eq_some_iff.mp hedge
    rfl

theorem mergeBlob_keeps (h : base.Loaded) (blob : ContentHash × UInt8) :
    (mergeBlob base blob).Loaded ∧ (mergeBlob base blob).defs = base.defs ∧ (mergeBlob base blob).edges = base.edges ∧
      ∀ hash, hash ∈ (mergeBlob base blob).blobOrder ↔ hash ∈ base.blobOrder ∨ hash = blob.1 := by
  have hinsert : ∀ inserted : BlobMeta, '\n' ∉ inserted.path → ∀ (hash : ContentHash) (record : BlobMeta),
      (base.blobs.insert blob.1 inserted)[hash]? = some record → '\n' ∉ record.path := by
    intro inserted hline hash record hrecord
    rw [Std.TreeMap.getElem?_insert] at hrecord
    split_ifs at hrecord
    · cases hrecord
      exact hline
    · exact h.oneLine hash record hrecord
  unfold mergeBlob
  cases hfound : base.blobs[blob.1]? with
  | some record =>
    have hmem : blob.1 ∈ base.blobs := Std.TreeMap.mem_iff_isSome_getElem?.mpr (by rw [hfound]; rfl)
    have horder : ∀ hash, hash ∈ base.blobOrder ↔ hash ∈ base.blobOrder ∨ hash = blob.1 := by
      intro hash
      refine (or_iff_left_of_imp ?_).symm
      rintro rfl
      exact (h.recorded _).mp hmem
    have hline : '\n' ∉ record.path := h.oneLine _ _ hfound
    refine ⟨⟨fun hash => ?_, hinsert _ hline⟩, rfl, rfl, horder⟩
    rw [horder, ← h.recorded, Std.TreeMap.mem_insert, Std.compare_eq_iff_eq, or_comm, eq_comm]
  | none =>
    have horder : ∀ hash, hash ∈ base.blobOrder ++ [blob.1] ↔ hash ∈ base.blobOrder ∨ hash = blob.1 := by simp
    refine ⟨⟨fun hash => ?_, hinsert _ not_mem_nil⟩, rfl, rfl, horder⟩
    rw [horder, ← h.recorded, Std.TreeMap.mem_insert, Std.compare_eq_iff_eq, or_comm, eq_comm]

theorem foldl_mergeBlob (h : base.Loaded) (blobs : List (ContentHash × UInt8)) :
    (blobs.foldl mergeBlob base).Loaded ∧ (blobs.foldl mergeBlob base).defs = base.defs ∧
      (blobs.foldl mergeBlob base).edges = base.edges ∧
        ∀ hash, hash ∈ (blobs.foldl mergeBlob base).blobOrder ↔ hash ∈ base.blobOrder ∨ hash ∈ blobs.map Prod.fst := by
  induction blobs generalizing base with
  | nil => exact ⟨h, rfl, rfl, fun hash => by simp⟩
  | cons blob blobs ih =>
    obtain ⟨hloaded, hdefs, hedges, horder⟩ := mergeBlob_keeps h blob
    obtain ⟨hloaded', hdefs', hedges', horder'⟩ := ih hloaded
    refine ⟨hloaded', hdefs'.trans hdefs, hedges'.trans hedges, fun hash => ?_⟩
    rw [foldl_cons, horder', horder, map_cons, mem_cons, or_assoc]

section Loaded
variable (hbase : base.Loaded)
include hbase

theorem loaded_mergePending : (mergePending base pending).Loaded := by
  obtain ⟨hloaded, -⟩ := @foldl_mergeBlob (dropDirty base pending) ⟨hbase.recorded, hbase.oneLine⟩ pending.blobs.toList
  exact ⟨hloaded.recorded, hloaded.oneLine⟩

theorem defs_mergePending : (mergePending base pending).defs =
    base.defs.filter (·.blob ∉ pending.blobs) ++ pending.defs.eraseDups.map PendingDef.record := by
  obtain ⟨-, hdefs, -⟩ := @foldl_mergeBlob (dropDirty base pending) ⟨hbase.recorded, hbase.oneLine⟩ pending.blobs.toList
  rw [mergePending, hdefs]
  rfl

theorem mem_defs_mergePending {r : DefRecord} : r ∈ (mergePending base pending).defs ↔
    (r ∈ base.defs ∧ r.blob ∉ pending.blobs) ∨ ∃ d ∈ pending.defs, r = d.record := by
  rw [defs_mergePending hbase, mem_append, mem_filter, mem_map]
  simp only [decide_eq_true_eq, mem_eraseDups, eq_comm (a := r)]

theorem mem_edges_mergePending {r : EdgeRecord} : r ∈ (mergePending base pending).edges ↔
    (r ∈ base.edges ∧ r.blob ∉ pending.blobs) ∨ ∃ e ∈ pending.edges, r = e.record := by
  obtain ⟨-, -, hedges, -⟩ :=
    @foldl_mergeBlob (dropDirty base pending) ⟨hbase.recorded, hbase.oneLine⟩ pending.blobs.toList
  rw [mergePending, hedges, mem_append, dropDirty, mem_filter, mem_map]
  simp only [decide_eq_true_eq, mem_eraseDups, eq_comm (a := r)]

theorem closed_mergePending (hclosed : base.Closed) (hpending : pending.Closed) :
    (mergePending base pending).Closed := by
  obtain ⟨-, -, -, hfold⟩ :=
    @foldl_mergeBlob (dropDirty base pending) ⟨hbase.recorded, hbase.oneLine⟩ pending.blobs.toList
  have horder : ∀ hash, hash ∈ base.blobOrder ∨ hash ∈ pending.blobs →
      hash ∈ (mergePending base pending).blobOrder := by
    intro hash h
    refine (hfold hash).mpr (h.imp id fun hmem => ?_)
    rwa [Std.TreeMap.map_fst_toList_eq_keys, Std.TreeMap.mem_keys]
  constructor
  · intro r hr
    rcases (mem_defs_mergePending hbase).mp hr with ⟨hold, -⟩ | ⟨d, hd, rfl⟩
    · exact horder r.blob (.inl (hclosed.defs r hold))
    · exact horder d.blob (.inr (hpending.defs d hd))
  · intro r hr
    rcases (mem_edges_mergePending hbase).mp hr with ⟨hold, -⟩ | ⟨e, he, rfl⟩
    · exact horder r.blob (.inl (hclosed.edges r hold))
    · exact horder e.blob (.inr (hpending.edges e he))
  · exact fun hash hmem => ((loaded_mergePending hbase).recorded hash).mpr hmem

end Loaded
end Merge

section Compact
variable {data : IndexData} {pending : PendingFacts}

def compacted (data : IndexData) (pending : PendingFacts) : IndexData := mergePending (loadBase data.global) pending

variable (hclosed : data.Closed)
include hclosed

theorem closed_compacted (hpending : pending.Closed) : (compacted data pending).Closed :=
  closed_mergePending loaded_loadBase (closed_loadBase hclosed) hpending

theorem exists_def_compacted {name : String} {x : CapsuleDef} :
    (∃ r ∈ (compacted data pending).defs, r.name = name ∧ x = r.shown) ↔
      (∃ d ∈ data.defs, d.blob ∉ pending.blobs ∧ d.name = name ∧ x = d.shown) ∨
        ∃ p ∈ pending.defs, p.name = name ∧ x = p.shown := by
  simp only [compacted, mem_defs_mergePending loaded_loadBase, mem_defs_loadBase hclosed]
  constructor
  · rintro ⟨r, ⟨⟨d, hd, rfl⟩, hclean⟩ | ⟨p, hp, rfl⟩, hname, hshown⟩
    · exact .inl ⟨d, hd, hclean, hname, hshown⟩
    · exact .inr ⟨p, hp, hname, hshown⟩
  · rintro (⟨d, hd, hclean, hname, hshown⟩ | ⟨p, hp, hname, hshown⟩)
    · exact ⟨{ d with kind := data.kindOf d.name }, .inl ⟨⟨d, hd, rfl⟩, hclean⟩, hname, hshown⟩
    · exact ⟨p.record, .inr ⟨p, hp, rfl⟩, hname, hshown⟩

theorem exists_edge_compacted {src : String} {x : CapsuleEdge} :
    (∃ r ∈ (compacted data pending).edges, r.src = src ∧ x = r.shown) ↔
      (∃ r ∈ data.edges, r.blob ∉ pending.blobs ∧ r.src = src ∧ x = r.shown) ∨
        ∃ p ∈ pending.edges, p.src = src ∧ x = { p.shown with source := none } := by
  simp only [compacted, mem_edges_mergePending loaded_loadBase, mem_edges_loadBase hclosed]
  constructor
  · rintro ⟨r, ⟨hr, hclean⟩ | ⟨p, hp, rfl⟩, hsrc, hshown⟩
    · exact .inl ⟨r, hr, hclean, hsrc, hshown⟩
    · exact .inr ⟨p, hp, hsrc, hshown⟩
  · rintro (⟨r, hr, hclean, hsrc, hshown⟩ | ⟨p, hp, hsrc, hshown⟩)
    · exact ⟨r, .inl ⟨hr, hclean⟩, hsrc, hshown⟩
    · exact ⟨p.record, .inr ⟨p, hp, rfl⟩, hsrc, hshown⟩

theorem showsDef_compacted_iff (hpending : pending.Closed) {d : Snapshot.VisibleDef} :
    Snapshot.ShowsDef ⟨(compacted data pending).global, PendingFacts.empty⟩ d ↔
      (compacted data pending).kindOf d.name = d.kind ∧
        ((∃ r ∈ data.defs, r.blob ∉ pending.blobs ∧ r.name = d.name ∧ d.shown = r.shown) ∨
          ∃ p ∈ pending.defs, p.name = d.name ∧ d.shown = p.shown) := by
  have hempty : ¬ ∃ p ∈ PendingFacts.empty.defs, p.name = d.name ∧ d.shown = p.shown := by simp [PendingFacts.empty]
  rw [Snapshot.showsDef_iff (closed_compacted hclosed hpending), exists_def_compacted hclosed, or_iff_left hempty]

theorem showsEdge_compacted_iff (hpending : pending.Closed) {e : Snapshot.VisibleEdge} :
    Snapshot.ShowsEdge ⟨(compacted data pending).global, PendingFacts.empty⟩ e ↔
      (∃ r ∈ data.edges, r.blob ∉ pending.blobs ∧ r.src = e.src ∧ e.shown = r.shown) ∨
        ∃ p ∈ pending.edges, p.src = e.src ∧ e.shown = { p.shown with source := none } := by
  rw [Snapshot.showsEdge_iff (closed_compacted hclosed hpending), exists_edge_compacted hclosed]
  simp [PendingFacts.empty]

omit hclosed in
theorem writeSnapshot_eq_ok {g : Global} :
    writeSnapshot data = .ok g ↔ g = data.global ∧ ∀ name ∈ data.global.names, (utf8Bytes name).length ≤ 65535 := by
  unfold writeSnapshot
  rw [IndexData.names_global]
  cases hfind : data.symbolTable.keys.find? (fun name => 65535 < (utf8Bytes name).length) with
  | some name =>
    have hmem := mem_of_find?_eq_some hfind
    have hlong : 65535 < (utf8Bytes name).length := by simpa using List.find?_some hfind
    constructor
    · intro h
      cases h
    · rintro ⟨-, hshort⟩
      exact absurd (hshort name hmem) (Nat.not_le.mpr hlong)
  | none =>
    have hshort : ∀ name ∈ data.symbolTable.keys, (utf8Bytes name).length ≤ 65535 := by
      intro name hmem
      simpa using List.find?_eq_none.mp hfind name hmem
    constructor
    · intro h
      cases h
      exact ⟨rfl, hshort⟩
    · rintro ⟨rfl, -⟩
      rfl

theorem compactGlobal_eq_ok {g : Global} {segments : List (List DeltaEntry)}
    (hwritten : writeSnapshot data = .ok g) : compactGlobal g (PendingFacts.ofSegments segments) =
      .ok (compacted data (PendingFacts.ofSegments segments)).global := by
  obtain ⟨rfl, hshort⟩ := writeSnapshot_eq_ok.mp hwritten
  refine writeSnapshot_eq_ok.mpr ⟨rfl, fun name hname => ?_⟩
  rcases IndexData.mem_names.mp hname with ⟨r, hr, rfl⟩ | ⟨r, hr, hend⟩
  · rcases (mem_defs_mergePending loaded_loadBase).mp hr with ⟨hold, -⟩ | ⟨p, hp, rfl⟩
    · obtain ⟨d, hd, rfl⟩ := (mem_defs_loadBase hclosed).mp hold
      exact hshort d.name (IndexData.mem_names.mpr (.inl ⟨d, hd, rfl⟩))
    · rw [(PendingFacts.of_ofSegments segments).defs] at hp
      obtain ⟨e, -, he⟩ := mem_filterMap.mp hp
      exact length_name_definition? he
  · rcases (mem_edges_mergePending loaded_loadBase).mp hr with ⟨hold, -⟩ | ⟨p, hp, rfl⟩
    · have hmem := (mem_edges_loadBase hclosed).mp hold
      exact hshort name (IndexData.mem_names.mpr (.inr ⟨r, hmem, hend⟩))
    · rw [(PendingFacts.of_ofSegments segments).edges] at hp
      obtain ⟨e, -, he⟩ := mem_filterMap.mp hp
      rcases hend with rfl | rfl
      · exact (length_names_edge? he).1
      · exact (length_names_edge? he).2

theorem kindOf_compacted (name : String) : (compacted data pending).kindOf name =
    if ∃ d ∈ data.defs, d.name = name ∧ d.blob ∉ pending.blobs then data.kindOf name else otherKind := by
  rw [IndexData.kindOf, compacted, defs_mergePending loaded_loadBase, List.find?_append]
  split_ifs with hkept
  · obtain ⟨d, hd, hname, hclean⟩ := hkept
    have hmem : { d with kind := data.kindOf d.name } ∈
        (loadBase data.global).defs.filter (·.blob ∉ pending.blobs) :=
      mem_filter.mpr ⟨(mem_defs_loadBase hclosed).mpr ⟨d, hd, rfl⟩, decide_eq_true hclean⟩
    obtain ⟨r, hr⟩ : ∃ r,
        ((loadBase data.global).defs.filter (·.blob ∉ pending.blobs)).find? (·.name = name) = some r :=
      Option.isSome_iff_exists.mp (List.find?_isSome.mpr ⟨_, hmem, decide_eq_true hname⟩)
    obtain ⟨d', hd', rfl⟩ := (mem_defs_loadBase hclosed).mp (mem_filter.mp (mem_of_find?_eq_some hr)).1
    have hname' : d'.name = name := by simpa using List.find?_some hr
    rw [hr, ← hname']
    rfl
  · have hnone : ((loadBase data.global).defs.filter (·.blob ∉ pending.blobs)).find? (·.name = name) = none := by
      apply List.find?_eq_none.mpr
      intro r hr hname
      obtain ⟨hloaded, hclean⟩ := mem_filter.mp hr
      obtain ⟨d, hd, rfl⟩ := (mem_defs_loadBase hclosed).mp hloaded
      exact hkept ⟨d, hd, by simpa using hname, by simpa using hclean⟩
    rw [hnone, Option.none_or]
    cases hlast : (pending.defs.eraseDups.map PendingDef.record).find? (·.name = name) with
    | none => rfl
    | some r =>
      obtain ⟨p, -, rfl⟩ := mem_map.mp (mem_of_find?_eq_some hlast)
      rfl

/-- The pending facts take back nothing of the snapshot. What they replace they say again, and the name of a replaced
definition was listed as OTHER or is defined in a file that stays; their edges start at known symbols and name no
publisher. -/
structure Repeated (data : IndexData) (pending : PendingFacts) : Prop where
  defs : ∀ d ∈ data.defs, d.blob ∈ pending.blobs → (∃ p ∈ pending.defs, p.name = d.name ∧ p.shown = d.shown) ∧
    (data.kindOf d.name = otherKind ∨ ∃ d' ∈ data.defs, d'.name = d.name ∧ d'.blob ∉ pending.blobs)
  edges : ∀ r ∈ data.edges, r.blob ∈ pending.blobs → ∃ p ∈ pending.edges, p.record = r
  known : ∀ p ∈ pending.edges, p.source = none ∧
    (p.src ∈ data.global.names ∨ ∃ d ∈ pending.defs, d.name = p.src)

theorem kindOf_kept (h : ∀ d ∈ data.defs, d.blob ∈ pending.blobs →
      data.kindOf d.name = otherKind ∨ ∃ d' ∈ data.defs, d'.name = d.name ∧ d'.blob ∉ pending.blobs) (name : String) :
    (compacted data pending).kindOf name = data.kindOf name := by
  rw [kindOf_compacted hclosed]
  split_ifs with hkept
  · rfl
  · cases hfind : data.defs.find? (·.name = name) with
    | none =>
      rw [IndexData.kindOf, hfind]
      rfl
    | some d =>
      have hname : d.name = name := by simpa using List.find?_some hfind
      have hd := mem_of_find?_eq_some hfind
      have hdirty : d.blob ∈ pending.blobs := by
        by_contra hclean
        exact hkept ⟨d, hd, hname, hclean⟩
      rw [← hname] at hkept ⊢
      exact ((h d hd hdirty).resolve_right hkept).symm

theorem visibleDefs_compacted_iff (hpending : pending.Closed) :
    Snapshot.visibleDefs ⟨(compacted data pending).global, PendingFacts.empty⟩ =
        Snapshot.visibleDefs ⟨data.global, pending⟩ ↔
      ∀ d ∈ data.defs, d.blob ∈ pending.blobs → (∃ p ∈ pending.defs, p.name = d.name ∧ p.shown = d.shown) ∧
        (data.kindOf d.name = otherKind ∨ ∃ d' ∈ data.defs, d'.name = d.name ∧ d'.blob ∉ pending.blobs) := by
  constructor
  · intro hsame d hd hdirty
    have hbefore : Snapshot.ShowsDef ⟨data.global, pending⟩ ⟨d.name, data.kindOf d.name, d.shown⟩ :=
      (Snapshot.showsDef_iff hclosed).mpr ⟨rfl, .inl ⟨d, hd, rfl, rfl⟩⟩
    have hafter : Snapshot.ShowsDef ⟨(compacted data pending).global, PendingFacts.empty⟩
        ⟨d.name, data.kindOf d.name, d.shown⟩ := hsame.ge hbefore
    obtain ⟨hkind, hshown⟩ := (showsDef_compacted_iff hclosed hpending).mp hafter
    constructor
    · rcases hshown with ⟨r, -, hclean, -, hsame⟩ | ⟨p, hp, hname, hsame⟩
      · have hblob : d.blob = r.blob := congrArg CapsuleDef.blob hsame
        exact absurd (hblob ▸ hdirty) hclean
      · exact ⟨p, hp, hname, hsame.symm⟩
    · rw [kindOf_compacted hclosed] at hkind
      split_ifs at hkind with hkept
      · exact .inr hkept
      · exact .inl hkind.symm
  · intro hrepeated
    ext v
    refine (showsDef_compacted_iff hclosed hpending).trans (Iff.trans ?_ (Snapshot.showsDef_iff hclosed).symm)
    rw [kindOf_kept hclosed fun d hd hdirty => (hrepeated d hd hdirty).2]
    refine and_congr_right fun _ => ⟨?_, ?_⟩
    · rintro (⟨r, hr, -, hname, hshown⟩ | hpend)
      · exact .inl ⟨r, hr, hname, hshown⟩
      · exact .inr hpend
    · rintro (⟨r, hr, hname, hshown⟩ | hpend)
      · by_cases hdirty : r.blob ∈ pending.blobs
        · obtain ⟨p, hp, hpname, hpshown⟩ := (hrepeated r hr hdirty).1
          exact .inr ⟨p, hp, hpname.trans hname, hshown.trans hpshown.symm⟩
        · exact .inl ⟨r, hr, hdirty, hname, hshown⟩
      · exact .inr hpend

omit hclosed in
theorem PendingEdge.shown_source_none {p : PendingEdge} (h : p.source = none) :
    { p.shown with source := none } = p.shown := by
  rw [PendingEdge.shown, h]

omit hclosed in
theorem PendingEdge.record_eq {p : PendingEdge} {r : EdgeRecord} :
    p.record = r ↔ p.src = r.src ∧ r.shown = { p.shown with source := none } := by
  obtain ⟨⟩ := p
  obtain ⟨⟩ := r
  simp only [record, shown, EdgeRecord.shown, EdgeRecord.mk.injEq, CapsuleEdge.mk.injEq]
  tauto

theorem visibleEdges_compacted_iff (hpending : pending.Closed) :
    Snapshot.visibleEdges ⟨(compacted data pending).global, PendingFacts.empty⟩ =
        Snapshot.visibleEdges ⟨data.global, pending⟩ ↔
      (∀ r ∈ data.edges, r.blob ∈ pending.blobs → ∃ p ∈ pending.edges, p.record = r) ∧
        ∀ p ∈ pending.edges, p.source = none ∧
          (p.src ∈ data.global.names ∨ ∃ d ∈ pending.defs, d.name = p.src) := by
  have hbefore : ∀ v : Snapshot.VisibleEdge, v ∈ Snapshot.visibleEdges ⟨data.global, pending⟩ ↔ _ :=
    fun v => Snapshot.showsEdge_iff hclosed
  have hafter : ∀ v : Snapshot.VisibleEdge,
      v ∈ Snapshot.visibleEdges ⟨(compacted data pending).global, PendingFacts.empty⟩ ↔ _ :=
    fun v => showsEdge_compacted_iff hclosed hpending
  constructor
  · intro hsame
    refine ⟨fun r hr hdirty => ?_, fun p hp => ?_⟩
    · have hshown := (hafter ⟨r.src, r.shown⟩).mp (hsame.ge ((hbefore _).mpr (.inl ⟨r, hr, rfl, rfl⟩)))
      rcases hshown with ⟨r', -, hclean, -, hsame⟩ | ⟨p, hp, hsrc, hsame⟩
      · have hblob : r.blob = r'.blob := congrArg CapsuleEdge.blob hsame
        exact absurd (hblob ▸ hdirty) hclean
      · exact ⟨p, hp, PendingEdge.record_eq.mpr ⟨hsrc, hsame⟩⟩
    · have hknown : p.src ∈ data.global.names ∨ ∃ d ∈ pending.defs, d.name = p.src := by
        have hshown := (hbefore ⟨p.src, { p.shown with source := none }⟩).mp
          (hsame.le ((hafter _).mpr (.inr ⟨p, hp, rfl, rfl⟩)))
        rcases hshown with ⟨r, hr, hsrc, -⟩ | ⟨hknown, -⟩
        · exact .inl (IndexData.mem_names.mpr (.inr ⟨r, hr, .inl hsrc⟩))
        · exact hknown
      refine ⟨?_, hknown⟩
      have hshown := (hafter ⟨p.src, p.shown⟩).mp (hsame.ge ((hbefore _).mpr (.inr ⟨hknown, p, hp, rfl, rfl⟩)))
      rcases hshown with ⟨r, -, -, -, hsource⟩ | ⟨q, -, -, hsource⟩
      · exact congrArg CapsuleEdge.source hsource
      · exact congrArg CapsuleEdge.source hsource
  · rintro ⟨hrepeated, hknown⟩
    ext v
    rw [hbefore, hafter]
    constructor
    · rintro (⟨r, hr, -, hsrc, hshown⟩ | ⟨p, hp, hsrc, hshown⟩)
      · exact .inl ⟨r, hr, hsrc, hshown⟩
      · obtain ⟨hsource, hstart⟩ := hknown p hp
        rw [PendingEdge.shown_source_none hsource] at hshown
        exact .inr ⟨hsrc ▸ hstart, p, hp, hsrc, hshown⟩
    · rintro (⟨r, hr, hsrc, hshown⟩ | ⟨-, p, hp, hsrc, hshown⟩)
      · by_cases hdirty : r.blob ∈ pending.blobs
        · obtain ⟨p, hp, hrecord⟩ := hrepeated r hr hdirty
          obtain ⟨hstart, hsame⟩ := PendingEdge.record_eq.mp hrecord
          exact .inr ⟨p, hp, hstart.trans hsrc, hshown.trans hsame⟩
        · exact .inl ⟨r, hr, hdirty, hsrc, hshown⟩
      · exact .inr ⟨p, hp, hsrc, hshown.trans (PendingEdge.shown_source_none (hknown p hp).1).symm⟩

end Compact

def oneFunction : IndexData :=
  ⟨(∅ : Std.TreeMap ContentHash BlobMeta).insert 1 ⟨['f'], 7, 5, 0b001⟩, [1], [⟨"f", 0, 1, 0, 5, 0, 5⟩], []⟩

theorem oneFunction_closed : oneFunction.Closed :=
  ⟨by decide, by decide, forall_mem_singleton.mpr Std.TreeMap.mem_insert_self⟩

theorem oneFunction_readable : oneFunction.Readable :=
  forall_mem_singleton.mpr (BlobMeta.readable_of_notMem (by decide))

theorem writeSnapshot_oneFunction : writeSnapshot oneFunction = .ok oneFunction.global :=
  writeSnapshot_eq_ok.mpr ⟨rfl, by decide +kernel⟩

def otherFile : List DeltaEntry :=
  [⟨symbolEntry, 2, [1, 0, 103, 0, 0, 0, 0, 0, 0, 5, 0, 0, 0]⟩,
    ⟨edgeEntry, 2, [1, 0, 103, 1, 0, 102, 0, 255, 2, 0, 0, 0, 3, 0, 0, 0]⟩, ⟨coverageEntry, 2, [0b001]⟩]

example : otherFile.filterMap definition? = [⟨"g", 2, 0, 5⟩] ∧
    otherFile.filterMap edge? = [⟨"g", "f", 0, 255, 2, 2, 3, none⟩] := by decide +kernel

def publishedEdge : ValidatedPublishEdge := ⟨"f", "g", 5, 255, 1, 0, 5, "profiler"⟩

end GraphZero.Store
