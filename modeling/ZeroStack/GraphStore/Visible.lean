import ZeroStack.GraphStore.Snapshot

/-! What the queries on a snapshot show: the definitions and edges of its index, and of the pending facts the
definitions and those edges whose source is known. -/

open Wire List

namespace GraphZero.Store

section Matches
variable {β : Type}

def Has (part : CapsuleMatch → List β) (ms : List CapsuleMatch) (name : String) (x : β) : Prop :=
  ∃ m ∈ ms, m.name = name ∧ x ∈ part m

def Named (ms : List CapsuleMatch) (name : String) : Prop := ∃ m ∈ ms, m.name = name

theorem named_iff_has {ms : List CapsuleMatch} {name : String} : Named ms name ↔ Has (fun _ => [()]) ms name () := by
  simp [Named, Has]

variable {part : CapsuleMatch → List β} {ms : List CapsuleMatch} {name name' : String} {x : β}
  {f : CapsuleMatch → CapsuleMatch} {added : List β}

theorem has_cons {m : CapsuleMatch} : Has part (m :: ms) name x ↔ (m.name = name ∧ x ∈ part m) ∨ Has part ms name x :=
  exists_mem_cons_iff ..

theorem has_append {more : List CapsuleMatch} : Has part
    (ms ++ more) name x ↔ Has part ms name x ∨ Has part more name x := by
  simp only [Has, mem_append, or_and_right, exists_or]

theorem has_updateMatch (hname : ∀ m, (f m).name = m.name) (hpart : ∀ m, part (f m) = part m ++ added) :
    Has part (updateMatch name f ms) name' x ↔ Has part ms name' x ∨ (name' = name ∧ x ∈ added ∧ Named ms name) := by
  induction ms with
  | nil => simp [updateMatch, Named]
  | cons m ms ih =>
    rw [updateMatch]
    by_cases hm : m.name = name
    · have hnamed : Named (m :: ms) name := ⟨m, mem_cons_self, hm⟩
      rw [if_pos hm, has_cons, has_cons, hname, hpart, mem_append, hm]
      constructor
      · rintro (⟨hn, hold | hnew⟩ | hrest)
        · exact .inl (.inl ⟨hn, hold⟩)
        · exact .inr ⟨hn.symm, hnew, hnamed⟩
        · exact .inl (.inr hrest)
      · rintro ((⟨hn, hold⟩ | hrest) | ⟨hn, hnew, -⟩)
        · exact .inl ⟨hn, .inl hold⟩
        · exact .inr hrest
        · exact .inl ⟨hn.symm, .inr hnew⟩
    · have hnamed : Named (m :: ms) name ↔ Named ms name := by simp [Named, hm]
      rw [if_neg hm, has_cons, has_cons, ih, hnamed, or_assoc]

theorem has_updateMatch_same (hname : ∀ m, (f m).name = m.name) (hpart : ∀ m, part (f m) = part m) :
    Has part (updateMatch name f ms) name' x ↔ Has part ms name' x := by
  have hnothing : ∀ m, part (f m) = part m ++ [] := fun m => by rw [hpart, append_nil]
  rw [has_updateMatch hname hnothing]
  simp

theorem any_name_iff : (ms.any (·.name = name)) = true ↔ Named ms name := by simp [Named]

end Matches

def PendingDef.shown (d : PendingDef) : CapsuleDef := ⟨d.blob, d.start, d.stop⟩

def PendingEdge.shown (e : PendingEdge) : CapsuleEdge := ⟨e.kind, e.dst, e.conf, e.blob, e.start, e.stop, e.source⟩

def DefRecord.shown (d : DefRecord) : CapsuleDef := ⟨d.blob, d.start, d.stop⟩

def EdgeRecord.shown (e : EdgeRecord) : CapsuleEdge := ⟨e.kind, e.dst, e.confidence, e.blob, e.start, e.stop, none⟩

section Pending
variable {ms : List CapsuleMatch} {symbol name : String}

theorem has_addDef {β : Type} {part : CapsuleMatch → List β} {x : β} {d : PendingDef} (added : List β)
    (hpush : ∀ m, part (m.pushDef d.shown) = part m ++ added) : Has part (addDef symbol ms d) symbol x ↔
      Has part ms symbol x ∨ (d.name = symbol ∧
        (Named ms symbol ∧ x ∈ added ∨ ¬ Named ms symbol ∧ x ∈ part ⟨d.name, [d.shown], []⟩)) := by
  have hupdate : Has part (updateMatch d.name (CapsuleMatch.pushDef d.shown) ms) symbol x ↔
      Has part ms symbol x ∨ (symbol = d.name ∧ x ∈ added ∧ Named ms d.name) := has_updateMatch (fun _ => rfl) hpush
  unfold addDef
  by_cases hname : d.name = symbol
  · subst hname
    rw [if_pos (.inl rfl)]
    by_cases hany : ms.any (·.name = d.name) = true
    · rw [if_pos hany]
      refine hupdate.trans ?_
      simp [any_name_iff.mp hany]
    · have hnamed : ¬ Named ms d.name := mt any_name_iff.mpr hany
      rw [if_neg hany, has_append]
      simp [Has, hnamed, PendingDef.shown]
  · split_ifs
    · refine hupdate.trans ?_
      simp [hname, Ne.symm hname]
    · rw [has_append]
      simp [Has, hname]
    · simp [hname]

theorem foldl_addDef (defs : List PendingDef) : (∀ x, Has CapsuleMatch.defs (defs.foldl (addDef symbol) ms) symbol x ↔
        Has CapsuleMatch.defs ms symbol x ∨ ∃ d ∈ defs, d.name = symbol ∧ x = d.shown) ∧
      (∀ x, Has CapsuleMatch.edges (defs.foldl (addDef symbol) ms) symbol x ↔ Has CapsuleMatch.edges ms symbol x) ∧
        (Named (defs.foldl (addDef symbol) ms) symbol ↔ Named ms symbol ∨ ∃ d ∈ defs, d.name = symbol) := by
  induction defs generalizing ms with
  | nil => simp
  | cons d defs ih =>
    obtain ⟨hdefs, hedges, hnamed⟩ := @ih (addDef symbol ms d)
    rw [foldl_cons]
    refine ⟨fun x => ?_, fun x => ?_, ?_⟩
    · rw [hdefs, has_addDef [d.shown] fun _ => rfl, exists_mem_cons_iff, ← or_and_right, mem_singleton,
        and_iff_right (em _), or_assoc]
    · rw [hedges, has_addDef [] fun m => (append_nil m.edges).symm]
      simp
    · rw [hnamed, named_iff_has, has_addDef [] fun _ => rfl, ← named_iff_has, exists_mem_cons_iff, ← or_assoc]
      by_cases hknown : Named ms symbol <;> simp [hknown]

theorem foldl_addEdge (edges : List PendingEdge) :
    (∀ x, Has CapsuleMatch.defs (edges.foldl addEdge ms) name x ↔ Has CapsuleMatch.defs ms name x) ∧
      ∀ x, Has CapsuleMatch.edges (edges.foldl addEdge ms) name x ↔
        Has CapsuleMatch.edges ms name x ∨ (Named ms name ∧ ∃ e ∈ edges, e.src = name ∧ x = e.shown) := by
  induction edges generalizing ms with
  | nil => simp
  | cons e edges ih =>
    obtain ⟨hdefs, hedges⟩ := @ih (addEdge ms e)
    have hnamed : Named (addEdge ms e) name ↔ Named ms name := by
      rw [named_iff_has, named_iff_has]
      exact has_updateMatch_same (fun _ => rfl) (fun _ => rfl)
    rw [foldl_cons]
    refine ⟨fun x => ?_, fun x => ?_⟩
    · rw [hdefs]
      exact has_updateMatch_same (fun _ => rfl) (fun _ => rfl)
    · have hstep : Has CapsuleMatch.edges (addEdge ms e) name x ↔
          Has CapsuleMatch.edges ms name x ∨ (name = e.src ∧ x ∈ [e.shown] ∧ Named ms e.src) :=
        has_updateMatch (fun _ => rfl) (fun _ => rfl)
      rw [hedges, hstep, hnamed, exists_mem_cons_iff, mem_singleton]
      constructor
      · rintro ((hold | ⟨rfl, rfl, hknown⟩) | ⟨hknown, hlater⟩)
        · exact .inl hold
        · exact .inr ⟨hknown, .inl ⟨rfl, rfl⟩⟩
        · exact .inr ⟨hknown, .inr hlater⟩
      · rintro (hold | ⟨hknown, ⟨rfl, rfl⟩ | hlater⟩)
        · exact .inl (.inl hold)
        · exact .inl (.inr ⟨rfl, rfl, hknown⟩)
        · exact .inr ⟨hknown, hlater⟩

end Pending

section Query
variable (s : Snapshot) (symbol : String)

def Snapshot.found : List CapsuleMatch := (s.global.symbolCandidateIds symbol).map (capsuleMatchForSymbol s.global)

theorem Snapshot.query_eq : s.query symbol = mergePendingDefsEdges s.pending symbol (s.found symbol) := by
  unfold query
  split_ifs with hempty
  · rw [mergePendingDefsEdges, hempty.1, hempty.2]
    rfl
  · rfl

theorem Snapshot.has_defs_query (x : CapsuleDef) : Has CapsuleMatch.defs (s.query symbol) symbol x ↔
      Has CapsuleMatch.defs (s.found symbol) symbol x ∨ ∃ d ∈ s.pending.defs, d.name = symbol ∧ x = d.shown := by
  rw [s.query_eq, mergePendingDefsEdges, (foldl_addEdge s.pending.edges).1, (foldl_addDef s.pending.defs).1]

theorem Snapshot.has_edges_query (x : CapsuleEdge) :
    Has CapsuleMatch.edges (s.query symbol) symbol x ↔ Has CapsuleMatch.edges (s.found symbol) symbol x ∨
      ((Named (s.found symbol) symbol ∨ ∃ d ∈ s.pending.defs, d.name = symbol) ∧
        ∃ e ∈ s.pending.edges, e.src = symbol ∧ x = e.shown) := by
  obtain ⟨-, hedges, hnamed⟩ := @foldl_addDef (s.found symbol) symbol s.pending.defs
  rw [s.query_eq, mergePendingDefsEdges, (foldl_addEdge s.pending.edges).2, hedges, hnamed]

end Query

structure IndexData.Closed (data : IndexData) : Prop where
  defs : ∀ d ∈ data.defs, d.blob ∈ data.blobOrder
  edges : ∀ e ∈ data.edges, e.blob ∈ data.blobOrder
  recorded : ∀ hash ∈ data.blobOrder, hash ∈ data.blobs

def IndexData.Readable (data : IndexData) : Prop := ∀ hash ∈ data.blobOrder, (data.blobMeta hash).Readable

theorem openFiles_eq_ok {data : IndexData} {pending : PendingFacts} {s : Snapshot} :
    openFiles data.global pending = .ok s ↔ data.Readable ∧ s = ⟨data.global, pending⟩ := by
  have hreadable : (∃ records, loadPathRecords data.global.sidecar = .ok records) ↔ data.Readable :=
    loadPathRecords_pathsSidecar.trans forall_mem_map
  rw [← hreadable, openFiles]
  cases loadPathRecords data.global.sidecar with
  | error error => simp [bind, Except.bind]
  | ok records => simp [bind, Except.bind, eq_comm]

namespace IndexData
variable {data : IndexData} {name : String} {hash : ContentHash}

theorem getD_blobIdx (h : hash ∈ data.blobOrder) : data.global.blobAt (data.blobIdx hash) = hash := by
  have hlt : data.blobOrder.reverse.idxOf hash < data.blobOrder.reverse.length :=
    idxOf_lt_length_iff.mpr (mem_reverse.mpr h)
  have hget : data.blobOrder.reverse[data.blobOrder.reverse.idxOf hash]? = some hash :=
    List.getElem?_eq_some_iff.mpr ⟨hlt, getElem_idxOf hlt⟩
  rw [length_reverse] at hlt
  rw [List.getElem?_reverse hlt] at hget
  rw [blobIdx]
  show (data.blobOrder[_]?).getD 0 = hash
  rw [hget]
  rfl

theorem names_global : data.global.names = data.symbolTable.keys := Std.TreeMap.map_fst_toList_eq_keys

theorem getElem?_insertIfNew_eq_or (table : Std.TreeMap String UInt8) (key : String) (kind : UInt8) :
    (table.insertIfNew key kind)[name]? = table[name]?.or (if key = name then some kind else none) := by
  rw [Std.TreeMap.getElem?_insertIfNew]
  by_cases hname : key = name
  · subst hname
    cases hold : table[key]? with
    | none =>
      have hnew : key ∉ table := by simpa using hold
      simp [hnew]
    | some kind =>
      have hmem : key ∈ table := Std.TreeMap.mem_iff_isSome_getElem?.mpr (by rw [hold]; rfl)
      simp [hmem]
  · simp [hname]

theorem getElem?_foldl_defs (defs : List DefRecord) (table : Std.TreeMap String UInt8) :
    (defs.foldl (fun table d => table.insertIfNew d.name d.kind) table)[name]? =
      table[name]?.or ((defs.find? (·.name = name)).map DefRecord.kind) := by
  induction defs generalizing table with
  | nil => simp
  | cons d defs ih =>
    rw [foldl_cons, ih, getElem?_insertIfNew_eq_or]
    by_cases hname : d.name = name <;> simp [hname]

theorem getElem?_foldl_edges (edges : List EdgeRecord) (table : Std.TreeMap String UInt8) :
    (edges.foldl (fun table e => (table.insertIfNew e.src otherKind).insertIfNew e.dst otherKind) table)[name]? =
      table[name]?.or (if ∃ e ∈ edges, e.src = name ∨ e.dst = name then some otherKind else none) := by
  induction edges generalizing table with
  | nil => simp
  | cons e edges ih =>
    rw [foldl_cons, ih, getElem?_insertIfNew_eq_or, getElem?_insertIfNew_eq_or, Option.or_assoc, Option.or_assoc]
    congr 1
    by_cases hsrc : e.src = name <;> by_cases hdst : e.dst = name <;> simp [hsrc, hdst]

theorem getElem?_symbolTable : data.symbolTable[name]? = ((data.defs.find? (·.name = name)).map DefRecord.kind).or
    (if ∃ e ∈ data.edges, e.src = name ∨ e.dst = name then some otherKind else none) := by
  rw [symbolTable, getElem?_foldl_edges, getElem?_foldl_defs]
  simp

theorem mem_names : name ∈ data.global.names ↔
    (∃ d ∈ data.defs, d.name = name) ∨ ∃ e ∈ data.edges, e.src = name ∨ e.dst = name := by
  rw [names_global, Std.TreeMap.mem_keys, Std.TreeMap.mem_iff_isSome_getElem?, getElem?_symbolTable, Option.isSome_or,
    Option.isSome_map]
  simp

def kindOf (data : IndexData) (name : String) : UInt8 :=
  ((data.defs.find? (·.name = name)).map DefRecord.kind).getD otherKind

theorem kind_global (pending : PendingFacts) : Snapshot.kind ⟨data.global, pending⟩ name = data.kindOf name := by
  have htable : (data.symbolTable[name]?).getD otherKind = data.kindOf name := by
    rw [getElem?_symbolTable, kindOf]
    cases data.defs.find? (·.name = name) with
    | none => by_cases hends : ∃ e ∈ data.edges, e.src = name ∨ e.dst = name <;> simp [hends]
    | some d => simp
  rw [← htable]
  show (Option.map Prod.snd (data.symbolTable.toList.find? (·.1 = name))).getD otherKind = _
  congr 1
  cases hfind : data.symbolTable.toList.find? (·.1 = name) with
  | none =>
    cases hvalue : data.symbolTable[name]? with
    | none => rfl
    | some kind =>
      have hmem := Std.TreeMap.mem_toList_iff_getElem?_eq_some.mpr hvalue
      have hother := List.find?_eq_none.mp hfind (name, kind) hmem
      exact absurd (decide_eq_true rfl) hother
  | some entry =>
    obtain ⟨found, kind⟩ := entry
    have hname : found = name := by simpa using List.find?_some hfind
    subst hname
    exact (Std.TreeMap.mem_toList_iff_getElem?_eq_some.mp (mem_of_find?_eq_some hfind)).symm

theorem nameAt_symbolId (h : name ∈ data.global.names) : data.global.nameAt (data.symbolId name) = name := by
  have hid : data.symbolId name = data.global.names.idxOf name := by rw [symbolId, names_global]
  have hlt : data.global.names.idxOf name < data.global.names.length := idxOf_lt_length_iff.mpr h
  rw [Global.nameAt, hid, getD_eq_getElem?_getD, List.getElem?_eq_getElem hlt, getElem_idxOf hlt]
  rfl

theorem symbolId_inj {other : String} (h : name ∈ data.global.names) (hid : data.symbolId name = data.symbolId other) :
    name = other := by
  rw [names_global] at h
  exact (idxOf_inj h).mp hid

theorem mem_block_map {α β : Type} {f : β → ℕ} {g : α → β} {l : List α} {id : ℕ} {y : β} :
    y ∈ Sorted.block f id ((l.map g).insertionSort fun a b => f a ≤ f b) ↔ ∃ x ∈ l, g x = y ∧ f (g x) = id := by
  rw [Sorted.mem_block (pairwise_insertionSort ..), (perm_insertionSort ..).mem_iff, mem_map]
  constructor
  · rintro ⟨⟨x, hx, rfl⟩, hid⟩
    exact ⟨x, hx, rfl, hid⟩
  · rintro ⟨x, hx, rfl, hid⟩
    exact ⟨⟨x, hx, rfl⟩, hid⟩

theorem mem_edgesOf {id : ℕ} {c : CsrEdge} :
    c ∈ data.global.edgesOf id ↔ ∃ e ∈ data.edges, data.csrEdge e = c ∧ data.symbolId e.src = id := mem_block_map

theorem nameAt_mem_of_prefixSearch {id : ℕ} (h : id ∈ data.global.prefixSearch name) :
    data.global.nameAt id ∈ data.global.names := by
  obtain ⟨hlo, hhi⟩ := mem_range'_1.mp h
  have hwhile := List.IsPrefix.length_le <| takeWhile_prefix
    (fun other => name.toList.isPrefixOf other.toList)
    (l := data.global.names.drop (data.global.names.countP (· < name)))
  rw [length_drop] at hwhile
  have hlt : id < data.global.names.length := by omega
  rw [Global.nameAt, getD_eq_getElem?_getD, List.getElem?_eq_getElem hlt]
  exact getElem_mem hlt

section Found
variable {symbol : String} {pending : PendingFacts}

theorem found_eq (h : symbol ∈ data.global.names) :
    Snapshot.found ⟨data.global, pending⟩ symbol = [capsuleMatchForSymbol data.global (data.symbolId symbol)] := by
  rw [Snapshot.found, Global.symbolCandidateIds, if_pos h, names_global]
  rfl

theorem not_named_found (h : symbol ∉ data.global.names) : ¬ Named
    (Snapshot.found ⟨data.global, pending⟩ symbol) symbol := by
  rintro ⟨m, hm, hname⟩
  rw [Snapshot.found, Global.symbolCandidateIds, if_neg h] at hm
  obtain ⟨id, hid, rfl⟩ := mem_map.mp hm
  have hmem := nameAt_mem_of_prefixSearch (mem_of_mem_take hid)
  have hsymbol : data.global.nameAt id = symbol := hname
  rw [hsymbol] at hmem
  exact h hmem

theorem named_found : Named (Snapshot.found ⟨data.global, pending⟩ symbol) symbol ↔ symbol ∈ data.global.names := by
  constructor
  · intro hnamed
    by_contra hmem
    exact not_named_found hmem hnamed
  · intro hmem
    rw [found_eq hmem]
    exact ⟨_, mem_cons_self, nameAt_symbolId hmem⟩

theorem has_found {β : Type} {part : CapsuleMatch → List β} {x : β} :
    Has part (Snapshot.found ⟨data.global, pending⟩ symbol) symbol x ↔
      symbol ∈ data.global.names ∧ x ∈ part (capsuleMatchForSymbol data.global (data.symbolId symbol)) := by
  by_cases hmem : symbol ∈ data.global.names
  · have hname : (capsuleMatchForSymbol data.global (data.symbolId symbol)).name = symbol := nameAt_symbolId hmem
    simp only [Has, found_eq hmem, mem_singleton, exists_eq_left, hname, hmem]
  · refine iff_of_false ?_ fun h => hmem h.1
    rintro ⟨m, hm, hname, -⟩
    exact not_named_found hmem ⟨m, hm, hname⟩

theorem has_defs_found (hclosed : data.Closed) (x : CapsuleDef) :
    Has CapsuleMatch.defs (Snapshot.found ⟨data.global, pending⟩ symbol) symbol x ↔
      ∃ d ∈ data.defs, d.name = symbol ∧ x = d.shown := by
  have hshown : ∀ d ∈ data.defs, (⟨data.global.blobAt (data.blobIdx d.blob), d.start, d.stop⟩) = d.shown := by
    intro d hd
    rw [getD_blobIdx (hclosed.defs d hd)]
    rfl
  have hnames : ∀ d ∈ data.defs, d.name ∈ data.global.names := fun d hd => mem_names.mpr (.inl ⟨d, hd, rfl⟩)
  rw [has_found]
  show _ ∧ x ∈ (data.global.spanRange _).map _ ↔ _
  rw [mem_map]
  constructor
  · rintro ⟨-, s, hs, rfl⟩
    obtain ⟨d, hd, rfl, hid⟩ := mem_block_map.mp hs
    exact ⟨d, hd, symbolId_inj (hnames d hd) hid, hshown d hd⟩
  · rintro ⟨d, hd, rfl, rfl⟩
    exact ⟨hnames d hd, data.span d, mem_block_map.mpr ⟨d, hd, rfl, rfl⟩, hshown d hd⟩

theorem has_edges_found (hclosed : data.Closed) (x : CapsuleEdge) :
    Has CapsuleMatch.edges (Snapshot.found ⟨data.global, pending⟩ symbol) symbol x ↔
      ∃ e ∈ data.edges, e.src = symbol ∧ x = e.shown := by
  have hshown : ∀ e ∈ data.edges, (⟨e.kind, data.global.nameAt (data.symbolId e.dst), e.confidence,
      data.global.blobAt (data.blobIdx e.blob), e.start, e.stop, none⟩ : CapsuleEdge) = e.shown := by
    intro e he
    have hdst : e.dst ∈ data.global.names := mem_names.mpr (.inr ⟨e, he, .inr rfl⟩)
    rw [nameAt_symbolId hdst, getD_blobIdx (hclosed.edges e he)]
    rfl
  have hnames : ∀ e ∈ data.edges, e.src ∈ data.global.names := fun e he => mem_names.mpr (.inr ⟨e, he, .inl rfl⟩)
  rw [has_found]
  show _ ∧ x ∈ (data.global.edgesOf _).map _ ↔ _
  rw [mem_map]
  constructor
  · rintro ⟨-, c, hc, rfl⟩
    obtain ⟨e, he, rfl, hid⟩ := mem_edgesOf.mp hc
    exact ⟨e, he, symbolId_inj (hnames e he) hid, hshown e he⟩
  · rintro ⟨e, he, rfl, rfl⟩
    exact ⟨hnames e he, data.csrEdge e, mem_edgesOf.mpr ⟨e, he, rfl, rfl⟩, hshown e he⟩

end Found
end IndexData

namespace Snapshot
variable {data : IndexData} {pending : PendingFacts}

theorem showsDef_iff (hclosed : data.Closed) {d : VisibleDef} : ShowsDef ⟨data.global, pending⟩ d ↔
    data.kindOf d.name = d.kind ∧ ((∃ r ∈ data.defs, r.name = d.name ∧ d.shown = r.shown) ∨
      ∃ p ∈ pending.defs, p.name = d.name ∧ d.shown = p.shown) := by
  rw [ShowsDef, IndexData.kind_global]
  apply and_congr_right
  intro _
  rw [← IndexData.has_defs_found hclosed]
  exact has_defs_query ⟨data.global, pending⟩ d.name d.shown

theorem showsEdge_iff (hclosed : data.Closed) {e : VisibleEdge} : ShowsEdge ⟨data.global, pending⟩ e ↔
    (∃ r ∈ data.edges, r.src = e.src ∧ e.shown = r.shown) ∨
      ((e.src ∈ data.global.names ∨ ∃ p ∈ pending.defs, p.name = e.src) ∧
        ∃ p ∈ pending.edges, p.src = e.src ∧ e.shown = p.shown) := by
  rw [← IndexData.has_edges_found hclosed, ← IndexData.named_found]
  exact has_edges_query ⟨data.global, pending⟩ e.src e.shown

end Snapshot
end GraphZero.Store
