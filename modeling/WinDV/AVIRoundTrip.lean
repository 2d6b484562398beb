import WinDV.AVIEncode

/-! Reading a well-formed AVI file back. -/

namespace WinDV

open RIFF

theorem toChunks_eq_map (items : List HdrlItem) : toChunks items = items.map HdrlItem.toChunk := by
  induction items with
  | nil => rfl
  | cons item items ih => rw [toChunks, ih, List.map_cons]

theorem indxWithin_zero {items : List HdrlItem} :
    IndxWithin 0 items ↔ ∃ id payload h, id.1 = fcc "indx" ∧ .chunk id payload h ∈ items := by
  constructor
  · rintro (⟨hid, hmem⟩ | _)
    exact ⟨_, _, _, hid, hmem⟩
  · rintro ⟨id, payload, h, hid, hmem⟩
    exact .here hid hmem

theorem indxWithin_succ {depth : Nat} {items : List HdrlItem} :
    IndxWithin (depth + 1) items ↔
      (∃ id payload h, id.1 = fcc "indx" ∧ .chunk id payload h ∈ items) ∨
        ∃ type h children, .metaList type h children ∈ items ∧ IndxWithin depth children := by
  constructor
  · rintro (⟨hid, hmem⟩ | ⟨hmem, hin⟩)
    · exact .inl ⟨_, _, _, hid, hmem⟩
    · exact .inr ⟨_, _, _, hmem, hin⟩
  · rintro (⟨id, payload, h, hid, hmem⟩ | ⟨type, h, children, hmem, hin⟩)
    · exact .here hid hmem
    · exact .nested hmem hin

/-- `nested` decides `inner` on the children encoded anywhere in the file. -/
def Decides (file : List UInt8) (nested : Nat → Nat → Bool) (inner : List HdrlItem → Prop) : Prop :=
  ∀ children p rest, file.drop p = encodeAll (toChunks children) ++ rest →
    (encodeAll (toChunks children)).length < 2 ^ 32 →
    (nested p (p + (encodeAll (toChunks children)).length) = true ↔ inner children)

/-- The item is an index, or a list the scan enters and `inner` finds one in it. -/
def HdrlItem.Leads (inner : List HdrlItem → Prop) : HdrlItem → Prop
  | .chunk id _ _ => id.1 = fcc "indx"
  | .metaList _ _ children => inner children
  | .otherList _ _ _ => False

theorem leadsToIndex_iff {file : List UInt8} {nested : Nat → Nat → Bool}
    {inner : List HdrlItem → Prop} (hnested : Decides file nested inner) {p : Nat} (item : HdrlItem)
    (hat : At file p item.toChunk) (hsize : item.toChunk.encode.length < 2 ^ 32) :
    leadsToIndex nested (p, item.toChunk) = true ↔ item.Leads inner := by
  have hne : fcc "LIST" ≠ fcc "indx" := by decide
  cases item with
  | chunk id payload h =>
    simp [leadsToIndex, HdrlItem.toChunk, HdrlItem.Leads, beq_false_of_ne h]
  | metaList type h children =>
    have hlen : (type.1 ++ encodeAll (toChunks children)).length =
        4 + (encodeAll (toChunks children)).length := by
      rw [List.length_append, type.2]
    have htype : (type.1 ++ encodeAll (toChunks children)).take 4 = type.1 :=
      List.take_left' type.2
    have hor : (type.1 == fcc "hdrl" || type.1 == fcc "strl") = true := by
      rw [Bool.or_eq_true, beq_iff_eq, beq_iff_eq]
      exact h
    obtain ⟨rest, hrest⟩ := hat.payload
    have hdrop : file.drop (p + 12) = encodeAll (toChunks children) ++ rest := by
      have hd : file.drop (p + 8) = type.1 ++ (encodeAll (toChunks children) ++ rest) := by
        rw [← List.append_assoc]
        exact hrest
      have hd' := drop_encode hd
      rwa [type.2] at hd'
    have hc := Chunk.encode_length (HdrlItem.metaList type h children).toChunk
    have hpayload : (HdrlItem.metaList type h children).toChunk.payload.length =
        4 + (encodeAll (toChunks children)).length := hlen
    have hin := hnested children (p + 12) rest hdrop (by omega)
    have hstop : p + 8 + (4 + (encodeAll (toChunks children)).length) =
        p + 12 + (encodeAll (toChunks children)).length := by omega
    simp only [leadsToIndex, HdrlItem.toChunk, htype, hor, hlen, hstop, beq_false_of_ne hne,
      beq_self_eq_true, Bool.false_or, Bool.true_and, HdrlItem.Leads, ← hin,
      decide_eq_true (Nat.le_add_right 4 (encodeAll (toChunks children)).length)]
  | otherList type h payload =>
    obtain ⟨hhdrl, hstrl⟩ := not_or.mp h
    simp [leadsToIndex, HdrlItem.toChunk, HdrlItem.Leads, beq_false_of_ne hne,
      List.take_left' type.2, hhdrl, hstrl]

theorem scanForIndex_iff {file : List UInt8} {nested : Nat → Nat → Bool}
    {inner : List HdrlItem → Prop} (hnested : Decides file nested inner) :
    Decides file (scanForIndex file nested (file.length + 1))
      fun items => ∃ item ∈ items, item.Leads inner := by
  intro items p rest hdrop hsize
  have hcount := length_le_encodeAll (toChunks items)
  have hlen := congrArg List.length hdrop
  rw [List.length_drop, List.length_append] at hlen
  rw [scanForIndex_encodeAll nested _ hdrop hsize (by omega), List.any_eq_true]
  have hat := placed_at _ hdrop
  constructor
  · rintro ⟨⟨q, c⟩, hmem, hleads⟩
    have hc := mem_of_mem_placed hmem
    have hsmall := Nat.lt_of_le_of_lt (encode_length_le hc) hsize
    rw [toChunks_eq_map] at hc
    obtain ⟨item, hitem, rfl⟩ := List.mem_map.mp hc
    exact ⟨item, hitem, (leadsToIndex_iff hnested item (hat _ hmem) hsmall).mp hleads⟩
  · rintro ⟨item, hitem, hleads⟩
    have hc : item.toChunk ∈ toChunks items := by
      rw [toChunks_eq_map]
      exact List.mem_map_of_mem hitem
    have hsmall := Nat.lt_of_le_of_lt (encode_length_le hc) hsize
    obtain ⟨q, hmem⟩ := exists_mem_placed p hc
    exact ⟨_, hmem, (leadsToIndex_iff hnested item (hat _ hmem) hsmall).mpr hleads⟩

/-- With `depth + 1` levels the search finds an index nested at most `depth` deep. -/
theorem containsOpenDMLIndex_iff (file : List UInt8) (depth : Nat) :
    Decides file (containsOpenDMLIndex file (depth + 1)) (IndxWithin depth) := by
  induction depth with
  | zero =>
    have hnone : Decides file (containsOpenDMLIndex file 0) fun _ => False :=
      fun _ _ _ _ _ => ⟨fun h => absurd h Bool.false_ne_true, False.elim⟩
    intro items p rest hdrop hsize
    rw [indxWithin_zero]
    refine (scanForIndex_iff hnone items p rest hdrop hsize).trans ?_
    constructor
    · rintro ⟨item, hmem, hleads⟩
      cases item with
      | chunk id payload h => exact ⟨id, payload, h, hleads, hmem⟩
      | metaList type h children => exact hleads.elim
      | otherList type h payload => exact hleads.elim
    · rintro ⟨id, payload, h, hid, hmem⟩
      exact ⟨_, hmem, hid⟩
  | succ depth ih =>
    intro items p rest hdrop hsize
    rw [indxWithin_succ]
    refine (scanForIndex_iff ih items p rest hdrop hsize).trans ?_
    constructor
    · rintro ⟨item, hmem, hleads⟩
      cases item with
      | chunk id payload h => exact .inl ⟨id, payload, h, hleads, hmem⟩
      | metaList type h children => exact .inr ⟨type, h, children, hmem, hleads⟩
      | otherList type h payload => exact hleads.elim
    · rintro (⟨id, payload, h, hid, hmem⟩ | ⟨type, h, children, hmem, hin⟩)
      · exact ⟨_, hmem, hid⟩
      · exact ⟨_, hmem, hin⟩

theorem isList_at {file : List UInt8} {p : Nat} {c : Chunk} (type : FourCC) {body : List UInt8}
    (hc : c = ⟨⟨fcc "LIST", rfl⟩, type.1 ++ body⟩) (hat : At file p c)
    (t : List UInt8) : isList file t (p, headerOf c) = (type.1 == t) := by
  subst hc
  have hlong : 4 ≤ (type.1 ++ body).length := by
    rw [List.length_append, type.2]
    exact Nat.le_add_right _ _
  have hread := readExact_type hat hlong
  have htype : (type.1 ++ body).take 4 = type.1 := List.take_left' type.2
  simp only [htype] at hread
  simp only [isList, headerOf, hread, beq_self_eq_true, Bool.true_and]
  rfl

theorem isList_of_id {file : List UInt8} {p : Nat} {c : Chunk} (h : c.id.1 ≠ fcc "LIST")
    (t : List UInt8) : isList file t (p, headerOf c) = false := by
  simp [isList, headerOf, h]

section TopItems

variable {file : List UInt8} {p : Nat}

theorem TopItem.isList_hdrl (item : TopItem) (hat : At file p item.toChunk) :
    isList file (fcc "hdrl") (p, headerOf item.toChunk) = false := by
  cases item with
  | movi payload => exact (isList_at ⟨fcc "movi", rfl⟩ rfl hat _).trans (by decide)
  | idx1 entries => exact isList_of_id (by decide : fcc "idx1" ≠ fcc "LIST") _
  | indx payload => exact isList_of_id (by decide : fcc "indx" ≠ fcc "LIST") _
  | otherList type h payload => exact (isList_at type rfl hat _).trans (beq_false_of_ne h.1)
  | other id h payload => exact isList_of_id h.1 _

def TopItem.isMovi : TopItem → Bool
  | .movi _ => true
  | _ => false

theorem TopItem.isList_movi (item : TopItem) (hat : At file p item.toChunk) :
    isList file (fcc "movi") (p, headerOf item.toChunk) = item.isMovi := by
  cases item with
  | movi payload => exact (isList_at ⟨fcc "movi", rfl⟩ rfl hat _).trans (beq_self_eq_true _)
  | idx1 entries => exact isList_of_id (by decide : fcc "idx1" ≠ fcc "LIST") _
  | indx payload => exact isList_of_id (by decide : fcc "indx" ≠ fcc "LIST") _
  | otherList type h payload => exact (isList_at type rfl hat _).trans (beq_false_of_ne h.2)
  | other id h payload => exact isList_of_id h.1 _

theorem TopItem.carriesIndex_iff (item : TopItem) (hat : At file p item.toChunk) :
    carriesIndex file (p, headerOf item.toChunk) = true ↔
      (∃ entries, item = .idx1 entries) ∨ ∃ payload, item = .indx payload := by
  have hhdrl := item.isList_hdrl hat
  rw [carriesIndex, hhdrl, Bool.false_and, Bool.or_false, Bool.or_eq_true, beq_iff_eq, beq_iff_eq]
  cases item with
  | movi payload => simp [headerOf, TopItem.toChunk, (by decide : fcc "LIST" ≠ fcc "idx1"),
      (by decide : fcc "LIST" ≠ fcc "indx")]
  | idx1 entries => simp [headerOf, TopItem.toChunk]
  | indx payload => simp [headerOf, TopItem.toChunk]
  | otherList type h payload => simp [headerOf, TopItem.toChunk,
      (by decide : fcc "LIST" ≠ fcc "idx1"), (by decide : fcc "LIST" ≠ fcc "indx")]
  | other id h payload => simp [headerOf, TopItem.toChunk, h.2.1, h.2.2]

end TopItems

section Header

variable (header : AVIMainHeader) (children : List HdrlItem)

theorem AVIMainHeader.encode_length : header.encode.length = 56 := rfl

theorem AVIMainHeader.dwordAt_encode :
    dwordAt header.encode 16 = header.dwTotalFrames := by
  have hdrop : header.encode.drop 16 = le32 header.dwTotalFrames.toNat ++ header.encode.drop 20 :=
    rfl
  rw [dwordAt_le32 header.dwTotalFrames.toNat_lt hdrop, UInt32.ofNat_toNat]

variable {header children} {file : List UInt8} {p : Nat}

theorem hdrlChunk_body (hat : At file p (hdrlChunk header children)) :
    ∃ rest, file.drop (p + 12) =
      encodeAll (⟨⟨fcc "avih", rfl⟩, header.encode⟩ :: toChunks children) ++ rest := by
  obtain ⟨rest, hrest⟩ := hat.payload
  refine ⟨rest, ?_⟩
  have hd : file.drop (p + 8) = fcc "hdrl" ++
      (encodeAll (⟨⟨fcc "avih", rfl⟩, header.encode⟩ :: toChunks children) ++ rest) := by
    rw [← List.append_assoc]
    exact hrest
  exact drop_encode hd

theorem readAvih_hdrlChunk (hat : At file p (hdrlChunk header children)) :
    readAvih file p {} = ⟨header.encode, true⟩ := by
  obtain ⟨rest, hrest⟩ := hdrlChunk_body hat
  rw [encodeAll_cons, List.append_assoc] at hrest
  have havih : At file (p + 12) ⟨⟨fcc "avih", rfl⟩, header.encode⟩ := ⟨_, hrest⟩
  have hread := readChunk_at havih (by decide : (56 : Nat) < 2 ^ 32)
  obtain ⟨more, hmore⟩ := havih.payload
  have hgot : (file.drop (p + 20)).take 56 = header.encode := by
    rw [show p + 20 = p + 12 + 8 from rfl, hmore]
    exact List.take_left' header.encode_length
  have hid : (headerOf ⟨⟨fcc "avih", rfl⟩, header.encode⟩).fourcc = fcc "avih" := rfl
  have hsize : ¬ (headerOf ⟨⟨fcc "avih", rfl⟩, header.encode⟩).dwSize > 56 := by
    show ¬ UInt32.ofNat 56 > 56
    decide
  have hnat : (headerOf ⟨⟨fcc "avih", rfl⟩, header.encode⟩).dwSize.toNat = 56 := rfl
  simp only [readAvih, hread, hid, if_true, if_neg hsize, hnat, hgot, header.encode_length]
  rfl

theorem hdrlChunk_isList (hat : At file p (hdrlChunk header children)) (t : List UInt8) :
    isList file t (p, headerOf (hdrlChunk header children)) = (fcc "hdrl" == t) :=
  isList_at ⟨fcc "hdrl", rfl⟩ rfl hat t

theorem hdrlChunk_carriesIndex (hat : At file p (hdrlChunk header children))
    (hsize : (hdrlChunk header children).encode.length < 2 ^ 32) :
    carriesIndex file (p, headerOf (hdrlChunk header children)) = true ↔
      IndxWithin 3 children := by
  have hitems : toChunks (.chunk ⟨fcc "avih", rfl⟩ header.encode (by decide) :: children) =
      ⟨⟨fcc "avih", rfl⟩, header.encode⟩ :: toChunks children := rfl
  obtain ⟨rest, hrest⟩ := hdrlChunk_body hat
  rw [← hitems] at hrest
  have hlen := Chunk.encode_length (hdrlChunk header children)
  have hpayload : (hdrlChunk header children).payload.length = 4 + (encodeAll (toChunks
      (.chunk ⟨fcc "avih", rfl⟩ header.encode (by decide) :: children))).length := by
    rw [hdrlChunk, List.length_append]
    rfl
  have hfind := containsOpenDMLIndex_iff file 3 _ _ _ hrest (by omega)
  have hdw : (headerOf (hdrlChunk header children)).dwSize.toNat =
      (hdrlChunk header children).payload.length := headerOf_dwSize (by omega)
  have hstop : p + 8 + (headerOf (hdrlChunk header children)).dwSize.toNat =
      p + 12 + (encodeAll (toChunks
        (.chunk ⟨fcc "avih", rfl⟩ header.encode (by decide) :: children))).length := by omega
  have hid : (headerOf (hdrlChunk header children)).fourcc = fcc "LIST" := rfl
  have hcons : IndxWithin 3 (.chunk ⟨fcc "avih", rfl⟩ header.encode (by decide) :: children) ↔
      IndxWithin 3 children := by
    constructor
    · rintro (⟨hid, hmem⟩ | ⟨hmem, hin⟩)
      · rcases List.mem_cons.mp hmem with heq | hmem
        · injection heq with heq
          rw [heq] at hid
          exact absurd hid (by decide)
        · exact .here hid hmem
      · rcases List.mem_cons.mp hmem with heq | hmem
        · cases heq
        · exact .nested hmem hin
    · rintro (⟨hid, hmem⟩ | ⟨hmem, hin⟩)
      · exact .here hid (List.mem_cons_of_mem _ hmem)
      · exact .nested (List.mem_cons_of_mem _ hmem) hin
  rw [carriesIndex, hdrlChunk_isList hat, hid]
  simp only [hstop]
  rw [← hcons, ← hfind]
  simp [(by decide : fcc "LIST" ≠ fcc "idx1"), (by decide : fcc "LIST" ≠ fcc "indx")]

end Header

section Entries

theorem AVIIndexEntry.encode_length (e : AVIIndexEntry) : e.encode.length = 16 := by
  rw [AVIIndexEntry.encode, List.length_append, List.length_append, List.length_append, e.ckid.2]
  rfl

theorem AVIIndexEntry.dwordAt_encode (e : AVIIndexEntry) : dwordAt e.encode 12 = e.dwSize := by
  have hdrop : e.encode.drop 12 = le32 e.dwSize.toNat ++ [] := by
    have hlen : (e.ckid.1 ++ le32 e.dwFlags.toNat ++ le32 e.dwOffset.toNat).length = 12 := by
      rw [List.length_append, List.length_append, e.ckid.2]
      rfl
    rw [AVIIndexEntry.encode, List.drop_left' hlen, List.append_nil]
  rw [dwordAt_le32 e.dwSize.toNat_lt hdrop, UInt32.ofNat_toNat]

theorem AVIIndexEntry.isVideoEntry_encode (e : AVIIndexEntry) :
    isVideoEntry e.encode = decide e.isVideo := by
  obtain ⟨⟨id, hid⟩, flags, offset, size⟩ := e
  match id, hid with
  | [a, b, c, d], _ =>
    have hdc : fcc "00dc" = [0x30, 0x30, 0x64, 0x63] := by decide
    have hdb : fcc "00db" = [0x30, 0x30, 0x64, 0x62] := by decide
    rw [Bool.eq_iff_iff, decide_eq_true_iff, AVIIndexEntry.isVideo, hdc, hdb]
    simp only [AVIIndexEntry.encode, isVideoEntry, List.cons_append, List.getD_cons_zero,
      List.getD_cons_succ, Bool.and_eq_true, Bool.or_eq_true, beq_iff_eq, List.cons.injEq]
    tauto

theorem AVIIndexEntry.isDefective_encode (e : AVIIndexEntry) :
    isDefective e.encode = decide (e.isVideo ∧ e.dwSize ≠ 120000 ∧ e.dwSize ≠ 144000) := by
  rw [isDefective, e.isVideoEntry_encode, e.dwordAt_encode, isFrameSize, Bool.eq_iff_iff]
  simp

theorem entryAt_flatMap (es : List AVIIndexEntry) (rest : List UInt8) :
    (List.range es.length).map (entryAt (es.flatMap AVIIndexEntry.encode ++ rest)) =
      es.map AVIIndexEntry.encode := by
  induction es with
  | nil => rfl
  | cons e es ih =>
    have hfirst : entryAt ((e :: es).flatMap AVIIndexEntry.encode ++ rest) 0 = e.encode := by
      rw [entryAt, Nat.mul_zero, List.drop_zero, List.flatMap_cons, List.append_assoc,
        List.take_left' e.encode_length]
    have hlater (i : Nat) : entryAt ((e :: es).flatMap AVIIndexEntry.encode ++ rest) (i + 1) =
        entryAt (es.flatMap AVIIndexEntry.encode ++ rest) i := by
      rw [Nat.add_comm i 1, ← entryAt_drop, List.flatMap_cons, List.append_assoc,
        List.drop_left' e.encode_length]
    rw [List.length_cons, List.range_succ_eq_map, List.map_cons, List.map_map, hfirst, List.map_cons,
      ← ih]
    congr 1
    exact List.map_congr_left fun i _ => hlater i

theorem flatMap_encode_length (es : List AVIIndexEntry) :
    (es.flatMap AVIIndexEntry.encode).length = 16 * es.length := by
  induction es with
  | nil => rfl
  | cons e es ih =>
    rw [List.flatMap_cons, List.length_append, ih, e.encode_length, List.length_cons]
    omega

theorem readEntries_idx1 {file : List UInt8} {p : Nat} {es : List AVIIndexEntry}
    (hat : At file p (TopItem.idx1 es).toChunk)
    (hsize : (TopItem.idx1 es).toChunk.encode.length < 2 ^ 32) :
    readEntries file (p, headerOf (TopItem.idx1 es).toChunk) = es.map AVIIndexEntry.encode := by
  have hlen := Chunk.encode_length (TopItem.idx1 es).toChunk
  have hpayload : (TopItem.idx1 es).toChunk.payload.length = 16 * es.length :=
    flatMap_encode_length es
  have hdw : (headerOf (TopItem.idx1 es).toChunk).dwSize.toNat = 16 * es.length :=
    (headerOf_dwSize (by omega)).trans hpayload
  have htotal : (headerOf (TopItem.idx1 es).toChunk).dwSize.toNat / 16 = es.length := by omega
  obtain ⟨rest, hrest⟩ := hat.payload
  have hdrop : file.drop (p + 8) = es.flatMap AVIIndexEntry.encode ++ rest := hrest
  have hfile := congrArg List.length hdrop
  rw [List.length_drop, List.length_append, flatMap_encode_length] at hfile
  have hread : readableEntries file (p + 8) es.length = es.length := by
    rcases Nat.eq_zero_or_pos es.length with hzero | hpos
    · rw [hzero, readableEntries_nil]
    · exact readableEntries_fits (by omega)
  rw [readEntries, htotal]
  show entriesFrom file (p + 8) (readableEntries file (p + 8) es.length) = _
  rw [hread, entriesFrom, hdrop, entryAt_flatMap]

end Entries

theorem foldl_readHeader_items {file : List UInt8} (items : List TopItem) {p : Nat}
    (hat : ∀ x ∈ placed p (items.map TopItem.toChunk), At file x.1 x.2) (h : MainHeader) :
    ((placed p (items.map TopItem.toChunk)).map fun x => (x.1, headerOf x.2)).foldl
      (readHeader file) h = h := by
  induction items generalizing p with
  | nil => rfl
  | cons item items ih =>
    rw [List.map_cons, placed] at hat ⊢
    have hno : readHeader file h (p, headerOf item.toChunk) = h := by
      rw [readHeader, item.isList_hdrl (hat _ List.mem_cons_self), if_neg Bool.false_ne_true]
    rw [List.map_cons, List.foldl_cons, hno]
    exact ih fun x hx => hat x (List.mem_cons_of_mem _ hx)

theorem filter_isIdx1_items {file : List UInt8} (items : List TopItem) {p : Nat}
    (hat : ∀ x ∈ placed p (items.map TopItem.toChunk),
      At file x.1 x.2 ∧ x.2.encode.length < 2 ^ 32) :
    (((placed p (items.map TopItem.toChunk)).map fun x => (x.1, headerOf x.2)).filter isIdx1).map
      (readEntries file) =
    (items.filterMap TopItem.entries?).map (List.map AVIIndexEntry.encode) := by
  induction items generalizing p with
  | nil => rfl
  | cons item items ih =>
    rw [List.map_cons, placed] at hat ⊢
    have htail := ih fun x hx => hat x (List.mem_cons_of_mem _ hx)
    obtain ⟨hhere, hsmall⟩ := hat _ List.mem_cons_self
    have hskip (hid : item.toChunk.id.1 ≠ fcc "idx1") (hnone : item.entries? = none) :
        (((p, headerOf item.toChunk) :: (placed (p + item.toChunk.encode.length)
          (items.map TopItem.toChunk)).map fun x => (x.1, headerOf x.2)).filter isIdx1).map
          (readEntries file) =
        ((item :: items).filterMap TopItem.entries?).map (List.map AVIIndexEntry.encode) := by
      have hno : isIdx1 (p, headerOf item.toChunk) = false := beq_false_of_ne hid
      rw [List.filter_cons_of_neg (by rw [hno]; exact Bool.false_ne_true),
        List.filterMap_cons_none hnone, htail]
    rw [List.map_cons]
    cases item with
    | idx1 es =>
      have hyes : isIdx1 (p, headerOf (TopItem.idx1 es).toChunk) = true := beq_self_eq_true _
      have hes : (TopItem.idx1 es).entries? = some es := rfl
      rw [List.filter_cons_of_pos hyes, List.map_cons, readEntries_idx1 hhere hsmall, htail,
        List.filterMap_cons_some hes, List.map_cons]
    | movi payload => exact hskip (by decide : fcc "LIST" ≠ fcc "idx1") rfl
    | indx payload => exact hskip (by decide : fcc "indx" ≠ fcc "idx1") rfl
    | otherList type h payload => exact hskip (by decide : fcc "LIST" ≠ fcc "idx1") rfl
    | other id h payload => exact hskip h.2.1 rfl

namespace AVI

theorem riff_length : (fcc "RIFF").length = 4 := rfl

variable (a : AVI)

def segment : Chunk := ⟨⟨fcc "RIFF", riff_length⟩, fcc "AVI " ++ encodeAll a.chunks⟩

theorem segment_payload_length : a.segment.payload.length = 4 + (encodeAll a.chunks).length :=
  List.length_append

theorem segment_at : At a.encode 0 a.segment := ⟨_, rfl⟩

theorem encode_drop : ∃ rest, a.encode.drop 12 = encodeAll a.chunks ++ rest := by
  obtain ⟨rest, hrest⟩ := a.segment_at.payload
  have hd : a.encode.drop 8 = fcc "AVI " ++ (encodeAll a.chunks ++ rest) := by
    rw [← List.append_assoc]
    exact hrest
  exact ⟨rest, drop_encode hd⟩

theorem encode_length : 12 + (encodeAll a.chunks).length ≤ a.encode.length := by
  have hseg := Chunk.encode_length a.segment
  have hpayload := a.segment_payload_length
  have hle : a.segment.encode.length ≤ a.encode.length := by
    rw [AVI.encode, List.length_append]
    exact Nat.le_add_right _ _
  omega

theorem hasSignature : HasSignature a.encode := by
  have hlen := a.encode_length
  obtain ⟨rest, hrest⟩ := a.segment_at.payload
  refine ⟨by omega, rfl, ?_⟩
  rw [show a.encode.drop 8 = a.segment.payload ++ rest from hrest, segment, List.append_assoc]
  exact List.take_left' rfl

theorem visitedChunks_encode :
    visitedChunks a.encode = (placed 12 a.chunks).map fun x => (x.1, headerOf x.2) := by
  obtain ⟨rest, hdrop⟩ := a.encode_drop
  have hlen := a.encode_length
  have hfits : 4 + (encodeAll a.chunks).length < 2 ^ 32 := a.fits
  have hread := readChunk_at a.segment_at (by rw [a.segment_payload_length]; exact hfits)
  have hdw : dwordAt (a.encode.take 12) 4 = UInt32.ofNat (4 + (encodeAll a.chunks).length) := by
    have hle : (a.encode.take 12).drop 4 =
        le32 (4 + (encodeAll a.chunks).length) ++ fcc "AVI " := by
      have htake : a.encode.take 12 = fcc "RIFF" ++
          (le32 (4 + (encodeAll a.chunks).length) ++ fcc "AVI ") := by
        rw [AVI.encode, Chunk.encode, ← a.segment_payload_length]
        simp only [List.append_assoc]
        rfl
      rw [htake]
      exact List.drop_left' rfl
    exact dwordAt_le32 hfits hle
  have hnat : (dwordAt (a.encode.take 12) 4).toNat = 4 + (encodeAll a.chunks).length := by
    rw [hdw]
    exact Nat.mod_eq_of_lt hfits
  have hcount := length_le_encodeAll a.chunks
  have hend : 8 + (4 + (encodeAll a.chunks).length) = 12 + (encodeAll a.chunks).length := by omega
  rw [visitedChunks, hnat, hend]
  simp only [if_neg (by omega : ¬ 12 + (encodeAll a.chunks).length > a.encode.length)]
  exact chunksFrom_encodeAll _ hdrop (by omega) (by omega)

theorem placed_chunks :
    placed 12 a.chunks =
      placed 12 (a.before.map TopItem.toChunk) ++
      (12 + (encodeAll (a.before.map TopItem.toChunk)).length, hdrlChunk a.header a.children) ::
      placed (12 + (encodeAll (a.before.map TopItem.toChunk)).length +
        (hdrlChunk a.header a.children).encode.length) (a.after.map TopItem.toChunk) := by
  rw [chunks, placed_append, placed]

theorem chunk_at {x : Nat × Chunk} (h : x ∈ placed 12 a.chunks) :
    At a.encode x.1 x.2 ∧ x.2.encode.length < 2 ^ 32 := by
  obtain ⟨rest, hdrop⟩ := a.encode_drop
  have hfits : 4 + (encodeAll a.chunks).length < 2 ^ 32 := a.fits
  have hle := encode_length_le (mem_of_mem_placed h)
  exact ⟨placed_at _ hdrop x h, by omega⟩

theorem hdrl_mem : (12 + (encodeAll (a.before.map TopItem.toChunk)).length,
    hdrlChunk a.header a.children) ∈ placed 12 a.chunks := by
  rw [placed_chunks]
  exact List.mem_append_right _ List.mem_cons_self

theorem mem_placed {x : Nat × Chunk} (h : x ∈ placed 12 a.chunks) :
    (∃ item ∈ a.items, x.2 = item.toChunk) ∨ x.2 = hdrlChunk a.header a.children := by
  have hmem := mem_of_mem_placed h
  rw [chunks, List.mem_append, List.mem_cons] at hmem
  rcases hmem with hmem | hmem | hmem
  · obtain ⟨item, hitem, heq⟩ := List.mem_map.mp hmem
    exact .inl ⟨item, List.mem_append_left _ hitem, heq.symm⟩
  · exact .inr hmem
  · obtain ⟨item, hitem, heq⟩ := List.mem_map.mp hmem
    exact .inl ⟨item, List.mem_append_right _ hitem, heq.symm⟩

theorem item_mem {item : TopItem} (h : item ∈ a.items) :
    ∃ p, (p, item.toChunk) ∈ placed 12 a.chunks := by
  apply exists_mem_placed
  rw [chunks, List.mem_append, List.mem_cons]
  rcases List.mem_append.mp h with h | h
  · exact .inl (List.mem_map_of_mem h)
  · exact .inr (.inr (List.mem_map_of_mem h))

theorem any_visited (q : Nat × RIFFChunk → Bool) (Q : TopItem → Prop) (H : Prop)
    (hitem : ∀ p (item : TopItem), At a.encode p item.toChunk →
      (q (p, headerOf item.toChunk) = true ↔ Q item))
    (hhdrl : ∀ p, At a.encode p (hdrlChunk a.header a.children) →
      (hdrlChunk a.header a.children).encode.length < 2 ^ 32 →
      (q (p, headerOf (hdrlChunk a.header a.children)) = true ↔ H)) :
    (visitedChunks a.encode).any q = true ↔ (∃ item ∈ a.items, Q item) ∨ H := by
  rw [visitedChunks_encode, List.any_map, List.any_eq_true]
  constructor
  · rintro ⟨⟨p, c⟩, hmem, hq⟩
    obtain ⟨hat, hsmall⟩ := a.chunk_at hmem
    rcases a.mem_placed hmem with ⟨item, hin, heq⟩ | heq
    · simp only at heq
      subst heq
      exact .inl ⟨item, hin, (hitem p item hat).mp hq⟩
    · simp only at heq
      subst heq
      exact .inr ((hhdrl p hat hsmall).mp hq)
  · rintro (⟨item, hin, hQ⟩ | hH)
    · obtain ⟨p, hmem⟩ := a.item_mem hin
      exact ⟨_, hmem, (hitem p item (a.chunk_at hmem).1).mpr hQ⟩
    · obtain ⟨hat, hsmall⟩ := a.chunk_at a.hdrl_mem
      exact ⟨_, a.hdrl_mem, (hhdrl _ hat hsmall).mpr hH⟩

theorem before_at {x : Nat × Chunk} (h : x ∈ placed 12 (a.before.map TopItem.toChunk)) :
    At a.encode x.1 x.2 ∧ x.2.encode.length < 2 ^ 32 := by
  apply a.chunk_at
  rw [placed_chunks]
  exact List.mem_append_left _ h

theorem after_at {x : Nat × Chunk}
    (h : x ∈ placed (12 + (encodeAll (a.before.map TopItem.toChunk)).length +
      (hdrlChunk a.header a.children).encode.length) (a.after.map TopItem.toChunk)) :
    At a.encode x.1 x.2 ∧ x.2.encode.length < 2 ^ 32 := by
  apply a.chunk_at
  rw [placed_chunks]
  exact List.mem_append_right _ (List.mem_cons_of_mem _ h)

theorem mainHeader_encode : mainHeader a.encode = ⟨a.header.encode, true⟩ := by
  have hat := (a.chunk_at a.hdrl_mem).1
  have hbefore := foldl_readHeader_items a.before (fun x hx => (a.before_at hx).1) {}
  have hafter := foldl_readHeader_items a.after (fun x hx => (a.after_at hx).1)
    ⟨a.header.encode, true⟩
  rw [mainHeader, visitedChunks_encode, placed_chunks, List.map_append, List.map_cons,
    List.foldl_append, List.foldl_cons, hbefore]
  simp only [readHeader, hdrlChunk_isList hat, beq_self_eq_true, if_true, readAvih_hdrlChunk hat]
  exact hafter

theorem idx1_entries :
    ((visitedChunks a.encode).filter isIdx1).map (readEntries a.encode) =
      (a.items.filterMap TopItem.entries?).map (List.map AVIIndexEntry.encode) := by
  have hhdrl (p : Nat) : isIdx1 (p, headerOf (hdrlChunk a.header a.children)) = false :=
    beq_false_of_ne (by decide : fcc "LIST" ≠ fcc "idx1")
  rw [visitedChunks_encode, placed_chunks, List.map_append, List.map_cons, List.filter_append,
    List.filter_cons_of_neg (by rw [hhdrl]; exact Bool.false_ne_true), List.map_append,
    filter_isIdx1_items a.before fun x hx => a.before_at hx,
    filter_isIdx1_items a.after fun x hx => a.after_at hx, items, List.filterMap_append,
    List.map_append]

theorem lastEntries_encode : lastEntries a.encode = a.entries.map AVIIndexEntry.encode := by
  have hentries := a.idx1_entries
  have hone : (a.items.filterMap TopItem.entries?).length ≤ 1 := a.oneIndex
  have hlast : lastEntries a.encode =
      (((visitedChunks a.encode).filter isIdx1).map (readEntries a.encode)).getLast?.getD [] := by
    rw [lastEntries, List.getLast?_map]
    cases ((visitedChunks a.encode).filter isIdx1).getLast? <;> rfl
  rw [hlast, hentries, entries]
  generalize a.items.filterMap TopItem.entries? = tables at hone
  rcases tables with _ | ⟨es, _ | ⟨_, _⟩⟩
  · rfl
  · simp
  · simp at hone

theorem frames_encode :
    frames a.encode =
      if a.header.dwTotalFrames = 0 then a.entries.countP (fun e => e.isVideo)
      else a.header.dwTotalFrames.toNat := by
  have hcount : (lastEntries a.encode).countP isVideoEntry =
      a.entries.countP (fun e => e.isVideo) := by
    rw [lastEntries_encode, List.countP_map]
    exact List.countP_congr fun e _ => by
      rw [Function.comp_apply, e.isVideoEntry_encode]
  rw [frames, headerFrames, mainHeader_encode, hcount, if_pos rfl, a.header.dwordAt_encode]
  have hzero : a.header.dwTotalFrames.toNat = 0 ↔ a.header.dwTotalFrames = 0 :=
    UInt32.toNat_inj (b := 0)
  by_cases hz : a.header.dwTotalFrames = 0
  · rw [if_pos hz, if_pos (hzero.mpr hz)]
  · rw [if_neg hz, if_neg (hzero.not.mpr hz)]

/-- The result `r` says of the file what it was made of. -/
structure ReadsAs (r : AVICheckResult) : Prop where
  bHasIndex : r.bHasIndex = true ↔ (∃ entries, .idx1 entries ∈ a.items) ∨
    (∃ payload, .indx payload ∈ a.items) ∨ IndxWithin 3 a.children
  dwIndexEntries : r.dwIndexEntries.toNat = a.entries.countP (fun e => e.isVideo)
  dwDefectFrames : r.dwDefectFrames.toNat =
    a.entries.countP (fun e => e.isVideo ∧ e.dwSize ≠ 120000 ∧ e.dwSize ≠ 144000)
  dwFrameCount : r.dwFrameCount =
    if a.header.dwTotalFrames = 0 then r.dwIndexEntries else a.header.dwTotalFrames
  bValid : r.bValid = true ↔ (∃ payload, .movi payload ∈ a.items) ∧ 0 < r.dwFrameCount

/-- The checker reads every well-formed AVI file for what it is. -/
theorem checkAVIIntegrity_encode : a.ReadsAs (checkAVIIntegrity (.readable a.encode)) := by
  have hsig := a.hasSignature
  have hvideo : (checkAVIIntegrity (.readable a.encode)).dwIndexEntries.toNat =
      a.entries.countP (fun e => e.isVideo) := by
    rw [check_dwIndexEntries hsig, lastEntries_encode, List.countP_map]
    exact List.countP_congr fun e _ => by
      rw [Function.comp_apply, e.isVideoEntry_encode]
  refine ⟨?_, hvideo, ?_, ?_, ?_⟩
  · rw [check_bHasIndex hsig, a.any_visited (carriesIndex a.encode) _ _
      (fun p item hat => item.carriesIndex_iff hat)
      (fun p hat hsmall => hdrlChunk_carriesIndex hat hsmall), ← or_assoc]
    refine or_congr_left ?_
    constructor
    · rintro ⟨item, hmem, ⟨entries, rfl⟩ | ⟨payload, rfl⟩⟩
      · exact .inl ⟨entries, hmem⟩
      · exact .inr ⟨payload, hmem⟩
    · rintro (⟨entries, hmem⟩ | ⟨payload, hmem⟩)
      · exact ⟨_, hmem, .inl ⟨entries, rfl⟩⟩
      · exact ⟨_, hmem, .inr ⟨payload, rfl⟩⟩
  · rw [check_dwDefectFrames hsig, lastEntries_encode, List.countP_map]
    exact List.countP_congr fun e _ => by
      rw [Function.comp_apply, e.isDefective_encode]
  · apply UInt32.toNat_inj.mp
    rw [check_dwFrameCount hsig, frames_encode]
    by_cases hz : a.header.dwTotalFrames = 0
    · rw [if_pos hz, if_pos hz, hvideo]
    · rw [if_neg hz, if_neg hz]
  · have hhdrl : (visitedChunks a.encode).any (isList a.encode (fcc "hdrl")) = true := by
      rw [a.any_visited _ (fun _ => False) True (fun p item hat => by simp [item.isList_hdrl hat])
        (fun p hat _ => by simp [hdrlChunk_isList hat])]
      exact .inr trivial
    have hmovi : (visitedChunks a.encode).any (isList a.encode (fcc "movi")) = true ↔
        ∃ payload, .movi payload ∈ a.items := by
      rw [a.any_visited _ (fun item => item.isMovi = true) False
        (fun p item hat => by rw [item.isList_movi hat])
        (fun p hat _ => by
          rw [hdrlChunk_isList hat, beq_false_of_ne (by decide : fcc "hdrl" ≠ fcc "movi")]
          exact ⟨fun h => absurd h Bool.false_ne_true, False.elim⟩)]
      constructor
      · rintro (⟨item, hmem, hm⟩ | hfalse)
        · cases item with
          | movi payload => exact ⟨payload, hmem⟩
          | idx1 entries => exact absurd hm Bool.false_ne_true
          | indx payload => exact absurd hm Bool.false_ne_true
          | otherList type h payload => exact absurd hm Bool.false_ne_true
          | other id h payload => exact absurd hm Bool.false_ne_true
        · exact hfalse.elim
      · rintro ⟨payload, hmem⟩
        exact .inl ⟨_, hmem, rfl⟩
    have hcount : 0 < frames a.encode ↔
        0 < (checkAVIIntegrity (.readable a.encode)).dwFrameCount := by
      rw [← check_dwFrameCount hsig, UInt32.lt_iff_toNat_lt]
      rfl
    rw [check_bValid hsig, hhdrl, Bool.true_and, Bool.and_eq_true, hmovi, decide_eq_true_iff, hcount]

end AVI

end WinDV