import WinDV.AVIVerdict
import WinDV.Riff

/-! The checker's readers on encoded chunks: the headers they read, the chunks
the walk visits, and the super-index they find. -/

namespace WinDV

open RIFF

theorem and_not_one (n : Nat) (h : n < 2 ^ 32) : n &&& (2 ^ 32 - 2) = n - n % 2 := by
  have heven : n - n % 2 = 2 * (n / 2) := by omega
  rw [heven]
  apply Nat.eq_of_testBit_eq
  intro i
  cases i with
  | zero => simp [Nat.testBit_zero]
  | succ i =>
    have hmask : (2 ^ 32 - 2) / 2 = 2 ^ 31 - 1 := rfl
    have hdiv : 2 * (n / 2) / 2 = n / 2 := by omega
    rw [Nat.testBit_and, Nat.testBit_succ, Nat.testBit_succ, Nat.testBit_succ, hmask, hdiv,
      Nat.testBit_two_pow_sub_one]
    by_cases hi : i < 31
    · simp [hi]
    · have hlt : n / 2 < 2 ^ i :=
        Nat.lt_of_lt_of_le (by omega : n / 2 < 2 ^ 31) (Nat.pow_le_pow_right (by omega) (by omega))
      simp [Nat.testBit_lt_two_pow hlt]

theorem padEven_toNat {x : UInt32} (h : x.toNat + 1 < 2 ^ 32) :
    (padEven x).toNat = x.toNat + x.toNat % 2 := by
  have hsucc : (x + 1).toNat = x.toNat + 1 := by
    rw [UInt32.toNat_add]
    exact Nat.mod_eq_of_lt h
  have hmask : (~~~1 : UInt32).toNat = 2 ^ 32 - 2 := by decide
  rw [padEven, UInt32.toNat_and, hmask, hsucc, and_not_one _ h]
  omega

theorem dwordAt_le32 {buf rest : List UInt8} {i n : Nat} (hn : n < 2 ^ 32)
    (h : buf.drop i = le32 n ++ rest) : dwordAt buf i = UInt32.ofNat n := by
  have hget (k : Nat) : buf.getD (i + k) 0 = (buf.drop i).getD k 0 := by
    rw [List.getD_eq_getElem?_getD, List.getD_eq_getElem?_getD, List.getElem?_drop]
  have h0 := hget 0
  have h1 := hget 1
  have h2 := hget 2
  have h3 := hget 3
  rw [Nat.add_zero] at h0
  rw [dwordAt, h0, h1, h2, h3, h]
  have hbytes : (le32 n ++ rest).getD 0 0 = UInt8.ofNat n ∧
      (le32 n ++ rest).getD 1 0 = UInt8.ofNat (n / 2 ^ 8) ∧
      (le32 n ++ rest).getD 2 0 = UInt8.ofNat (n / 2 ^ 16) ∧
      (le32 n ++ rest).getD 3 0 = UInt8.ofNat (n / 2 ^ 24) := ⟨rfl, rfl, rfl, rfl⟩
  obtain ⟨g0, g1, g2, g3⟩ := hbytes
  rw [g0, g1, g2, g3]
  simp only [UInt8.toNat_ofNat']
  congr 1
  omega

def headerOf (c : Chunk) : RIFFChunk := ⟨c.id.1, UInt32.ofNat c.payload.length⟩

theorem headerOf_dwSize {c : Chunk} (h : c.payload.length < 2 ^ 32) :
    (headerOf c).dwSize.toNat = c.payload.length := Nat.mod_eq_of_lt h

theorem readChunk_at {file : List UInt8} {pos : Nat} {c : Chunk} (h : At file pos c)
    (hsize : c.payload.length < 2 ^ 32) : readChunk file pos = some (headerOf c) := by
  obtain ⟨rest, hrest⟩ := h
  have hbytes : (file.drop pos).take 8 = c.id.1 ++ le32 c.payload.length := by
    have hlen : (c.id.1 ++ le32 c.payload.length).length = 8 := by
      rw [List.length_append, c.id.2, le32_length]
    rw [hrest, Chunk.encode, List.append_assoc, List.append_assoc, List.take_left' hlen]
  have hfour : (c.id.1 ++ le32 c.payload.length).take 4 = c.id.1 := List.take_left' c.id.2
  have hsize' : dwordAt (c.id.1 ++ le32 c.payload.length) 4 = UInt32.ofNat c.payload.length := by
    have hdrop : (c.id.1 ++ le32 c.payload.length).drop 4 = le32 c.payload.length ++ [] := by
      rw [List.append_nil, List.drop_left' c.id.2]
    exact dwordAt_le32 hsize hdrop
  have hlen : ((file.drop pos).take 8).length = 8 := by
    rw [hbytes, List.length_append, c.id.2, le32_length]
  rw [readChunk, readExact, if_pos hlen, Option.map_some, hbytes, hfour, hsize']
  rfl

theorem next_at {c : Chunk} (pos : Nat) (h : c.encode.length < 2 ^ 32) :
    pos + 8 + (padEven (headerOf c).dwSize).toNat = pos + c.encode.length := by
  rw [Chunk.encode_length] at h ⊢
  have hsize : (headerOf c).dwSize.toNat = c.payload.length := headerOf_dwSize (by omega)
  rw [padEven_toNat (by omega), hsize]
  omega

theorem chunksFrom_encodeAll {file : List UInt8} (cs : List Chunk) {pos fuel : Nat}
    {rest : List UInt8} (h : file.drop pos = encodeAll cs ++ rest)
    (hsize : (encodeAll cs).length < 2 ^ 32) (hfuel : cs.length ≤ fuel) :
    chunksFrom file (pos + (encodeAll cs).length) fuel pos =
      (placed pos cs).map fun x => (x.1, headerOf x.2) := by
  induction cs generalizing pos fuel with
  | nil => exact chunksFrom_of_lt fuel (by rw [encodeAll, List.flatMap_nil, List.length_nil]; omega)
  | cons c cs ih =>
    rw [encodeAll_cons, List.append_assoc] at h
    have hat : At file pos c := ⟨_, h⟩
    have hlen : (encodeAll (c :: cs)).length = c.encode.length + (encodeAll cs).length := by
      rw [encodeAll_cons, List.length_append]
    have hc := c.encode_length
    rw [List.length_cons] at hfuel
    cases fuel with
    | zero => omega
    | succ fuel =>
      have htail := ih (drop_encode h) (by omega) (by omega : cs.length ≤ fuel)
      have hend : pos + (encodeAll (c :: cs)).length =
          pos + c.encode.length + (encodeAll cs).length := by omega
      rw [chunksFrom, if_pos (by omega), readChunk_at hat (by omega)]
      show (pos, headerOf c) :: chunksFrom file _ fuel (pos + 8 + _) = _
      rw [next_at pos (by omega), hend, htail]
      rfl

/-- Whether the scan for a super-index, with `nested` for the lists in it,
stops at the chunk `x`. -/
def leadsToIndex (nested : Nat → Nat → Bool) (x : Nat × Chunk) : Bool :=
  x.2.id.1 == fcc "indx" || (x.2.id.1 == fcc "LIST" && decide (4 ≤ x.2.payload.length) &&
    (x.2.payload.take 4 == fcc "hdrl" || x.2.payload.take 4 == fcc "strl") &&
    nested (x.1 + 12) (x.1 + 8 + x.2.payload.length))

theorem readExact_type {file : List UInt8} {pos : Nat} {c : Chunk} (h : At file pos c)
    (hlong : 4 ≤ c.payload.length) : readExact file (pos + 8) 4 = some (c.payload.take 4) := by
  obtain ⟨rest, hrest⟩ := h.payload
  have htake : (file.drop (pos + 8)).take 4 = c.payload.take 4 := by
    rw [hrest, List.take_append_of_le_length hlong]
  have hlen : ((file.drop (pos + 8)).take 4).length = 4 := by
    rw [htake, List.length_take]
    omega
  rw [readExact, if_pos hlen, htake]

theorem scanForIndex_at {file : List UInt8} (nested : Nat → Nat → Bool) {c : Chunk}
    {pos stop : Nat} (fuel : Nat) (h : At file pos c) (hsize : c.encode.length < 2 ^ 32)
    (hstop : pos + c.encode.length ≤ stop) :
    scanForIndex file nested (fuel + 1) pos stop =
      (leadsToIndex nested (pos, c) || scanForIndex file nested fuel (pos + c.encode.length) stop) := by
  have hc := c.encode_length
  have hnext := next_at (c := c) pos hsize
  have hdw : (headerOf c).dwSize.toNat = c.payload.length := headerOf_dwSize (by omega)
  have hid : (headerOf c).fourcc = c.id.1 := rfl
  have hin : ¬ (pos + c.encode.length ≤ pos ∨ pos + c.encode.length > stop) := by omega
  have hfour : (headerOf c).dwSize ≥ 4 ↔ 4 ≤ c.payload.length := by
    rw [ge_iff_le, UInt32.le_iff_toNat_le, hdw]
    rfl
  rw [scanForIndex, if_pos (by omega), readChunk_at h (by omega)]
  simp only [hnext, hid, hfour, hdw, if_neg hin]
  rw [leadsToIndex]
  by_cases hindx : c.id.1 = fcc "indx"
  · simp [hindx]
  · by_cases hlist : c.id.1 = fcc "LIST" ∧ 4 ≤ c.payload.length
    · simp only [if_neg hindx, if_pos hlist, readExact_type h hlist.2]
      by_cases htype : c.payload.take 4 = fcc "hdrl" ∨ c.payload.take 4 = fcc "strl"
      · have htype' : (c.payload.take 4 == fcc "hdrl" || c.payload.take 4 == fcc "strl") = true := by
          rw [Bool.or_eq_true, beq_iff_eq, beq_iff_eq]
          exact htype
        have hne : fcc "LIST" ≠ fcc "indx" := by decide
        cases nested (pos + 12) (pos + 8 + c.payload.length) with
        | true => simp [htype, htype', hlist]
        | false => simp [htype, hlist, beq_false_of_ne hne]
      · obtain ⟨hhdrl, hstrl⟩ := not_or.mp htype
        simp [hhdrl, hstrl, beq_false_of_ne hindx]
    · have hlist' : (c.id.1 == fcc "LIST" && decide (4 ≤ c.payload.length)) = false := by
        rw [Bool.and_eq_false_iff, decide_eq_false_iff_not, beq_eq_false_iff_ne]
        exact not_and_or.mp hlist
      simp [hindx, hlist, hlist', beq_false_of_ne hindx]

theorem scanForIndex_encodeAll {file : List UInt8} (nested : Nat → Nat → Bool) (cs : List Chunk)
    {pos fuel : Nat} {rest : List UInt8} (h : file.drop pos = encodeAll cs ++ rest)
    (hsize : (encodeAll cs).length < 2 ^ 32) (hfuel : cs.length < fuel) :
    scanForIndex file nested fuel pos (pos + (encodeAll cs).length) =
      (placed pos cs).any (leadsToIndex nested) := by
  induction cs generalizing pos fuel with
  | nil =>
    cases fuel with
    | zero => omega
    | succ fuel => exact if_neg (by rw [encodeAll, List.flatMap_nil, List.length_nil]; omega)
  | cons c cs ih =>
    rw [encodeAll_cons, List.append_assoc] at h
    have hlen : (encodeAll (c :: cs)).length = c.encode.length + (encodeAll cs).length := by
      rw [encodeAll_cons, List.length_append]
    have hc := c.encode_length
    rw [List.length_cons] at hfuel
    cases fuel with
    | zero => omega
    | succ fuel =>
      have htail := ih (drop_encode h) (by omega) (by omega : cs.length < fuel)
      have hend : pos + (encodeAll (c :: cs)).length =
          pos + c.encode.length + (encodeAll cs).length := by omega
      rw [placed, List.any_cons, ← htail, ← hend]
      exact scanForIndex_at nested fuel ⟨_, h⟩ (by omega) (by omega)

end WinDV
