import Mathlib.Data.List.Basic
import Mathlib.Data.List.DropRight
import Mathlib.Data.Nat.Digits.Defs

/-! The AVI checker of `AVICheck.cpp`, on the bytes of the file. File offsets
are `__int64` in the source and a file is shorter than 2^63 bytes, so they are
natural numbers here; chunk sizes are DWORDs and wrap. -/

namespace WinDV

/-- MFC's `CString`, as its characters. -/
abbrev CString := List Char

def CString.trimRight (s : CString) : CString := s.rdropWhile Char.isWhitespace

/-- The `%lu` of `CString::Format`. -/
def CString.ofDWORD (n : UInt32) : CString := Nat.toDigits 10 n.toNat

structure AVICheckResult where
  bValid : Bool := false
  bHasIndex : Bool := false
  dwFrameCount : UInt32 := 0
  dwIndexEntries : UInt32 := 0
  dwDefectFrames : UInt32 := 0
  dwExpectedSize : Nat := 0
  dwActualSize : Nat := 0
  bIsPAL : Bool := false
  sError : CString := []
  deriving DecidableEq, Repr

def AVICheckResult.isOK (r : AVICheckResult) : Bool :=
  r.bValid && r.dwDefectFrames == 0 && r.bHasIndex

inductive AVIFile
  | accessDenied
  | sizeUnreadable
  | readable (bytes : List UInt8)
  deriving DecidableEq, Repr

def fcc (s : String) : List UInt8 := s.toList.map fun c => UInt8.ofNat c.toNat

structure RIFFChunk where
  fourcc : List UInt8
  dwSize : UInt32
  deriving DecidableEq, Repr

def padEven (x : UInt32) : UInt32 := (x + 1) &&& ~~~1

/-- `ReadExact` with the file pointer at `pos`. -/
def readExact (file : List UInt8) (pos n : Nat) : Option (List UInt8) :=
  let got := (file.drop pos).take n
  if got.length = n then some got else none

/-- The little-endian DWORD at offset `i` of a buffer. -/
def dwordAt (buf : List UInt8) (i : Nat) : UInt32 :=
  UInt32.ofNat ((buf.getD i 0).toNat + (buf.getD (i + 1) 0).toNat * 2 ^ 8 +
    (buf.getD (i + 2) 0).toNat * 2 ^ 16 + (buf.getD (i + 3) 0).toNat * 2 ^ 24)

def readChunk (file : List UInt8) (pos : Nat) : Option RIFFChunk :=
  (readExact file pos 8).map fun buf => ⟨buf.take 4, dwordAt buf 4⟩

/-- The loop of `ContainsOpenDMLIndex`; `nested` is the recursive call, with one level less. -/
def scanForIndex (file : List UInt8) (nested : Nat → Nat → Bool) : Nat → Nat → Nat → Bool
  | 0, _, _ => false
  | fuel + 1, pos, stop =>
    if pos + 8 ≤ stop then
      match readChunk file pos with
      | none => false
      | some ck =>
        let payload := pos + 8
        let nextPos := payload + (padEven ck.dwSize).toNat
        if nextPos ≤ pos ∨ nextPos > stop then false
        else if ck.fourcc = fcc "indx" then true
        else if ck.fourcc = fcc "LIST" ∧ ck.dwSize ≥ 4 then
          match readExact file payload 4 with
          | none => false
          | some listType =>
            if (listType = fcc "hdrl" ∨ listType = fcc "strl") ∧
                nested (payload + 4) (pos + 8 + ck.dwSize.toNat) = true then true
            else scanForIndex file nested fuel nextPos stop
        else scanForIndex file nested fuel nextPos stop
    else false

/-- `ContainsOpenDMLIndex` at depth `levels - 1`. -/
def containsOpenDMLIndex (file : List UInt8) : Nat → Nat → Nat → Bool
  | 0, _, _ => false
  | levels + 1, start, stop =>
    scanForIndex file (containsOpenDMLIndex file levels) (file.length + 1) start stop

/-- What the scan of `idx1` accumulates; `bIsPAL` is the field of the result. -/
structure Idx1Scan where
  videoFrames : UInt32 := 0
  defect : UInt32 := 0
  formatKnown : Bool := false
  bIsPAL : Bool
  deriving DecidableEq, Repr

def isVideoEntry (entry : List UInt8) : Bool :=
  entry.getD 0 0 == 0x30 && entry.getD 1 0 == 0x30 && entry.getD 2 0 == 0x64 &&
    (entry.getD 3 0 == 0x63 || entry.getD 3 0 == 0x62)

def isFrameSize (dwSize : UInt32) : Bool := dwSize == 120000 || dwSize == 144000

def scanEntry (s : Idx1Scan) (entry : List UInt8) : Idx1Scan :=
  if isVideoEntry entry then
    let dwSize := dwordAt entry 12
    let s := { s with videoFrames := s.videoFrames + 1 }
    let s := if !s.formatKnown && isFrameSize dwSize then
      { s with bIsPAL := dwSize == 144000, formatKnown := true } else s
    if isFrameSize dwSize then s else { s with defect := s.defect + 1 }
  else s

def entryAt (buf : List UInt8) (i : Nat) : List UInt8 := (buf.drop (16 * i)).take 16

/-- The batched loop over the entries of `idx1`, with the entries it left unread. -/
def scanIdx1 (file : List UInt8) : Nat → Nat → Nat → Idx1Scan → Idx1Scan × Nat
  | 0, _, remaining, s => (s, remaining)
  | fuel + 1, pos, remaining, s =>
    if remaining > 0 then
      let batch := if remaining > 4096 then 4096 else remaining
      match readExact file pos (batch * 16) with
      | none => (s, remaining)
      | some buf =>
        let s := (List.range batch).foldl (fun s i => scanEntry s (entryAt buf i)) s
        scanIdx1 file fuel (pos + batch * 16) (remaining - batch) s
    else (s, remaining)

structure MainHeader where
  avih : List UInt8 := List.replicate 56 0
  bHasAvih : Bool := false
  deriving DecidableEq, Repr

structure Walk where
  r : AVICheckResult
  bHasHdrl : Bool := false
  bHasMovi : Bool := false
  header : MainHeader := {}
  deriving DecidableEq, Repr

/-- Reads the main header, the first chunk of the `hdrl` list at `pos`; a short
read still overwrites the bytes it got. -/
def readAvih (file : List UInt8) (pos : Nat) (h : MainHeader) : MainHeader :=
  match readChunk file (pos + 12) with
  | none => h
  | some avihCk =>
    if avihCk.fourcc = fcc "avih" then
      let readSz := if avihCk.dwSize > 56 then 56 else avihCk.dwSize.toNat
      let got := (file.drop (pos + 20)).take readSz
      { avih := got ++ h.avih.drop got.length
        bHasAvih := h.bHasAvih || got.length == readSz }
    else h

/-- What the walk does at the chunk `ck` at `pos`; `none` leaves the loop. -/
def walkChunk (file : List UInt8) (pos : Nat) (ck : RIFFChunk) (w : Walk) : Option Walk :=
  if ck.fourcc = fcc "LIST" then
    match readExact file (pos + 8) 4 with
    | none => none
    | some listType =>
      if listType = fcc "hdrl" then
        let w := { w with bHasHdrl := true, header := readAvih file pos w.header }
        if containsOpenDMLIndex file 4 (pos + 12) (pos + 8 + ck.dwSize.toNat) then
          some { w with r := { w.r with bHasIndex := true } }
        else some w
      else if listType = fcc "movi" then some { w with bHasMovi := true }
      else some w
  else if ck.fourcc = fcc "idx1" then
    let totalEntries := ck.dwSize.toNat / 16
    let scan := (scanIdx1 file totalEntries (pos + 8) totalEntries { bIsPAL := w.r.bIsPAL }).1
    some { w with r := { w.r with
      bHasIndex := true
      bIsPAL := scan.bIsPAL
      dwIndexEntries := scan.videoFrames
      dwDefectFrames := scan.defect } }
  else if ck.fourcc = fcc "indx" then some { w with r := { w.r with bHasIndex := true } }
  else some w

/-- The walk over the chunks of the first RIFF segment. -/
def walkTop (file : List UInt8) (riffEnd : Nat) : Nat → Nat → Walk → Nat × Walk
  | 0, pos, w => (pos, w)
  | fuel + 1, pos, w =>
    if pos + 8 ≤ riffEnd then
      match readChunk file pos with
      | none => (pos, w)
      | some ck =>
        let nextPos := pos + 8 + (padEven ck.dwSize).toNat
        if nextPos ≤ pos then (pos, w)
        else
          match walkChunk file pos ck w with
          | none => (pos, w)
          | some w => walkTop file riffEnd fuel nextPos w
    else (pos, w)

/-- The scan for AVIX segments; nothing but its position comes out of it. -/
def walkAvix (file : List UInt8) : Nat → Nat → Nat
  | 0, pos => pos
  | fuel + 1, pos =>
    if pos + 12 ≤ file.length then
      match readExact file pos 12 with
      | none => pos
      | some hdr =>
        if hdr.take 4 ≠ fcc "RIFF" ∨ hdr.drop 8 ≠ fcc "AVIX" then pos
        else walkAvix file fuel (pos + (8 + (padEven (dwordAt hdr 4)).toNat))
    else pos

def checkErrors (r : AVICheckResult) (bHasHdrl bHasMovi : Bool) : CString :=
  (if !bHasHdrl then "hdrl-Chunk fehlt. ".toList else []) ++
  (if !bHasMovi then "movi-Chunk fehlt. ".toList else []) ++
  (if !r.bHasIndex then "Kein Index (idx1/indx). ".toList else []) ++
  (if r.dwFrameCount = 0 then "Keine Frames gefunden. ".toList else []) ++
  (if r.dwDefectFrames > 0 then
    CString.ofDWORD r.dwDefectFrames ++ " Frames mit falscher Größe. ".toList else []) ++
  (if r.dwIndexEntries > 0 ∧ r.dwFrameCount > 0 ∧ r.dwIndexEntries ≠ r.dwFrameCount then
    "Frame-Count (".toList ++ CString.ofDWORD r.dwFrameCount ++ ") != Index-Einträge (".toList ++
      CString.ofDWORD r.dwIndexEntries ++ "). ".toList else [])

def determineFrameCount (r : AVICheckResult) (h : MainHeader) : AVICheckResult :=
  let r := if h.bHasAvih then
    { r with
      dwFrameCount := dwordAt h.avih 16
      bIsPAL := if !r.bIsPAL ∧ dwordAt h.avih 36 > 0 then dwordAt h.avih 36 ≥ 576 else r.bIsPAL }
    else r
  if r.dwFrameCount = 0 ∧ r.dwIndexEntries > 0 then { r with dwFrameCount := r.dwIndexEntries }
  else r

def computeExpectedSize (r : AVICheckResult) : AVICheckResult :=
  if r.dwFrameCount > 0 then
    let frameSize := if r.bIsPAL then 144000 else 120000
    { r with dwExpectedSize := r.dwFrameCount.toNat * (frameSize + 8) + 4096 }
  else r

def buildResult (r : AVICheckResult) (bHasHdrl bHasMovi : Bool) : AVICheckResult :=
  { r with
    bValid := bHasHdrl && bHasMovi && r.dwFrameCount > 0
    sError := (checkErrors r bHasHdrl bHasMovi).trimRight }

/-- The part of `CheckAVIIntegrity` after the file was closed. -/
def finishCheck (w : Walk) : AVICheckResult :=
  buildResult (computeExpectedSize (determineFrameCount w.r w.header)) w.bHasHdrl w.bHasMovi

/-- `CheckAVIIntegrity`. Every round of a loop moves at least eight bytes
on, so the length of the file is fuel enough. -/
def checkAVIIntegrity : AVIFile → AVICheckResult
  | .accessDenied => { sError := "Zugriff verweigert".toList }
  | .sizeUnreadable => { sError := "Dateigröße nicht lesbar".toList }
  | .readable file =>
    let r : AVICheckResult := { dwActualSize := file.length }
    if file.length = 0 then { r with sError := "Datei ist leer".toList }
    else if file.length < 12 then { r with sError := "Datei zu klein für RIFF-Header".toList }
    else
      match readExact file 0 12 with
      | none => { r with sError := "Kann RIFF-Header nicht lesen".toList }
      | some riffHdr =>
        if riffHdr.take 4 ≠ fcc "RIFF" ∨ riffHdr.drop 8 ≠ fcc "AVI " then
          { r with sError := "Keine AVI-Datei (RIFF/AVI-Signatur fehlt)".toList }
        else
          let riffEnd := 8 + (dwordAt riffHdr 4).toNat
          let riffEnd := if riffEnd > file.length then file.length else riffEnd
          finishCheck (walkTop file riffEnd file.length 12 { r := r }).2

end WinDV
