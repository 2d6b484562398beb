import WinDV.AVIRead

/-! Well-formed AVI files: a first segment with one `hdrl` list among its
chunks, and continuation segments. What the checker reads off the encoding is
what the file was made of. -/

namespace WinDV

open RIFF

structure AVIMainHeader where
  dwMicroSecPerFrame : UInt32
  dwMaxBytesPerSec : UInt32
  dwPaddingGranularity : UInt32
  dwFlags : UInt32
  dwTotalFrames : UInt32
  dwInitialFrames : UInt32
  dwStreams : UInt32
  dwSuggestedBufferSize : UInt32
  dwWidth : UInt32
  dwHeight : UInt32
  dwReserved : UInt32 × UInt32 × UInt32 × UInt32
  deriving DecidableEq

def AVIMainHeader.encode (h : AVIMainHeader) : List UInt8 :=
  [h.dwMicroSecPerFrame, h.dwMaxBytesPerSec, h.dwPaddingGranularity, h.dwFlags, h.dwTotalFrames,
    h.dwInitialFrames, h.dwStreams, h.dwSuggestedBufferSize, h.dwWidth, h.dwHeight,
    h.dwReserved.1, h.dwReserved.2.1, h.dwReserved.2.2.1, h.dwReserved.2.2.2].flatMap
    fun d => le32 d.toNat

structure AVIIndexEntry where
  ckid : FourCC
  dwFlags : UInt32
  dwOffset : UInt32
  dwSize : UInt32
  deriving DecidableEq

def AVIIndexEntry.encode (e : AVIIndexEntry) : List UInt8 :=
  e.ckid.1 ++ le32 e.dwFlags.toNat ++ le32 e.dwOffset.toNat ++ le32 e.dwSize.toNat

def AVIIndexEntry.isVideo (e : AVIIndexEntry) : Prop :=
  e.ckid.1 = fcc "00dc" ∨ e.ckid.1 = fcc "00db"

instance (e : AVIIndexEntry) : Decidable e.isVideo := inferInstanceAs (Decidable (_ ∨ _))

/-- A part of the header list. Only the lists that the checker looks into have
to be made of chunks. -/
inductive HdrlItem
  | chunk (id : FourCC) (payload : List UInt8) (h : id.1 ≠ fcc "LIST")
  | metaList (type : FourCC) (h : type.1 = fcc "hdrl" ∨ type.1 = fcc "strl")
      (children : List HdrlItem)
  | otherList (type : FourCC) (h : ¬ (type.1 = fcc "hdrl" ∨ type.1 = fcc "strl"))
      (payload : List UInt8)

mutual

def HdrlItem.toChunk : HdrlItem → Chunk
  | .chunk id payload _ => ⟨id, payload⟩
  | .metaList type _ children => ⟨⟨fcc "LIST", rfl⟩, type.1 ++ encodeAll (toChunks children)⟩
  | .otherList type _ payload => ⟨⟨fcc "LIST", rfl⟩, type.1 ++ payload⟩

def toChunks : List HdrlItem → List Chunk
  | [] => []
  | item :: items => item.toChunk :: toChunks items

end

/-- An `indx` chunk stands among the items or in `hdrl` and `strl` lists nested
at most `depth` deep below them. -/
inductive IndxWithin : Nat → List HdrlItem → Prop
  | here {depth id payload h items} :
      id.1 = fcc "indx" → .chunk id payload h ∈ items → IndxWithin depth items
  | nested {depth type h children items} :
      .metaList type h children ∈ items → IndxWithin depth children → IndxWithin (depth + 1) items

/-- A chunk of the first segment other than its header list. -/
inductive TopItem
  | movi (payload : List UInt8)
  | idx1 (entries : List AVIIndexEntry)
  | indx (payload : List UInt8)
  | otherList (type : FourCC) (h : type.1 ≠ fcc "hdrl" ∧ type.1 ≠ fcc "movi") (payload : List UInt8)
  | other (id : FourCC) (h : id.1 ≠ fcc "LIST" ∧ id.1 ≠ fcc "idx1" ∧ id.1 ≠ fcc "indx")
      (payload : List UInt8)

def TopItem.toChunk : TopItem → Chunk
  | .movi payload => ⟨⟨fcc "LIST", rfl⟩, fcc "movi" ++ payload⟩
  | .idx1 entries => ⟨⟨fcc "idx1", rfl⟩, entries.flatMap AVIIndexEntry.encode⟩
  | .indx payload => ⟨⟨fcc "indx", rfl⟩, payload⟩
  | .otherList type _ payload => ⟨⟨fcc "LIST", rfl⟩, type.1 ++ payload⟩
  | .other id _ payload => ⟨id, payload⟩

def TopItem.entries? : TopItem → Option (List AVIIndexEntry)
  | .idx1 entries => some entries
  | _ => none

def hdrlChunk (header : AVIMainHeader) (children : List HdrlItem) : Chunk :=
  ⟨⟨fcc "LIST", rfl⟩,
    fcc "hdrl" ++ encodeAll (⟨⟨fcc "avih", rfl⟩, header.encode⟩ :: toChunks children)⟩

/-- A well-formed AVI file. The header list stands between `before` and `after`. -/
structure AVI where
  before : List TopItem
  header : AVIMainHeader
  children : List HdrlItem
  after : List TopItem
  continuations : List (List UInt8)
  oneIndex : ((before ++ after).filterMap TopItem.entries?).length ≤ 1
  fits : 4 + (encodeAll (before.map TopItem.toChunk ++
    hdrlChunk header children :: after.map TopItem.toChunk)).length < 2 ^ 32

namespace AVI

def items (a : AVI) : List TopItem := a.before ++ a.after

def chunks (a : AVI) : List Chunk :=
  a.before.map TopItem.toChunk ++ hdrlChunk a.header a.children :: a.after.map TopItem.toChunk

def entries (a : AVI) : List AVIIndexEntry := (a.items.filterMap TopItem.entries?).flatten

def encode (a : AVI) : List UInt8 :=
  Chunk.encode ⟨⟨fcc "RIFF", rfl⟩, fcc "AVI " ++ encodeAll a.chunks⟩ ++
    a.continuations.flatMap fun payload => Chunk.encode ⟨⟨fcc "RIFF", rfl⟩, fcc "AVIX" ++ payload⟩

end AVI

end WinDV
