import WinDV.FIPS180

/-! The streaming SHA-256 of `sha256.c`. Words are 32-bit and wrap. -/

namespace WinDV

def k : Array UInt32 := #[
  0x428a2f98, 0x71374491, 0xb5c0fbcf, 0xe9b5dba5,
  0x3956c25b, 0x59f111f1, 0x923f82a4, 0xab1c5ed5,
  0xd807aa98, 0x12835b01, 0x243185be, 0x550c7dc3,
  0x72be5d74, 0x80deb1fe, 0x9bdc06a7, 0xc19bf174,
  0xe49b69c1, 0xefbe4786, 0x0fc19dc6, 0x240ca1cc,
  0x2de92c6f, 0x4a7484aa, 0x5cb0a9dc, 0x76f988da,
  0x983e5152, 0xa831c66d, 0xb00327c8, 0xbf597fc7,
  0xc6e00bf3, 0xd5a79147, 0x06ca6351, 0x14292967,
  0x27b70a85, 0x2e1b2138, 0x4d2c6dfc, 0x53380d13,
  0x650a7354, 0x766a0abb, 0x81c2c92e, 0x92722c85,
  0xa2bfe8a1, 0xa81a664b, 0xc24b8b70, 0xc76c51a3,
  0xd192e819, 0xd6990624, 0xf40e3585, 0x106aa070,
  0x19a4c116, 0x1e376c08, 0x2748774c, 0x34b0bcb5,
  0x391c0cb3, 0x4ed8aa4a, 0x5b9cca4f, 0x682e6ff3,
  0x748f82ee, 0x78a5636f, 0x84c87814, 0x8cc70208,
  0x90befffa, 0xa4506ceb, 0xbef9a3f7, 0xc67178f2]

def rotr (x n : UInt32) : UInt32 := (x >>> n) ||| (x <<< (32 - n))

def ch (x y z : UInt32) : UInt32 := (x &&& y) ^^^ (~~~x &&& z)

def maj (x y z : UInt32) : UInt32 := (x &&& y) ^^^ (x &&& z) ^^^ (y &&& z)

def ep0 (x : UInt32) : UInt32 := rotr x 2 ^^^ rotr x 13 ^^^ rotr x 22

def ep1 (x : UInt32) : UInt32 := rotr x 6 ^^^ rotr x 11 ^^^ rotr x 25

def sig0 (x : UInt32) : UInt32 := rotr x 7 ^^^ rotr x 18 ^^^ (x >>> 3)

def sig1 (x : UInt32) : UInt32 := rotr x 17 ^^^ rotr x 19 ^^^ (x >>> 10)

structure Sha256State where
  a : UInt32
  b : UInt32
  c : UInt32
  d : UInt32
  e : UInt32
  f : UInt32
  g : UInt32
  h : UInt32
  deriving DecidableEq, Repr

structure SHA256CTX where
  data : List UInt8
  data_length : data.length = 64
  datalen : UInt32
  bitlen0 : UInt32
  bitlen1 : UInt32
  state : Sha256State

namespace SHA256CTX

/-- `ctx->data[i] = byte`. -/
def setData (ctx : SHA256CTX) (i : Nat) (byte : UInt8) : SHA256CTX :=
  { ctx with
    data := ctx.data.set i byte
    data_length := by rw [List.length_set, ctx.data_length] }

@[simp] theorem setData_data (ctx : SHA256CTX) (i : Nat) (byte : UInt8) :
    (ctx.setData i byte).data = ctx.data.set i byte := rfl

@[simp] theorem setData_state (ctx : SHA256CTX) (i : Nat) (byte : UInt8) :
    (ctx.setData i byte).state = ctx.state := rfl

/-- Zeros from index `i` up to index `j`, exclusive. -/
def fillZero (ctx : SHA256CTX) (i j : Nat) : SHA256CTX :=
  (List.range' i (j - i)).foldl (fun c n => c.setData n 0x00) ctx

end SHA256CTX

def blockWord (block : List UInt8) (i : Nat) : UInt32 :=
  ((block.getD (i * 4) 0).toUInt32 <<< 24) ||| ((block.getD (i * 4 + 1) 0).toUInt32 <<< 16) |||
    ((block.getD (i * 4 + 2) 0).toUInt32 <<< 8) ||| (block.getD (i * 4 + 3) 0).toUInt32

def extendWord (w : Array UInt32) (i : Nat) : UInt32 :=
  sig1 (w.getD (i - 2) 0) + w.getD (i - 7) 0 + sig0 (w.getD (i - 15) 0) + w.getD (i - 16) 0

def messageSchedule (block : List UInt8) : Array UInt32 :=
  (List.range' 16 48).foldl (fun w i => w.push (extendWord w i))
    ((List.range 16).map (blockWord block)).toArray

def sha256Round (w : Array UInt32) (s : Sha256State) (i : Nat) : Sha256State :=
  let t1 := s.h + ep1 s.e + ch s.e s.f s.g + k.getD i 0 + w.getD i 0
  let t2 := ep0 s.a + maj s.a s.b s.c
  ⟨t1 + t2, s.a, s.b, s.c, s.d + t1, s.e, s.f, s.g⟩

def sha256Transform (ctx : SHA256CTX) (block : List UInt8) : SHA256CTX :=
  let s := ctx.state
  let v := (List.range 64).foldl (sha256Round (messageSchedule block)) s
  { ctx with state := ⟨s.a + v.a, s.b + v.b, s.c + v.c, s.d + v.d, s.e + v.e, s.f + v.f,
      s.g + v.g, s.h + v.h⟩ }

def sha256Init (ctx : SHA256CTX) : SHA256CTX :=
  { ctx with
    datalen := 0
    bitlen0 := 0
    bitlen1 := 0
    state := ⟨0x6a09e667, 0xbb67ae85, 0x3c6ef372, 0xa54ff53a, 0x510e527f, 0x9b05688c,
      0x1f83d9ab, 0x5be0cd19⟩ }

def updateByte (ctx : SHA256CTX) (byte : UInt8) : SHA256CTX :=
  let ctx := ctx.setData ctx.datalen.toNat byte
  let ctx := { ctx with datalen := ctx.datalen + 1 }
  if ctx.datalen = 64 then
    let ctx := sha256Transform ctx ctx.data
    let ctx := { ctx with bitlen0 := ctx.bitlen0 + 512 }
    let ctx := if ctx.bitlen0 < 512 then { ctx with bitlen1 := ctx.bitlen1 + 1 } else ctx
    { ctx with datalen := 0 }
  else ctx

def sha256Update (ctx : SHA256CTX) (data : List UInt8) (len : UInt32) : SHA256CTX :=
  (data.take len.toNat).foldl updateByte ctx

/-- Writes the 64-bit length into the last eight bytes of the block. -/
def setLength (ctx : SHA256CTX) (hi lo : UInt32) : SHA256CTX :=
  (((((((ctx.setData 56 (hi >>> 24).toUInt8).setData 57 (hi >>> 16).toUInt8).setData
    58 (hi >>> 8).toUInt8).setData 59 hi.toUInt8).setData 60 (lo >>> 24).toUInt8).setData
    61 (lo >>> 16).toUInt8).setData 62 (lo >>> 8).toUInt8).setData 63 lo.toUInt8

def hashBytes (w : UInt32) : List UInt8 :=
  [(w >>> 24).toUInt8, (w >>> 16).toUInt8, (w >>> 8).toUInt8, w.toUInt8]

/-- Appends the byte 0x80 and zeros up to the length field, through a block of
their own when fewer than eight bytes are left. -/
def padTail (ctx : SHA256CTX) : SHA256CTX :=
  let padindex := ctx.datalen.toNat + 1
  let ctx := ctx.setData ctx.datalen.toNat 0x80
  if padindex > 56 then
    let ctx := ctx.fillZero padindex 64
    (sha256Transform ctx ctx.data).fillZero 0 56
  else ctx.fillZero padindex 56

def sha256Final (ctx : SHA256CTX) : List UInt8 :=
  let lo := ctx.bitlen0 + ctx.datalen * 8
  let hi := if lo < ctx.bitlen0 then ctx.bitlen1 + 1 else ctx.bitlen1
  let ctx := setLength (padTail ctx) hi lo
  let s := (sha256Transform ctx ctx.data).state
  [s.a, s.b, s.c, s.d, s.e, s.f, s.g, s.h].flatMap hashBytes

end WinDV
