import WinDV.CaptureFilename
import WinDV.Sha256Stream
import WinDV.TextFile
import WinDV.Verification

/-! The `.sha256` file beside a hashed file, as it is written and as
`VerifyFileSHA256` reads it. A character of a path is a byte, and the system
opens no path of 260 characters or more and no name of more than 255. Nothing
else keeps a file from being read or written. -/

namespace WinDV

open TextFile

def maxPath : Nat := 260

def maxName : Nat := 255

/-- The limits on a path that is opened. -/
def Opens (path : CString) : Prop := path.length < maxPath ∧ (fileName path).length ≤ maxName

instance (path : CString) : Decidable (Opens path) := inferInstanceAs (Decidable (_ ∧ _))

/-- The system takes both separators for the same. -/
def resolve (path : CString) : CString := path.map fun c => if c = '/' then '\\' else c

/-- The files by their resolved paths. -/
abbrev Disk := CString → Option (List UInt8)

def Disk.read (d : Disk) (path : CString) : Option (List UInt8) :=
  if Opens path then d (resolve path) else none

def Disk.put (d : Disk) (path : CString) (content : List UInt8) : Disk :=
  Function.update d (resolve path) (some content)

def toBytes (s : CString) : List UInt8 := s.map fun c => UInt8.ofNat c.toNat

def ofBytes (bytes : List UInt8) : CString := bytes.map fun b => Char.ofNat b.toNat

def sha256Hex (hash : List UInt8) : CString :=
  hash.flatMap fun b => [Nat.digitChar (b.toNat / 16), Nat.digitChar (b.toNat % 16)]

/-- `ctx` is what the stack held before `sha256_init`. -/
def hashContent (ctx : SHA256CTX) (content : List UInt8) : CString :=
  sha256Hex (sha256Final ((content.toChunks 65536).foldl
    (fun ctx c => sha256Update ctx c (UInt32.ofNat c.length)) (sha256Init ctx)))

def computeFileSHA256 (ctx : SHA256CTX) (d : Disk) (path : CString) : Option CString :=
  (d.read path).map (hashContent ctx)

def sidecarLine (hash filename : CString) : CString :=
  hash ++ " *".toList ++ filename ++ "\n".toList

def writeSHA256Sidecar (d : Disk) (sidecarPath hash filename : CString) (append : Bool) : Disk :=
  if Opens sidecarPath then
    let old := if append then (d (resolve sidecarPath)).getD [] else []
    d.put sidecarPath (old ++ toBytes (written (sidecarLine hash filename)))
  else d

def sidecarPath (path : CString) : CString := path ++ ".sha256".toList

/-- What the callers do with a path after it was hashed. -/
def hashFile (ctx : SHA256CTX) (d : Disk) (path : CString) : Disk :=
  match computeFileSHA256 ctx d path with
  | none => d
  | some hash => writeSHA256Sidecar d (sidecarPath path) hash (bareName path) false

/-- `strchr(s, c)` and one character on. -/
def afterChar (c : Char) (s : CString) : Option CString :=
  match s.dropWhile (· ≠ c) with
  | [] => none
  | _ :: rest => some rest

def stricmp (a b : CString) : Bool := a.map Char.toLower = b.map Char.toLower

/-- The name in a line of the sidecar file, without blanks before it and without
the end of the line. -/
def lineName (line : CString) : Option CString :=
  ((afterChar '*' (line.drop 64)).or (afterChar ' ' (line.drop 64))).map fun star =>
    (star.dropWhile (· = ' ')).rdropWhile isLineEnd

/-- The hash in a line that `fgets` delivered, if the line is for `bare`. -/
def lineHash (bare line : CString) : Option CString :=
  let line := line.takeWhile (· ≠ '\x00')
  if line.length < 66 then none
  else if (lineName line).any (stricmp · bare) then some (line.take 64)
  else none

def verifyFileSHA256 (ctx : SHA256CTX) (d : Disk) (path : CString) : Nat :=
  match d.read (sidecarPath path) with
  | none => 2
  | some sidecar =>
    match (fgetsLines 512 [] (readBack (ofBytes sidecar))).findSome? (lineHash (bareName path)) with
    | none => 2
    | some expected =>
      match computeFileSHA256 ctx d path with
      | none => 2
      | some actual => if stricmp expected actual then 0 else 1

end WinDV
