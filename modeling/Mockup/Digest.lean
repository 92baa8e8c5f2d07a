namespace Mockup.Digest

structure State where
  a : UInt32
  b : UInt32
  c : UInt32
  d : UInt32
  e : UInt32

def State.start : State := ⟨0x67452301, 0xEFCDAB89, 0x98BADCFE, 0x10325476, 0xC3D2E1F0⟩

def State.add (s t : State) : State := ⟨s.a + t.a, s.b + t.b, s.c + t.c, s.d + t.d, s.e + t.e⟩

def rotate (x : UInt32) (n : UInt32) : UInt32 := (x <<< n) ||| (x >>> (32 - n))

def mix (i : Nat) (b c d : UInt32) : UInt32 × UInt32 :=
  if i < 20 then ((b &&& c) ||| (~~~b &&& d), 0x5A827999)
  else if i < 40 then (b ^^^ c ^^^ d, 0x6ED9EBA1)
  else if i < 60 then ((b &&& c) ||| (b &&& d) ||| (c &&& d), 0x8F1BBCDC)
  else (b ^^^ c ^^^ d, 0xCA62C1D6)

def State.round (s : State) (i : Nat) (word : UInt32) : State :=
  let m := mix i s.b s.c s.d
  ⟨rotate s.a 5 + m.1 + s.e + m.2 + word, s.a, rotate s.b 30, s.c, s.d⟩

def schedule (block : Array UInt32) : Array UInt32 :=
  (List.range 64).foldl (fun w i =>
    w.push (rotate (w.getD (i + 13) 0 ^^^ w.getD (i + 8) 0 ^^^ w.getD (i + 2) 0 ^^^ w.getD i 0) 1))
    block

def State.compress (s : State) (block : Array UInt32) : State :=
  s.add (((schedule block).toList.zipIdx).foldl (fun t w => t.round w.2 w.1) s)

def bigEndian (count n : Nat) : List UInt8 :=
  (List.range count).reverse.map fun i => UInt8.ofNat (n >>> (8 * i))

/-- The bytes, a one bit, zeros up to 8 bytes before the end of a block, and the length in bits. -/
def pad (bytes : List UInt8) : List UInt8 :=
  let n := bytes.length
  bytes ++ 0x80 :: List.replicate ((119 - n % 64) % 64) 0 ++ bigEndian 8 (8 * n)

def words : List UInt8 → List UInt32
  | a :: b :: c :: d :: rest =>
    (a.toUInt32 <<< 24 ||| b.toUInt32 <<< 16 ||| c.toUInt32 <<< 8 ||| d.toUInt32) :: words rest
  | _ => []

/-- Folds whole blocks; the fuel is at least their number. -/
def compressAll : Nat → State → List UInt32 → State
  | 0, s, _ => s
  | fuel + 1, s, ws =>
    if ws.isEmpty then s else compressAll fuel (s.compress (ws.take 16).toArray) (ws.drop 16)

def hexText (word : UInt32) : List Char :=
  let ds := Nat.toDigits 16 word.toNat
  List.replicate (8 - ds.length) '0' ++ ds

def sha1 (text : String) : String :=
  let ws := words (pad text.toUTF8.toList)
  let s := compressAll ws.length .start ws
  String.ofList ([s.a, s.b, s.c, s.d, s.e].flatMap hexText)

end Mockup.Digest
