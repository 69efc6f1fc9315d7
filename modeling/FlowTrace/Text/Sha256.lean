import FlowTrace.Power
import FlowTrace.Text.Quoted

/-! # SHA-256

The SHA-256 digest of a text. The text is padded to whole blocks of 64 bytes
(`padded`), and eight words are mixed with one block after the other (`compress`). -/

namespace FlowTrace.Sha256

/-- The words that a digest starts from. -/
def initial : List UInt32 :=
  [0x6a09e667, 0xbb67ae85, 0x3c6ef372, 0xa54ff53a, 0x510e527f, 0x9b05688c,
    0x1f83d9ab, 0x5be0cd19]

/-- The constants of the 64 rounds. -/
def roundConstants : List UInt32 :=
  [0x428a2f98, 0x71374491, 0xb5c0fbcf, 0xe9b5dba5, 0x3956c25b, 0x59f111f1,
    0x923f82a4, 0xab1c5ed5, 0xd807aa98, 0x12835b01, 0x243185be, 0x550c7dc3,
    0x72be5d74, 0x80deb1fe, 0x9bdc06a7, 0xc19bf174, 0xe49b69c1, 0xefbe4786,
    0x0fc19dc6, 0x240ca1cc, 0x2de92c6f, 0x4a7484aa, 0x5cb0a9dc, 0x76f988da,
    0x983e5152, 0xa831c66d, 0xb00327c8, 0xbf597fc7, 0xc6e00bf3, 0xd5a79147,
    0x06ca6351, 0x14292967, 0x27b70a85, 0x2e1b2138, 0x4d2c6dfc, 0x53380d13,
    0x650a7354, 0x766a0abb, 0x81c2c92e, 0x92722c85, 0xa2bfe8a1, 0xa81a664b,
    0xc24b8b70, 0xc76c51a3, 0xd192e819, 0xd6990624, 0xf40e3585, 0x106aa070,
    0x19a4c116, 0x1e376c08, 0x2748774c, 0x34b0bcb5, 0x391c0cb3, 0x4ed8aa4a,
    0x5b9cca4f, 0x682e6ff3, 0x748f82ee, 0x78a5636f, 0x84c87814, 0x8cc70208,
    0x90befffa, 0xa4506ceb, 0xbef9a3f7, 0xc67178f2]

/-- A word rotated to the right; `n` is between 1 and 31. -/
def rotate (x n : UInt32) : UInt32 := (x >>> n) ||| (x <<< (32 - n))

/-- The bytes of a number of 64 bits, the highest first. -/
def lengthBytes (n : Nat) : Text :=
  (List.range 8).map fun i => (n / twoTo (8 * (7 - i))).toUInt8

/-- The text with a single one bit, zeros and its length in bits behind it, so that it fills whole
blocks. -/
def padded (t : Text) : Text :=
  let zeros := (119 - t.length % 64) % 64
  t ++ (0x80 :: List.replicate zeros 0) ++ lengthBytes (8 * t.length)

/-- The words of a text, four bytes each. -/
def words : Text → List UInt32
  | a :: b :: c :: d :: rest =>
    ((a.toUInt32 <<< 24) ||| (b.toUInt32 <<< 16) ||| (c.toUInt32 <<< 8) ||| d.toUInt32) ::
      words rest
  | _ => []

/-- Lengthens a schedule by `n` words, each made of four before it. The schedule is given last
word first. -/
def extend : Nat → List UInt32 → List UInt32
  | 0, w => w
  | n + 1, w =>
    let x := w.getD 14 0
    let y := w.getD 1 0
    let s0 := rotate x 7 ^^^ rotate x 18 ^^^ (x >>> 3)
    let s1 := rotate y 17 ^^^ rotate y 19 ^^^ (y >>> 10)
    extend n ((w.getD 15 0 + s0 + w.getD 6 0 + s1) :: w)

/-- The eight working words. -/
structure Work where
  /-- The first word. -/
  a : UInt32
  /-- The second word. -/
  b : UInt32
  /-- The third word. -/
  c : UInt32
  /-- The fourth word. -/
  d : UInt32
  /-- The fifth word. -/
  e : UInt32
  /-- The sixth word. -/
  f : UInt32
  /-- The seventh word. -/
  g : UInt32
  /-- The eighth word. -/
  h : UInt32

/-- The working words from a list of eight. -/
def Work.ofList (l : List UInt32) : Work :=
  ⟨l.getD 0 0, l.getD 1 0, l.getD 2 0, l.getD 3 0, l.getD 4 0, l.getD 5 0, l.getD 6 0,
    l.getD 7 0⟩

/-- The working words as a list. -/
def Work.toList (w : Work) : List UInt32 := [w.a, w.b, w.c, w.d, w.e, w.f, w.g, w.h]

/-- One round, with its constant and its word of the schedule. -/
def round (s : Work) (k w : UInt32) : Work :=
  let s1 := rotate s.e 6 ^^^ rotate s.e 11 ^^^ rotate s.e 25
  let choice := (s.e &&& s.f) ^^^ (~~~s.e &&& s.g)
  let t1 := s.h + s1 + choice + k + w
  let s0 := rotate s.a 2 ^^^ rotate s.a 13 ^^^ rotate s.a 22
  let majority := (s.a &&& s.b) ^^^ (s.a &&& s.c) ^^^ (s.b &&& s.c)
  ⟨t1 + (s0 + majority), s.a, s.b, s.c, s.d + t1, s.e, s.f, s.g⟩

/-- Mixes the words of a digest with one block. -/
def compress (digest : List UInt32) (block : Text) : List UInt32 :=
  let schedule := (extend 48 (words block).reverse).reverse
  let final := (roundConstants.zip schedule).foldl (fun s (k, w) => round s k w)
    (Work.ofList digest)
  List.zipWith (· + ·) digest final.toList

/-- The `n` first blocks of 64 bytes. -/
def blocks : Nat → Text → List Text
  | 0, _ => []
  | n + 1, t => t.take 64 :: blocks n (t.drop 64)

/-- The digest of a text, in hexadecimal digits. -/
def hex (t : Text) : Text :=
  let p := padded t
  ((blocks (p.length / 64) p).foldl compress initial).flatMap fun w => Text.hexFixed 8 w.toNat

end FlowTrace.Sha256
