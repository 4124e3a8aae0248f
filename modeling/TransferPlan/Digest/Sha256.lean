import TransferPlan.Text.Quoted

/-!
# SHA-256

The digest that names a cached column: eight words of 32 bits, printed as 64 hexadecimal digits.
The message is padded to whole blocks of 64 bytes; each block extends to a schedule of 64 words
and is mixed into the state in 64 rounds.
-/

namespace TransferPlan.Digest

/-! ## Constants -/

/-- The state before the first block. -/
def initialState : Vector UInt32 8 :=
  #v[0x6a09e667, 0xbb67ae85, 0x3c6ef372, 0xa54ff53a, 0x510e527f, 0x9b05688c, 0x1f83d9ab, 0x5be0cd19]

/-- The word added in each round. -/
def roundConstants : List UInt32 :=
  [0x428a2f98, 0x71374491, 0xb5c0fbcf, 0xe9b5dba5, 0x3956c25b, 0x59f111f1, 0x923f82a4, 0xab1c5ed5,
    0xd807aa98, 0x12835b01, 0x243185be, 0x550c7dc3, 0x72be5d74, 0x80deb1fe, 0x9bdc06a7, 0xc19bf174,
    0xe49b69c1, 0xefbe4786, 0x0fc19dc6, 0x240ca1cc, 0x2de92c6f, 0x4a7484aa, 0x5cb0a9dc, 0x76f988da,
    0x983e5152, 0xa831c66d, 0xb00327c8, 0xbf597fc7, 0xc6e00bf3, 0xd5a79147, 0x06ca6351, 0x14292967,
    0x27b70a85, 0x2e1b2138, 0x4d2c6dfc, 0x53380d13, 0x650a7354, 0x766a0abb, 0x81c2c92e, 0x92722c85,
    0xa2bfe8a1, 0xa81a664b, 0xc24b8b70, 0xc76c51a3, 0xd192e819, 0xd6990624, 0xf40e3585, 0x106aa070,
    0x19a4c116, 0x1e376c08, 0x2748774c, 0x34b0bcb5, 0x391c0cb3, 0x4ed8aa4a, 0x5b9cca4f, 0x682e6ff3,
    0x748f82ee, 0x78a5636f, 0x84c87814, 0x8cc70208, 0x90befffa, 0xa4506ceb, 0xbef9a3f7, 0xc67178f2]

/-! ## Rounds -/

/-- The word turned right by `n` places. -/
def rotate (x : UInt32) (n : UInt32) : UInt32 := (x >>> n) ||| (x <<< (32 - n))

/-- The schedule with one more word.  It is held backwards, so the words two, seven, fifteen and
sixteen places back stand at fixed positions. -/
def extend (backwards : List UInt32) : List UInt32 :=
  let back (i : Nat) : UInt32 := backwards.getD (i - 1) 0
  let w2 := back 2
  let w15 := back 15
  let s0 := rotate w15 7 ^^^ rotate w15 18 ^^^ (w15 >>> 3)
  let s1 := rotate w2 17 ^^^ rotate w2 19 ^^^ (w2 >>> 10)
  (back 16 + s0 + back 7 + s1) :: backwards

/-- The schedule of the sixteen words of a block. -/
def schedule (block : List UInt32) : List UInt32 :=
  ((List.range 48).foldl (fun ws _ => extend ws) block.reverse).reverse

/-- One round with its schedule word and constant. -/
def round (s : Vector UInt32 8) (w k : UInt32) : Vector UInt32 8 :=
  let (a, b, c, d) := (s[0], s[1], s[2], s[3])
  let (e, f, g, h) := (s[4], s[5], s[6], s[7])
  let t1 := h + (rotate e 6 ^^^ rotate e 11 ^^^ rotate e 25) + ((e &&& f) ^^^ (~~~e &&& g)) + k + w
  let t2 := (rotate a 2 ^^^ rotate a 13 ^^^ rotate a 22) + ((a &&& b) ^^^ (a &&& c) ^^^ (b &&& c))
  #v[t1 + t2, a, b, c, d + t1, e, f, g]

/-- The state after one block. -/
def absorb (s : Vector UInt32 8) (block : List UInt32) : Vector UInt32 8 :=
  let mixed := ((schedule block).zip roundConstants).foldl (fun s (w, k) => round s w k) s
  Vector.zipWith (· + ·) s mixed

/-! ## Messages -/

/-- The `width` bytes of a number, the highest first. -/
def bytesOf (width n : Nat) : List UInt8 :=
  (List.range width).reverse.map fun i => UInt8.ofNat (n / Nat.pow 256 i % 256)

/-- The message, a one bit, zeros up to eight bytes short of a whole block, and the length in
bits. -/
def pad (message : List UInt8) : List UInt8 :=
  let n := message.length
  message ++ 0x80 :: List.replicate ((119 - n % 64) % 64) 0 ++ bytesOf 8 (8 * n)

/-- The words of a list of bytes, four bytes each. -/
def words : List UInt8 → List UInt32
  | a :: b :: c :: d :: rest =>
    (a.toUInt32 <<< 24 ||| b.toUInt32 <<< 16 ||| c.toUInt32 <<< 8 ||| d.toUInt32) :: words rest
  | _ => []

/-- The words in blocks of sixteen.  The first argument bounds their number. -/
def blocks : Nat → List UInt32 → List (List UInt32)
  | 0, _ => []
  | _ + 1, [] => []
  | n + 1, ws => ws.take 16 :: blocks n (ws.drop 16)

/-- The final state of a message. -/
def digest (message : List UInt8) : Vector UInt32 8 :=
  let ws := words (pad message)
  (blocks ws.length ws).foldl absorb initialState

/-- The eight hexadecimal digits of a word. -/
def hexWord (w : UInt32) : List Char :=
  (List.range 8).reverse.map fun i => Text.Quoted.hexDigit (w.toNat / Nat.pow 16 i % 16)

/-- The digest of the UTF-8 form of a text, in hexadecimal.  There is such a form because the
characters of a text are Unicode scalar values. -/
def sha256 (s : String) : String :=
  String.ofList ((digest (s.toList.flatMap String.utf8EncodeChar)).toList.flatMap hexWord)

end TransferPlan.Digest
