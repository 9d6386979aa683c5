/-! The SHA-256 digest of a sequence of bytes. The padded message is cut into blocks of sixteen
words; each block is stretched to sixty-four words, which drive sixty-four rounds on eight
registers. -/
namespace Guillotine

namespace Sha256

/-- The constants of the rounds. -/
def roundConstants : List UInt32 :=
  [0x428a2f98, 0x71374491, 0xb5c0fbcf, 0xe9b5dba5, 0x3956c25b, 0x59f111f1, 0x923f82a4, 0xab1c5ed5,
    0xd807aa98, 0x12835b01, 0x243185be, 0x550c7dc3, 0x72be5d74, 0x80deb1fe, 0x9bdc06a7, 0xc19bf174,
    0xe49b69c1, 0xefbe4786, 0x0fc19dc6, 0x240ca1cc, 0x2de92c6f, 0x4a7484aa, 0x5cb0a9dc, 0x76f988da,
    0x983e5152, 0xa831c66d, 0xb00327c8, 0xbf597fc7, 0xc6e00bf3, 0xd5a79147, 0x06ca6351, 0x14292967,
    0x27b70a85, 0x2e1b2138, 0x4d2c6dfc, 0x53380d13, 0x650a7354, 0x766a0abb, 0x81c2c92e, 0x92722c85,
    0xa2bfe8a1, 0xa81a664b, 0xc24b8b70, 0xc76c51a3, 0xd192e819, 0xd6990624, 0xf40e3585, 0x106aa070,
    0x19a4c116, 0x1e376c08, 0x2748774c, 0x34b0bcb5, 0x391c0cb3, 0x4ed8aa4a, 0x5b9cca4f, 0x682e6ff3,
    0x748f82ee, 0x78a5636f, 0x84c87814, 0x8cc70208, 0x90befffa, 0xa4506ceb, 0xbef9a3f7, 0xc67178f2]

/-- The eight registers. -/
structure Registers where
  a : UInt32
  b : UInt32
  c : UInt32
  d : UInt32
  e : UInt32
  f : UInt32
  g : UInt32
  h : UInt32
deriving DecidableEq, Repr

def Registers.initial : Registers :=
  ⟨0x6a09e667, 0xbb67ae85, 0x3c6ef372, 0xa54ff53a, 0x510e527f, 0x9b05688c, 0x1f83d9ab, 0x5be0cd19⟩

def Registers.toList (r : Registers) : List UInt32 := [r.a, r.b, r.c, r.d, r.e, r.f, r.g, r.h]

/-- A word turned right by `n` places. -/
def rotate (x : UInt32) (n : UInt32) : UInt32 := (x >>> n) ||| (x <<< (32 - n))

/-! ### The message -/

/-- The eight bytes of a number, the highest first. -/
def lengthBytes (n : Nat) : List UInt8 :=
  [56, 48, 40, 32, 24, 16, 8, 0].map fun s => UInt8.ofNat (n >>> s)

/-- A message with a one bit, zeros up to eight bytes short of a whole block, and its length in
bits. -/
def pad (message : List UInt8) : List UInt8 :=
  message ++ 0x80 :: List.replicate ((119 - message.length % 64) % 64) 0 ++
    lengthBytes (8 * message.length)

/-- Words of four bytes, the highest first. -/
def words : List UInt8 → List UInt32
  | a :: b :: c :: d :: rest =>
    (a.toUInt32 <<< 24 ||| b.toUInt32 <<< 16 ||| c.toUInt32 <<< 8 ||| d.toUInt32) :: words rest
  | _ => []

/-- Blocks of sixteen words. -/
def blocks (ws : List UInt32) : List (List UInt32) :=
  (List.range (ws.length / 16)).map fun i => (ws.drop (16 * i)).take 16

/-! ### One block -/

/-- The next word of the schedule `w`, which holds `i + 16` words. -/
def nextWord (w : Array UInt32) (i : Nat) : UInt32 :=
  let x := w.getD (i + 1) 0
  let y := w.getD (i + 14) 0
  let s0 := rotate x 7 ^^^ rotate x 18 ^^^ (x >>> 3)
  let s1 := rotate y 17 ^^^ rotate y 19 ^^^ (y >>> 10)
  w.getD i 0 + s0 + w.getD (i + 9) 0 + s1

/-- The sixty-four words of a block. -/
def schedule (block : List UInt32) : List UInt32 :=
  ((List.range 48).foldl (fun w i => w.push (nextWord w i)) block.toArray).toList

/-- One round with a constant and a word. -/
def round (r : Registers) (k w : UInt32) : Registers :=
  let s1 := rotate r.e 6 ^^^ rotate r.e 11 ^^^ rotate r.e 25
  let choice := (r.e &&& r.f) ^^^ (~~~ r.e &&& r.g)
  let t1 := r.h + s1 + choice + k + w
  let s0 := rotate r.a 2 ^^^ rotate r.a 13 ^^^ rotate r.a 22
  let majority := (r.a &&& r.b) ^^^ (r.a &&& r.c) ^^^ (r.b &&& r.c)
  ⟨t1 + s0 + majority, r.a, r.b, r.c, r.d + t1, r.e, r.f, r.g⟩

/-- The registers after a block. -/
def compress (r : Registers) (block : List UInt32) : Registers :=
  let s := (roundConstants.zip (schedule block)).foldl (fun s (k, w) => round s k w) r
  ⟨r.a + s.a, r.b + s.b, r.c + s.c, r.d + s.d, r.e + s.e, r.f + s.f, r.g + s.g, r.h + s.h⟩

/-! ### The digest -/

def digest (message : List UInt8) : Registers :=
  (blocks (words (pad message))).foldl compress .initial

/-- The eight hexadecimal digits of a word. -/
def hexWord (w : UInt32) : List Char :=
  [28, 24, 20, 16, 12, 8, 4, 0].map fun s => Nat.digitChar (w.toNat >>> s % 16)

/-- The digest of a text in sixty-four hexadecimal digits. -/
def hex (s : String) : String :=
  String.ofList ((digest s.toUTF8.toList).toList.flatMap hexWord)

end Sha256

end Guillotine
