/-!
# SHA-256

The digest of a byte string. The message is padded to whole blocks of sixteen 32-bit words; every
block is mixed into a state of eight words in 64 rounds; the words of the last state are the
digest.

## Implementation notes

All words are `UInt32`, whose addition wraps. Words are absorbed one by one, and a block is mixed
in when its sixteenth word arrives, so the whole digest is one fold over the padded message.

## Main results

* `Sha256.length_digest` — a digest has 32 bytes
-/

namespace StreamProgress

namespace Sha256

/-- The eight words that a message is mixed into. -/
structure State where
  a : UInt32
  b : UInt32
  c : UInt32
  d : UInt32
  e : UInt32
  f : UInt32
  g : UInt32
  h : UInt32

/-- The state before the first block. -/
def initial : State :=
  ⟨0x6a09e667, 0xbb67ae85, 0x3c6ef372, 0xa54ff53a, 0x510e527f, 0x9b05688c, 0x1f83d9ab, 0x5be0cd19⟩

/-- The constants of the 64 rounds. -/
def roundConstants : List UInt32 := [
  0x428a2f98, 0x71374491, 0xb5c0fbcf, 0xe9b5dba5, 0x3956c25b, 0x59f111f1, 0x923f82a4, 0xab1c5ed5,
  0xd807aa98, 0x12835b01, 0x243185be, 0x550c7dc3, 0x72be5d74, 0x80deb1fe, 0x9bdc06a7, 0xc19bf174,
  0xe49b69c1, 0xefbe4786, 0x0fc19dc6, 0x240ca1cc, 0x2de92c6f, 0x4a7484aa, 0x5cb0a9dc, 0x76f988da,
  0x983e5152, 0xa831c66d, 0xb00327c8, 0xbf597fc7, 0xc6e00bf3, 0xd5a79147, 0x06ca6351, 0x14292967,
  0x27b70a85, 0x2e1b2138, 0x4d2c6dfc, 0x53380d13, 0x650a7354, 0x766a0abb, 0x81c2c92e, 0x92722c85,
  0xa2bfe8a1, 0xa81a664b, 0xc24b8b70, 0xc76c51a3, 0xd192e819, 0xd6990624, 0xf40e3585, 0x106aa070,
  0x19a4c116, 0x1e376c08, 0x2748774c, 0x34b0bcb5, 0x391c0cb3, 0x4ed8aa4a, 0x5b9cca4f, 0x682e6ff3,
  0x748f82ee, 0x78a5636f, 0x84c87814, 0x8cc70208, 0x90befffa, 0xa4506ceb, 0xbef9a3f7, 0xc67178f2]

/-- A word turned right by `n` bits. -/
def rotate (x n : UInt32) : UInt32 := (x >>> n) ||| (x <<< (32 - n))

/-! ### The message schedule -/

/-- The words of a block, continued by `n` words that each depend on the sixteen before it. The
list `window` holds those sixteen. -/
def extend : Nat → List UInt32 → List UInt32
  | 0, window => window
  | n + 1, window =>
    let x := window.getD 14 0
    let y := window.getD 1 0
    let next :=
      (rotate x 17 ^^^ rotate x 19 ^^^ (x >>> 10)) + window.getD 9 0 +
        (rotate y 7 ^^^ rotate y 18 ^^^ (y >>> 3)) + window.getD 0 0
    window.headD 0 :: extend n (window.tail ++ [next])

/-! ### Mixing a block -/

/-- One round, with its word of the schedule and its constant. -/
def round (s : State) (wordAndConstant : UInt32 × UInt32) : State :=
  let (w, k) := wordAndConstant
  let t := s.h + (rotate s.e 6 ^^^ rotate s.e 11 ^^^ rotate s.e 25) +
    ((s.e &&& s.f) ^^^ (~~~s.e &&& s.g)) + k + w
  let u := (rotate s.a 2 ^^^ rotate s.a 13 ^^^ rotate s.a 22) +
    ((s.a &&& s.b) ^^^ (s.a &&& s.c) ^^^ (s.b &&& s.c))
  ⟨t + u, s.a, s.b, s.c, s.d + t, s.e, s.f, s.g⟩

/-- The state after a block of sixteen words. -/
def mix (s : State) (block : List UInt32) : State :=
  let t := ((extend 48 block).zip roundConstants).foldl round s
  ⟨s.a + t.a, s.b + t.b, s.c + t.c, s.d + t.d, s.e + t.e, s.f + t.f, s.g + t.g, s.h + t.h⟩

/-! ### The message -/

/-- The 32-bit words of bytes, the highest byte first. -/
def words : List UInt8 → List UInt32
  | a :: b :: c :: d :: rest =>
    ((a.toUInt32 <<< 24) ||| (b.toUInt32 <<< 16) ||| (c.toUInt32 <<< 8) ||| d.toUInt32) ::
      words rest
  | _ => []

/-- The lowest `n` bytes of a number, the highest byte first. -/
def bigEndian : Nat → Nat → List UInt8
  | 0, _ => []
  | n + 1, x => UInt8.ofNat (x >>> (8 * n)) :: bigEndian n x

/-- What follows a message of `length` bytes: a one bit, zeros, and the length in bits. -/
def padding (length : Nat) : List UInt8 :=
  0x80 :: List.replicate ((119 - length % 64) % 64) 0 ++ bigEndian 8 (8 * length)

/-- A state and the words of a block that is not complete, the last word first. -/
structure Progress where
  state : State
  pending : List UInt32

/-- Take in one word. -/
def absorb (p : Progress) (word : UInt32) : Progress :=
  let pending := word :: p.pending
  if pending.length = 16 then ⟨mix p.state pending.reverse, []⟩ else ⟨p.state, pending⟩

/-- The words of a state as bytes. -/
def State.bytes (s : State) : List UInt8 :=
  [s.a, s.b, s.c, s.d, s.e, s.f, s.g, s.h].flatMap fun w => bigEndian 4 w.toNat

/-- The digest of a message. -/
def digest (message : List UInt8) : List UInt8 :=
  let padded := message ++ padding message.length
  ((words padded).foldl absorb ⟨initial, []⟩).state.bytes

theorem length_digest (message : List UInt8) : (digest message).length = 32 := rfl

end Sha256

end StreamProgress
