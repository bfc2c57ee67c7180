import FaultDrill.Bytes.Hex

/-! # SHA-256

The digest of a byte string, block by block, and its hexadecimal text.
-/

namespace FaultDrill.Sha256

structure Words where
  a : UInt32
  b : UInt32
  c : UInt32
  d : UInt32
  e : UInt32
  f : UInt32
  g : UInt32
  h : UInt32

def start : Words :=
  ⟨0x6a09e667, 0xbb67ae85, 0x3c6ef372, 0xa54ff53a, 0x510e527f, 0x9b05688c, 0x1f83d9ab, 0x5be0cd19⟩

def constants : Array UInt32 := #[
  0x428a2f98, 0x71374491, 0xb5c0fbcf, 0xe9b5dba5, 0x3956c25b, 0x59f111f1, 0x923f82a4, 0xab1c5ed5,
  0xd807aa98, 0x12835b01, 0x243185be, 0x550c7dc3, 0x72be5d74, 0x80deb1fe, 0x9bdc06a7, 0xc19bf174,
  0xe49b69c1, 0xefbe4786, 0x0fc19dc6, 0x240ca1cc, 0x2de92c6f, 0x4a7484aa, 0x5cb0a9dc, 0x76f988da,
  0x983e5152, 0xa831c66d, 0xb00327c8, 0xbf597fc7, 0xc6e00bf3, 0xd5a79147, 0x06ca6351, 0x14292967,
  0x27b70a85, 0x2e1b2138, 0x4d2c6dfc, 0x53380d13, 0x650a7354, 0x766a0abb, 0x81c2c92e, 0x92722c85,
  0xa2bfe8a1, 0xa81a664b, 0xc24b8b70, 0xc76c51a3, 0xd192e819, 0xd6990624, 0xf40e3585, 0x106aa070,
  0x19a4c116, 0x1e376c08, 0x2748774c, 0x34b0bcb5, 0x391c0cb3, 0x4ed8aa4a, 0x5b9cca4f, 0x682e6ff3,
  0x748f82ee, 0x78a5636f, 0x84c87814, 0x8cc70208, 0x90befffa, 0xa4506ceb, 0xbef9a3f7, 0xc67178f2]

@[inline] def rotateRight (x : UInt32) (n : UInt32) : UInt32 := (x >>> n) ||| (x <<< (32 - n))

@[inline] def word (w : Array UInt32) (i : Nat) : UInt32 := w.getD i 0

def byte (bytes : ByteArray) (i : Nat) : UInt32 :=
  if h : i < bytes.size then bytes[i].toUInt32 else 0

/-- The big-endian word at byte `i`. -/
def wordAt (bytes : ByteArray) (i : Nat) : UInt32 :=
  (byte bytes i <<< 24) ||| (byte bytes (i + 1) <<< 16) ||| (byte bytes (i + 2) <<< 8)
    ||| byte bytes (i + 3)

/-- Sixteen words of input extended to the sixty-four of the schedule. -/
def extend (w : Array UInt32) : Nat → Array UInt32
  | 0 => w
  | n + 1 =>
    let i := w.size
    let x := word w (i - 15)
    let y := word w (i - 2)
    let s := rotateRight x 7 ^^^ rotateRight x 18 ^^^ (x >>> 3)
    let t := rotateRight y 17 ^^^ rotateRight y 19 ^^^ (y >>> 10)
    extend (w.push (word w (i - 16) + s + word w (i - 7) + t)) n

def schedule (bytes : ByteArray) (offset : Nat) : Array UInt32 :=
  extend ((Array.range 16).map fun i => wordAt bytes (offset + 4 * i)) 48

def rounds (w : Array UInt32) : Nat → Words → Words
  | 0, s => s
  | n + 1, ⟨a, b, c, d, e, f, g, h⟩ =>
    let i := 63 - n
    let t := h + (rotateRight e 6 ^^^ rotateRight e 11 ^^^ rotateRight e 25)
      + ((e &&& f) ^^^ ((~~~ e) &&& g)) + word constants i + word w i
    let u := (rotateRight a 2 ^^^ rotateRight a 13 ^^^ rotateRight a 22)
      + ((a &&& b) ^^^ (a &&& c) ^^^ (b &&& c))
    rounds w n ⟨t + u, a, b, c, d + t, e, f, g⟩

def compress (bytes : ByteArray) (s : Words) (block : Nat) : Words :=
  let r := rounds (schedule bytes (64 * block)) 64 s
  ⟨s.a + r.a, s.b + r.b, s.c + r.c, s.d + r.d, s.e + r.e, s.f + r.f, s.g + r.g, s.h + r.h⟩

def pushWord (bytes : ByteArray) (w : UInt32) : ByteArray :=
  (((bytes.push (w >>> 24).toUInt8).push (w >>> 16).toUInt8).push (w >>> 8).toUInt8).push w.toUInt8

/-- The message, a one bit, zeros up to a whole number of blocks, and the length in bits. -/
def pad (message : ByteArray) : ByteArray :=
  let bits := UInt64.ofNat (8 * message.size)
  let zeros := (119 - message.size % 64) % 64
  let filled := zeros.fold (fun _ _ bytes => bytes.push 0) (message.push 0x80)
  pushWord (pushWord filled (bits >>> 32).toUInt32) bits.toUInt32

def digest (message : ByteArray) : ByteArray :=
  let padded := pad message
  let s := (padded.size / 64).fold (fun i _ s => compress padded s i) start
  [s.a, s.b, s.c, s.d, s.e, s.f, s.g, s.h].foldl pushWord .empty

def hexDigest (message : ByteArray) : String := Hex.encode (digest message)

end FaultDrill.Sha256
