/-! # Seeded keystreams

A 64-bit seed fixes an endless stream of bytes: the ChaCha keystream with twelve
rounds under a key expanded from the seed. Words are drawn from it one after the
other, and a draw from a range takes words until one is fair.
-/

namespace FaultDrill

namespace Keystream

abbrev Block := Vector UInt32 16

@[inline] def rotateLeft (x : UInt32) (n : UInt32) : UInt32 := (x <<< n) ||| (x >>> (32 - n))

@[inline] def rotateRight (x : UInt32) (n : UInt32) : UInt32 := (x >>> n) ||| (x <<< ((32 - n) % 32))

/-- One word of key from one step of a 64-bit congruential state. -/
def keyWord (state : UInt64) : UInt32 :=
  rotateRight (((state >>> 18) ^^^ state) >>> 27).toUInt32 (state >>> 59).toUInt32

def keyWords (state : UInt64) : Nat → List UInt32
  | 0 => []
  | n + 1 =>
    let next := state * 6364136223846793005 + 11634580027462260723
    keyWord next :: keyWords next n

/-- The eight words of key that a seed expands to. -/
def key (seed : UInt64) : Array UInt32 := (keyWords seed 8).toArray

def quarter (s : Block) (a b c d : Fin 16) : Block :=
  let x := s[a] + s[b]
  let w := rotateLeft (s[d] ^^^ x) 16
  let z := s[c] + w
  let y := rotateLeft (s[b] ^^^ z) 12
  let x := x + y
  let w := rotateLeft (w ^^^ x) 8
  let z := z + w
  let y := rotateLeft (y ^^^ z) 7
  (((s.set a x).set b y).set c z).set d w

/-- A round on the columns and one on the diagonals. -/
def doubleRound (s : Block) : Block :=
  let s := quarter s 0 4 8 12
  let s := quarter s 1 5 9 13
  let s := quarter s 2 6 10 14
  let s := quarter s 3 7 11 15
  let s := quarter s 0 5 10 15
  let s := quarter s 1 6 11 12
  let s := quarter s 2 7 8 13
  quarter s 3 4 9 14

def input (key : Array UInt32) (counter : UInt64) : Block :=
  let k (i : Nat) : UInt32 := key.getD i 0
  #v[0x61707865, 0x3320646e, 0x79622d32, 0x6b206574, k 0, k 1, k 2, k 3, k 4, k 5, k 6, k 7,
    counter.toUInt32, (counter >>> 32).toUInt32, 0, 0]

def block (key : Array UInt32) (counter : UInt64) : Block :=
  let s := input key counter
  (Nat.repeat doubleRound 6 s).zipWith (· + ·) s

def pushWord (bytes : ByteArray) (w : UInt32) : ByteArray :=
  (((bytes.push w.toUInt8).push (w >>> 8).toUInt8).push (w >>> 16).toUInt8).push (w >>> 24).toUInt8

/-- The first `n` blocks of the stream, as bytes. -/
def blocks (key : Array UInt32) (n : Nat) : ByteArray :=
  n.fold (fun i _ bytes => (block key (UInt64.ofNat i)).foldl pushWord bytes) .empty

/-- The first `size` bytes of the stream of `seed`. -/
def bytes (seed : UInt64) (size : Nat) : ByteArray :=
  (blocks (key seed) ((size + 63) / 64)).extract 0 size

end Keystream

/-- A place in the stream of a seed, counted in 64-bit words. -/
structure Keystream where
  seed : UInt64
  position : Nat
  deriving DecidableEq, Repr

namespace Keystream

def ofSeed (seed : UInt64) : Keystream := ⟨seed, 0⟩

/-- Word `i` of the stream, little end first. -/
def wordAt (seed : UInt64) (i : Nat) : UInt64 :=
  let b := block (key seed) (UInt64.ofNat (i / 8))
  let low := b.toArray.getD (2 * (i % 8)) 0
  let high := b.toArray.getD (2 * (i % 8) + 1) 0
  low.toUInt64 ||| (high.toUInt64 <<< 32)

def next (s : Keystream) : UInt64 × Keystream :=
  (wordAt s.seed s.position, { s with position := s.position + 1 })

/-- How many words pass before the stream repeats. -/
def period : Nat := 8 * UInt64.size

/-- The largest low half that keeps every value of a range of `width` equally likely: `width`
moved up until its top bit is set, less one. -/
def zone (width : Nat) : Nat := width <<< (63 - Nat.log2 width) - 1

/-- The first word among the next `tries` whose product with `width` has a fair low half. -/
def findFair (width : Nat) : Nat → Keystream → Option (Nat × Keystream)
  | 0, _ => none
  | tries + 1, s =>
    let (word, s) := s.next
    let product := word.toNat * width
    if product % UInt64.size ≤ zone width then some (product / UInt64.size, s) else findFair width tries s

/-- A number from `low` to `high`, each equally likely. None when no word of the whole stream
is fair, so that the search would not end. -/
def drawBetween (low high : UInt64) (s : Keystream) : Option (UInt64 × Keystream) :=
  let width := (high - low + 1).toNat
  if width = 0 then some s.next
  else (findFair width period s).map fun (offset, s) => (low + UInt64.ofNat offset, s)

end Keystream

end FaultDrill
