import ShaderIntake.Bytes

/-!
# MD5

The digest of RFC 1321, in two forms.  `Md5.digest` hashes a byte string that
is there as a whole: it appends the padding and runs over the blocks.
`Md5.Stream` takes the bytes piece by piece and keeps what does not yet fill a
block; `Stream.finish` pads what is left.

Both run `absorb`, which compresses every whole 64-byte block of its argument,
and both get the padding from `padding`, which depends on the length alone.
-/

namespace ShaderIntake.Md5

/-- The four chaining words. -/
structure Chain where
  a : UInt32
  b : UInt32
  c : UInt32
  d : UInt32
deriving DecidableEq

/-- The chaining words before the first block. -/
def Chain.initial : Chain :=
  ⟨0x67452301, 0xefcdab89, 0x98badcfe, 0x10325476⟩

/-- The chaining words as sixteen bytes, lowest byte first. -/
def Chain.toBytes (h : Chain) : Bytes :=
  Bytes.ofWord h.a ++ Bytes.ofWord h.b ++ Bytes.ofWord h.c ++ Bytes.ofWord h.d

/-- The additive constant of step `i` is `⌊2 ^ 32 * |sin (i + 1)|⌋`. -/
def sines : Array UInt32 := #[
  0xd76aa478, 0xe8c7b756, 0x242070db, 0xc1bdceee, 0xf57c0faf, 0x4787c62a, 0xa8304613, 0xfd469501,
  0x698098d8, 0x8b44f7af, 0xffff5bb1, 0x895cd7be, 0x6b901122, 0xfd987193, 0xa679438e, 0x49b40821,
  0xf61e2562, 0xc040b340, 0x265e5a51, 0xe9b6c7aa, 0xd62f105d, 0x02441453, 0xd8a1e681, 0xe7d3fbc8,
  0x21e1cde6, 0xc33707d6, 0xf4d50d87, 0x455a14ed, 0xa9e3e905, 0xfcefa3f8, 0x676f02d9, 0x8d2a4c8a,
  0xfffa3942, 0x8771f681, 0x6d9d6122, 0xfde5380c, 0xa4beea44, 0x4bdecfa9, 0xf6bb4b60, 0xbebfbc70,
  0x289b7ec6, 0xeaa127fa, 0xd4ef3085, 0x04881d05, 0xd9d4d039, 0xe6db99e5, 0x1fa27cf8, 0xc4ac5665,
  0xf4292244, 0x432aff97, 0xab9423a7, 0xfc93a039, 0x655b59c3, 0x8f0ccc92, 0xffeff47d, 0x85845dd1,
  0x6fa87e4f, 0xfe2ce6e0, 0xa3014314, 0x4e0811a1, 0xf7537e82, 0xbd3af235, 0x2ad7d2bb, 0xeb86d391]

/-- Each round of sixteen steps cycles through four rotation amounts. -/
def rotations : Array UInt32 :=
  #[7, 12, 17, 22, 5, 9, 14, 20, 4, 11, 16, 23, 6, 10, 15, 21]

def rotateLeft (w amount : UInt32) : UInt32 :=
  (w <<< amount) ||| (w >>> (32 - amount))

/-- The mixing function of step `i`, one for each round of sixteen steps. -/
def mix (i : Nat) (h : Chain) : UInt32 :=
  if i < 16 then (h.b &&& h.c) ||| (~~~h.b &&& h.d)
  else if i < 32 then (h.d &&& h.b) ||| (~~~h.d &&& h.c)
  else if i < 48 then h.b ^^^ h.c ^^^ h.d
  else h.c ^^^ (h.b ||| ~~~h.d)

/-- The number of the message word that step `i` reads. -/
def wordIndex (i : Nat) : Nat :=
  if i < 16 then i
  else if i < 32 then (5 * i + 1) % 16
  else if i < 48 then (3 * i + 5) % 16
  else 7 * i % 16

/-- Step `i` on the block of `message` that starts at `start`. -/
def step (message : Bytes) (start i : Nat) (h : Chain) : Chain :=
  let sum := h.a + mix i h + sines.getD i 0 + message.word (start + 4 * wordIndex i)
  ⟨h.d, h.b + rotateLeft sum (rotations.getD (4 * (i / 16) + i % 4) 0), h.b, h.c⟩

/-- The chaining words after the block of `message` that starts at `start`. -/
def compress (message : Bytes) (start : Nat) (h : Chain) : Chain :=
  let r := Nat.fold 64 (fun i _ s => step message start i s) h
  ⟨h.a + r.a, h.b + r.b, h.c + r.c, h.d + r.d⟩

/-- The chaining words after every whole block of `message`. -/
def absorb (h : Chain) (message : Bytes) : Chain :=
  Nat.fold (message.size / 64) (fun i _ s => compress message (64 * i) s) h

/-- What follows a message of `length` bytes: a one bit, zeros up to eight bytes
before the end of a block, and the length in bits modulo `2 ^ 64`. -/
def padding (length : Nat) : Bytes :=
  ⟨#[0x80]⟩ ++ Bytes.zeros ((119 - length % 64) % 64)
    ++ Bytes.ofWord (UInt32.ofNat (8 * length))
    ++ Bytes.ofWord (UInt32.ofNat (8 * length / 0x100000000))

/-- The digest of a message. -/
def digest (message : Bytes) : Bytes :=
  (absorb .initial (message ++ padding message.size)).toBytes

/-! Two of the digests that RFC 1321 lists (A.5): one block, and two of them. -/

example : (digest "abc".toUTF8).data.toList =
    [0x90, 0x01, 0x50, 0x98, 0x3c, 0xd2, 0x4f, 0xb0,
      0xd6, 0x96, 0x3f, 0x7d, 0x28, 0xe1, 0x7f, 0x72] := by decide +kernel

example : (digest ("12345678901234567890123456789012345678901234567890" ++
      "123456789012345678901234567890").toUTF8).data.toList =
    [0x57, 0xed, 0xf4, 0xa2, 0x2b, 0xe3, 0xc9, 0x55,
      0xac, 0x49, 0xda, 0x2e, 0x21, 0x07, 0xb6, 0x7a] := by decide +kernel

/-! ## Piece by piece -/

/-- A digest under way: the chaining words after all whole blocks so far, the
bytes that do not fill a block, and the number of bytes taken in. -/
structure Stream where
  chain : Chain
  pending : Bytes
  length : Nat

/-- A digest of nothing yet. -/
def Stream.start : Stream :=
  ⟨.initial, ByteArray.empty, 0⟩

/-- Takes in the next piece of the message. -/
def Stream.feed (s : Stream) (piece : Bytes) : Stream :=
  let bytes := s.pending ++ piece
  ⟨absorb s.chain bytes, bytes.extract (bytes.size / 64 * 64) bytes.size, s.length + piece.size⟩

/-- The digest of all pieces taken in. -/
def Stream.finish (s : Stream) : Bytes :=
  (absorb s.chain (s.pending ++ padding s.length)).toBytes

/-- Padding completes the last block. -/
theorem size_padding (length : Nat) : (length + (padding length).size) % 64 = 0 := by
  simp only [padding, ByteArray.size_append, Bytes.size_zeros, Bytes.size_ofWord]
  have hone : (⟨#[0x80]⟩ : ByteArray).size = 1 := rfl
  omega

end ShaderIntake.Md5
