import SealedLog.Digest

/-!
# BLAKE3

The hash function of the chain, as a total function on byte strings.

The input is cut into chunks of 1024 octets, and a chunk into blocks of 64. The blocks of a chunk
are compressed one after the other; the chunks are the leaves of a binary tree whose left subtrees
are complete, and the digest is the compression of the root under the root flag.

* `Blake3.State.round`, `Blake3.compress`: the permutation and the compression function;
* `Blake3.Node`: a compression whose flags are still to be completed;
* `Blake3.chunk`, `Blake3.tree`: the node of a chunk and of a sequence of chunks;
* `Blake3.hash`: the digest of a byte string.
-/

namespace SealedLog.Blake3

/-- Eight words: a chaining value. -/
structure Chaining where
  (c0 c1 c2 c3 c4 c5 c6 c7 : UInt32)

/-- Sixteen words: a message block. -/
structure Block where
  (m0 m1 m2 m3 m4 m5 m6 m7 m8 m9 m10 m11 m12 m13 m14 m15 : UInt32)

/-- Sixteen words: what the rounds mix. -/
structure State where
  (s0 s1 s2 s3 s4 s5 s6 s7 s8 s9 s10 s11 s12 s13 s14 s15 : UInt32)

/-- The initial chaining value. -/
def iv : Chaining :=
  ⟨0x6A09E667, 0xBB67AE85, 0x3C6EF372, 0xA54FF53A, 0x510E527F, 0x9B05688C, 0x1F83D9AB, 0x5BE0CD19⟩

/-- The block is the first of its chunk. -/
def chunkStart : UInt32 := 1

/-- The block is the last of its chunk. -/
def chunkEnd : UInt32 := 2

/-- The block holds the chaining values of two subtrees. -/
def parentNode : UInt32 := 4

/-- The compression gives the digest. -/
def root : UInt32 := 8

/-- A word rotated right by `n` bits, for `0 < n < 32`. -/
def rotateRight (x n : UInt32) : UInt32 := (x >>> n) ||| (x <<< (32 - n))

/-- Mix two message words into four words of the state. -/
def mix (a b c d x y : UInt32) : UInt32 × UInt32 × UInt32 × UInt32 :=
  let a := a + b + x
  let d := rotateRight (d ^^^ a) 16
  let c := c + d
  let b := rotateRight (b ^^^ c) 12
  let a := a + b + y
  let d := rotateRight (d ^^^ a) 8
  let c := c + d
  let b := rotateRight (b ^^^ c) 7
  (a, b, c, d)

/-- One round: the columns, then the diagonals. -/
def State.round (s : State) (m : Block) : State :=
  let ⟨s0, s1, s2, s3, s4, s5, s6, s7, s8, s9, s10, s11, s12, s13, s14, s15⟩ := s
  let (s0, s4, s8, s12) := mix s0 s4 s8 s12 m.m0 m.m1
  let (s1, s5, s9, s13) := mix s1 s5 s9 s13 m.m2 m.m3
  let (s2, s6, s10, s14) := mix s2 s6 s10 s14 m.m4 m.m5
  let (s3, s7, s11, s15) := mix s3 s7 s11 s15 m.m6 m.m7
  let (s0, s5, s10, s15) := mix s0 s5 s10 s15 m.m8 m.m9
  let (s1, s6, s11, s12) := mix s1 s6 s11 s12 m.m10 m.m11
  let (s2, s7, s8, s13) := mix s2 s7 s8 s13 m.m12 m.m13
  let (s3, s4, s9, s14) := mix s3 s4 s9 s14 m.m14 m.m15
  ⟨s0, s1, s2, s3, s4, s5, s6, s7, s8, s9, s10, s11, s12, s13, s14, s15⟩

/-- The order of the message words in the next round. -/
def Block.permute (m : Block) : Block :=
  ⟨m.m2, m.m6, m.m3, m.m10, m.m7, m.m0, m.m4, m.m13,
    m.m1, m.m11, m.m12, m.m5, m.m9, m.m14, m.m15, m.m8⟩

/-- `n` rounds, the message permuted after each. -/
def State.rounds : Nat → State → Block → State
  | 0, s, _ => s
  | n + 1, s, m => rounds n (s.round m) m.permute

/-- The compression function, cut to its first eight words. -/
def compress (cv : Chaining) (m : Block) (counter : UInt64) (length flags : UInt32) : Chaining :=
  let s : State :=
    ⟨cv.c0, cv.c1, cv.c2, cv.c3, cv.c4, cv.c5, cv.c6, cv.c7, iv.c0, iv.c1, iv.c2, iv.c3,
      counter.toUInt32, (counter >>> 32).toUInt32, length, flags⟩
  let s := s.rounds 7 m
  ⟨s.s0 ^^^ s.s8, s.s1 ^^^ s.s9, s.s2 ^^^ s.s10, s.s3 ^^^ s.s11,
    s.s4 ^^^ s.s12, s.s5 ^^^ s.s13, s.s6 ^^^ s.s14, s.s7 ^^^ s.s15⟩

/-- The words of a byte string whose length is a multiple of four, the least significant octet
of a word first. -/
def words : Bytes → List UInt32
  | a :: b :: c :: d :: rest =>
    (a.toUInt32 ||| (b.toUInt32 <<< 8) ||| (c.toUInt32 <<< 16) ||| (d.toUInt32 <<< 24)) ::
      words rest
  | _ => []

/-- The block with these words; words that are missing are zero. -/
def Block.ofWords (w : List UInt32) : Block :=
  ⟨w.getD 0 0, w.getD 1 0, w.getD 2 0, w.getD 3 0, w.getD 4 0, w.getD 5 0,
    w.getD 6 0, w.getD 7 0, w.getD 8 0, w.getD 9 0, w.getD 10 0,
    w.getD 11 0, w.getD 12 0, w.getD 13 0, w.getD 14 0, w.getD 15 0⟩

/-- At most 64 octets as a block, filled up with zeros. -/
def Block.ofBytes (bytes : Bytes) : Block :=
  .ofWords (words (bytes ++ List.replicate (64 - bytes.length) 0))

/-- The four octets of a word, the least significant first. -/
def octets (w : UInt32) : Bytes :=
  [w.toUInt8, (w >>> 8).toUInt8, (w >>> 16).toUInt8, (w >>> 24).toUInt8]

/-- The 32 octets of a chaining value. -/
def Chaining.digest (cv : Chaining) : Digest where
  bytes := octets cv.c0 ++ octets cv.c1 ++ octets cv.c2 ++ octets cv.c3 ++
    octets cv.c4 ++ octets cv.c5 ++ octets cv.c6 ++ octets cv.c7
  length_eq := rfl

/-- A compression that is complete but for the root flag. -/
structure Node where
  cv : Chaining
  block : Block
  counter : UInt64
  length : UInt32
  flags : UInt32

/-- The chaining value of an inner node. -/
def Node.chaining (n : Node) : Chaining := compress n.cv n.block n.counter n.length n.flags

/-- The digest of a root. -/
def Node.digest (n : Node) : Digest :=
  (compress n.cv n.block 0 n.length (n.flags ||| root)).digest

/-- The node of a chunk, from the chaining value `cv` before the blocks that are left. `flags` is
the start flag before the first block and zero after it. -/
def chunkFrom (counter : UInt64) (cv : Chaining) (flags : UInt32) : List Bytes → Node
  | [] => ⟨cv, .ofBytes [], counter, 0, flags ||| chunkEnd⟩
  | [last] => ⟨cv, .ofBytes last, counter, UInt32.ofNat last.length, flags ||| chunkEnd⟩
  | block :: rest => chunkFrom counter (compress cv (.ofBytes block) counter 64 flags) 0 rest

/-- The node of the chunk with this number. -/
def chunk (counter : UInt64) (bytes : Bytes) : Node :=
  chunkFrom counter iv chunkStart (bytes.pieces 64)

/-- The node above two subtrees. -/
def parent (left right : Chaining) : Node :=
  ⟨iv, ⟨left.c0, left.c1, left.c2, left.c3, left.c4, left.c5, left.c6, left.c7,
    right.c0, right.c1, right.c2, right.c3, right.c4, right.c5, right.c6, right.c7⟩,
    0, 64, parentNode⟩

/-- The chunks of the left subtree of `n` chunks: the greatest power of two below `n`. -/
def leftCount (n : Nat) : Nat := 1 <<< Nat.log2 (n - 1)

theorem leftCount_pos (n : Nat) : 0 < leftCount n := by
  rw [leftCount, Nat.one_shiftLeft]
  exact Nat.two_pow_pos _

theorem leftCount_lt {n : Nat} (h : 2 ≤ n) : leftCount n < n := by
  have positive : n - 1 ≠ 0 := by omega
  have := Nat.log2_self_le positive
  rw [leftCount, Nat.one_shiftLeft]
  omega

/-- The node of a sequence of chunks, the first of which has the number `first`. -/
def tree (first : Nat) : List Bytes → Node
  | [] => chunk (UInt64.ofNat first) []
  | [only] => chunk (UInt64.ofNat first) only
  | a :: b :: rest =>
    let n := leftCount (rest.length + 2)
    parent (tree first ((a :: b :: rest).take n)).chaining
      (tree (first + n) ((a :: b :: rest).drop n)).chaining
termination_by chunks => chunks.length
decreasing_by
  · have := leftCount_lt (n := rest.length + 2) (by omega)
    simp only [List.length_take, List.length_cons]
    omega
  · have := leftCount_pos (rest.length + 2)
    simp only [List.length_drop, List.length_cons]
    omega

/-- The BLAKE3 digest of a byte string. -/
def hash : HashFunction := fun bytes => (tree 0 (bytes.pieces 1024)).digest

end SealedLog.Blake3
