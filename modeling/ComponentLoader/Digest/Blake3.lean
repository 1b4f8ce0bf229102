/-
  This file defines the BLAKE3 digest of a byte sequence,
  as far as its first chaining words.

  The input is cut into chunks of 1024 bytes, and a chunk
  into blocks of 64.  The chaining values of the chunks
  are joined pairwise, level by level, a last odd one
  going up as it is; the node at the top is marked as the
  root.

  Key definitions include:
    * `Blake3.Words`
    * `Blake3.compress`
    * `Blake3.chunkValue`
    * `Blake3.parentValue`
    * `Blake3.digest`
-/

namespace ComponentLoader
namespace Blake3

------------------------------------------------------------
-- Words And Constants
------------------------------------------------------------

/- A row of 32-bit words. -/
abbrev Words :=
  Array UInt32

/- The word at a place of a row. -/
def word
    (ws : Words)
    (i : Nat) : UInt32 :=
  ws.getD i 0

/- The initial chaining value. -/
def initial : Words :=
  #[0x6a09e667, 0xbb67ae85, 0x3c6ef372, 0xa54ff53a,
    0x510e527f, 0x9b05688c, 0x1f83d9ab, 0x5be0cd19]

/- Where each word of a block comes from in the next round. -/
def permutation : List Nat :=
  [2, 6, 3, 10, 7, 0, 4, 13, 1, 11, 12, 5, 9, 14, 15, 8]

/- Marks the first block of a chunk. -/
def chunkStart : UInt32 := 1

/- Marks the last block of a chunk. -/
def chunkEnd : UInt32 := 2

/- Marks a node that joins two others. -/
def parent : UInt32 := 4

/- Marks the node at the top. -/
def root : UInt32 := 8

------------------------------------------------------------
-- Compression
------------------------------------------------------------

/- Rotation of a word to the right. -/
def rotateRight
    (w : UInt32)
    (n : UInt32) : UInt32 :=
  (w >>> n) ||| (w <<< (32 - n))

/- Mix two message words into four words of the state. -/
def mix
    (state : Words)
    (a b c d : Nat)
    (x y : UInt32) : Words :=
  let va := word state a + word state b + x
  let vd := rotateRight (word state d ^^^ va) 16
  let vc := word state c + vd
  let vb := rotateRight (word state b ^^^ vc) 12
  let va := va + vb + y
  let vd := rotateRight (vd ^^^ va) 8
  let vc := vc + vd
  let vb := rotateRight (vb ^^^ vc) 7
  (((state.setIfInBounds a va).setIfInBounds b
    vb).setIfInBounds c vc).setIfInBounds d vd

/- Mix a block into the columns and the diagonals. -/
def mixRound
    (state block : Words) : Words :=
  let m := word block
  let state := mix state 0 4 8 12 (m 0) (m 1)
  let state := mix state 1 5 9 13 (m 2) (m 3)
  let state := mix state 2 6 10 14 (m 4) (m 5)
  let state := mix state 3 7 11 15 (m 6) (m 7)
  let state := mix state 0 5 10 15 (m 8) (m 9)
  let state := mix state 1 6 11 12 (m 10) (m 11)
  let state := mix state 2 7 8 13 (m 12) (m 13)
  mix state 3 4 9 14 (m 14) (m 15)

/- The words of a block in the order of the next round. -/
def permute
    (block : Words) : Words :=
  (permutation.map (word block)).toArray

/- A number of rounds, permuting the block in between. -/
def mixRounds : Nat → Words → Words → Words
  | 0, state, _ => state
  | n + 1, state, block =>
      mixRounds n (mixRound state block) (permute block)

/- The chaining value after one more block. -/
def compress
    (chaining block : Words)
    (counter : Nat)
    (size flags : UInt32) : Words :=
  let start : Words :=
    chaining ++
      #[word initial 0, word initial 1,
        word initial 2, word initial 3,
        UInt32.ofNat counter,
        UInt32.ofNat (counter / UInt32.size), size, flags]
  let state := mixRounds 7 start block
  ((List.range 8).map fun i =>
    word state i ^^^ word state (i + 8)).toArray

------------------------------------------------------------
-- Blocks And Chunks
------------------------------------------------------------

/- Pieces of a given length; the last may be shorter. -/
def piecesOf
    {α : Type}
    (n : Nat) : Nat → List α → List (List α)
  | 0, _ => []
  | _, [] => []
  | fuel + 1, xs =>
      xs.take n :: piecesOf n fuel (xs.drop n)

/- The pieces of an input; an empty one has one piece. -/
def pieces
    {α : Type}
    (n : Nat)
    (xs : List α) : List (List α) :=
  match piecesOf n xs.length xs with
  | [] => [[]]
  | found => found

/- The word of up to four bytes, the lowest first. -/
def wordOf : List UInt8 → UInt32
  | [] => 0
  | b :: bs => b.toUInt32 ||| (wordOf bs <<< 8)

/- The words of a block, with zeros after its end. -/
def blockWords
    (bytes : List UInt8) : Words :=
  let padded :=
    bytes ++ List.replicate (64 - bytes.length) 0
  ((piecesOf 4 16 padded).map wordOf).toArray

/- The chaining value after the blocks of a chunk. -/
def chunkBlocks
    (counter : Nat)
    (last : UInt32) :
    UInt32 → Words → List (List UInt8) → Words
  | _, chaining, [] => chaining
  | first, chaining, [block] =>
      compress chaining (blockWords block) counter
        (UInt32.ofNat block.length)
        (first ||| chunkEnd ||| last)
  | first, chaining, block :: rest =>
      chunkBlocks counter last 0
        (compress chaining (blockWords block) counter
          64 first)
        rest

/- The value of a chunk; `last` marks a root. -/
def chunkValue
    (last : UInt32)
    (counter : Nat)
    (bytes : List UInt8) : Words :=
  chunkBlocks counter last chunkStart initial
    (pieces 64 bytes)

------------------------------------------------------------
-- The Tree
------------------------------------------------------------

/- The value of a node that joins two others. -/
def parentValue
    (last : UInt32)
    (left right : Words) : Words :=
  compress initial (left ++ right) 0 64 (parent ||| last)

/- The values of one level up. -/
def joinLevel : List Words → List Words
  | left :: right :: rest =>
      parentValue 0 left right :: joinLevel rest
  | short => short

/- The value of the root over a level. -/
def rootValue : Nat → List Words → Words
  | _, [left, right] => parentValue root left right
  | fuel + 1, level => rootValue fuel (joinLevel level)
  | 0, _ => initial

/- The first eight words of the digest. -/
def digest
    (bytes : List UInt8) : Words :=
  match pieces 1024 bytes with
  | [only] => chunkValue root 0 only
  | chunks =>
      rootValue chunks.length
        (chunks.zipIdx.map fun (chunk, i) =>
          chunkValue 0 i chunk)

end Blake3
end ComponentLoader
