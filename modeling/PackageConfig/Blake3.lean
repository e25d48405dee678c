/-!
The hash function BLAKE3 with a digest of 32 bytes.

The input is cut into chunks of 1024 bytes and each chunk into blocks of 64; the
chunks are the leaves of a binary tree whose left part is always a full tree of
as many chunks as fit. Only the last compression, at the root, makes the digest.
-/

namespace PackageConfig.Blake3

/-! ## Compression -/

/-- Eight words that carry the result of one compression to the next. -/
abbrev Chain := Vector UInt32 8

/-- The sixteen words of a block, and of the state while it is mixed. -/
abbrev Block := Vector UInt32 16

/-- The chain that every chunk starts from. -/
def start : Chain :=
  ⟨#[0x6A09E667, 0xBB67AE85, 0x3C6EF372, 0xA54FF53A, 0x510E527F, 0x9B05688C, 0x1F83D9AB,
    0x5BE0CD19], rfl⟩

/-- The place from which each word of a block moves between two rounds. -/
def permutation : Vector (Fin 16) 16 :=
  ⟨#[2, 6, 3, 10, 7, 0, 4, 13, 1, 11, 12, 5, 9, 14, 15, 8], rfl⟩

/-- A word with its bits turned to the right. -/
def turn (w places : UInt32) : UInt32 :=
  (w >>> places) ||| (w <<< (32 - places))

/-- Mix two words of the block into four words of the state. -/
def mix (v : Block) (a b c d : Fin 16) (x y : UInt32) : Block :=
  let v := v.set a (v[a] + v[b] + x)
  let v := v.set d (turn (v[d] ^^^ v[a]) 16)
  let v := v.set c (v[c] + v[d])
  let v := v.set b (turn (v[b] ^^^ v[c]) 12)
  let v := v.set a (v[a] + v[b] + y)
  let v := v.set d (turn (v[d] ^^^ v[a]) 8)
  let v := v.set c (v[c] + v[d])
  v.set b (turn (v[b] ^^^ v[c]) 7)

/-- Mix a whole block in: once along the columns of the state, once along its
diagonals. -/
def round (v m : Block) : Block :=
  let v := mix v 0 4 8 12 m[0] m[1]
  let v := mix v 1 5 9 13 m[2] m[3]
  let v := mix v 2 6 10 14 m[4] m[5]
  let v := mix v 3 7 11 15 m[6] m[7]
  let v := mix v 0 5 10 15 m[8] m[9]
  let v := mix v 1 6 11 12 m[10] m[11]
  let v := mix v 2 7 8 13 m[12] m[13]
  mix v 3 4 9 14 m[14] m[15]

/-- So many rounds, with the words of the block moved between them. -/
def rounds : Nat → Block → Block → Block
  | 0, v, _ => v
  | n + 1, v, m => rounds n (round v m) (permutation.map fun place => m[place])

/-- A compression that is still to be made: everything that goes into it. -/
structure Node where
  chain : Chain
  block : Block
  counter : UInt64
  length : UInt32
  flags : UInt32

/-- Marks the first block of a chunk. -/
def chunkStart : UInt32 := 1

/-- Marks the last block of a chunk. -/
def chunkEnd : UInt32 := 2

/-- Marks a block that holds the chains of two subtrees. -/
def parent : UInt32 := 4

/-- Marks the compression at the root. -/
def root : UInt32 := 8

/-- Make the compression of a node. -/
def Node.chainAfter (node : Node) : Chain :=
  let tail : Vector UInt32 8 :=
    ⟨#[start[0], start[1], start[2], start[3], node.counter.toUInt32,
      (node.counter >>> 32).toUInt32, node.length, node.flags], rfl⟩
  let v := rounds 7 (node.chain ++ tail) node.block
  Vector.ofFn fun i : Fin 8 => v[i.val] ^^^ v[i.val + 8]

/-! ## Chunks and the tree -/

/-- The word that four bytes hold, the lowest first. -/
def word (bytes : List UInt8) : UInt32 :=
  bytes.foldr (fun byte w => (w <<< 8) ||| byte.toUInt32) 0

/-- The words of a block; a block that is not full is filled up with zeros. -/
def wordsOf (bytes : List UInt8) : Block :=
  Vector.ofFn fun i : Fin 16 => word ((bytes.drop (4 * i.val)).take 4)

/-- Cut a list into pieces of a given size; the last piece may be shorter. -/
def pieces (size : Nat) (bytes : List UInt8) : List (List UInt8) :=
  if h : size = 0 ∨ bytes.length ≤ size then [bytes]
  else
    have shorter : (bytes.drop size).length < bytes.length := by
      obtain ⟨pos, lt⟩ := not_or.1 h
      rw [List.length_drop]
      omega
    bytes.take size :: pieces size (bytes.drop size)
termination_by bytes.length
decreasing_by exact shorter

/-- The last node of a chunk, after the blocks before it have been compressed. -/
def chunkNode (counter : UInt64) (flags : UInt32) (chain : Chain) : List (List UInt8) → Node
  | [] => ⟨chain, wordsOf [], counter, 0, flags ||| chunkEnd⟩
  | [last] => ⟨chain, wordsOf last, counter, last.length.toUInt32, flags ||| chunkEnd⟩
  | block :: blocks =>
    let node : Node := ⟨chain, wordsOf block, counter, 64, flags⟩
    chunkNode counter 0 node.chainAfter blocks

/-- The node above two subtrees. -/
def parentNode (left right : Node) : Node :=
  ⟨start, left.chainAfter ++ right.chainAfter, 0, 64, parent⟩

/-- How many of several chunks go to the left: as many as make a full tree that
leaves something for the right. -/
def leftSize (chunks : Nat) : Nat :=
  Nat.pow 2 (chunks - 1).log2

theorem leftSize_bounds {chunks : Nat} (h : 1 < chunks) :
    0 < leftSize chunks ∧ leftSize chunks < chunks := by
  have le : leftSize chunks ≤ chunks - 1 := Nat.log2_self_le (by omega)
  exact ⟨Nat.two_pow_pos _, by omega⟩

/-- The node of a tree over chunks that are numbered from `counter`. -/
def treeNode (counter : Nat) (chunks : List (List UInt8)) : Node :=
  if h : chunks.length ≤ 1 then
    chunkNode counter.toUInt64 chunkStart start (pieces 64 chunks.flatten)
  else
    let size := leftSize chunks.length
    have bounds : 0 < size ∧ size < chunks.length := leftSize_bounds (Nat.not_le.1 h)
    have leftShorter : (chunks.take size).length < chunks.length := by
      rw [List.length_take]
      exact Nat.lt_of_le_of_lt (Nat.min_le_left _ _) bounds.2
    have rightShorter : (chunks.drop size).length < chunks.length := by
      rw [List.length_drop]
      exact Nat.sub_lt_of_pos_le bounds.1 (Nat.le_of_lt bounds.2)
    parentNode (treeNode counter (chunks.take size)) (treeNode (counter + size) (chunks.drop size))
termination_by chunks.length
decreasing_by
  · exact leftShorter
  · exact rightShorter

/-! ## The digest -/

/-- The four bytes of a word, the lowest first. -/
def bytesOf (w : UInt32) : List UInt8 :=
  [w.toUInt8, (w >>> 8).toUInt8, (w >>> 16).toUInt8, (w >>> 24).toUInt8]

/-- The digest of some bytes. -/
def hash (bytes : List UInt8) : List UInt8 :=
  let node := treeNode 0 (pieces 1024 bytes)
  let chain := { node with flags := node.flags ||| root }.chainAfter
  chain.toList.flatMap bytesOf

end PackageConfig.Blake3
