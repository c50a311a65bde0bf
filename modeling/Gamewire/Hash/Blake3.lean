/-! The hash function BLAKE3 in its plain mode, with outputs of up to one block. -/
namespace Gamewire.Blake3
set_option autoImplicit false

/-! ## Compression -/

/-- The eight words that start every chain. -/
def startWords : Array UInt32 :=
  #[0x6a09e667, 0xbb67ae85, 0x3c6ef372, 0xa54ff53a, 0x510e527f, 0x9b05688c, 0x1f83d9ab, 0x5be0cd19]

/-- How the message words are reordered between rounds. -/
def permutation : Array Nat := #[2, 6, 3, 10, 7, 0, 4, 13, 1, 11, 12, 5, 9, 14, 15, 8]

/-- Positions of the state that a round mixes: the four columns, then the four diagonals. -/
def mixes : List (Nat × Nat × Nat × Nat) :=
  [(0, 4, 8, 12), (1, 5, 9, 13), (2, 6, 10, 14), (3, 7, 11, 15),
   (0, 5, 10, 15), (1, 6, 11, 12), (2, 7, 8, 13), (3, 4, 9, 14)]

def rotateRight (w n : UInt32) : UInt32 := (w >>> n) ||| (w <<< (32 - n))

def word (a : Array UInt32) (i : Nat) : UInt32 := a.getD i 0

/-- Mixes two message words into four words of the state. -/
def mix (v : Array UInt32) (a b c d : Nat) (x y : UInt32) : Array UInt32 :=
  let a1 := word v a + word v b + x
  let d1 := rotateRight (word v d ^^^ a1) 16
  let c1 := word v c + d1
  let b1 := rotateRight (word v b ^^^ c1) 12
  let a2 := a1 + b1 + y
  let d2 := rotateRight (d1 ^^^ a2) 8
  let c2 := c1 + d2
  let b2 := rotateRight (b1 ^^^ c2) 7
  (((v.setIfInBounds a a2).setIfInBounds b b2).setIfInBounds c c2).setIfInBounds d d2

def mixAll (m : Array UInt32) : Nat → List (Nat × Nat × Nat × Nat) → Array UInt32 → Array UInt32
  | _, [], v => v
  | i, (a, b, c, d) :: rest, v =>
    mixAll m (i + 1) rest (mix v a b c d (word m (2 * i)) (word m (2 * i + 1)))

def permute (m : Array UInt32) : Array UInt32 := permutation.map (word m)

def rounds : Nat → Array UInt32 → Array UInt32 → Array UInt32
  | 0, _, v => v
  | n + 1, m, v => rounds n (permute m) (mixAll m 0 mixes v)

/-- A block ready to be compressed. -/
structure Node where
  chain : Array UInt32
  words : Array UInt32
  counter : UInt64
  length : UInt32
  flags : UInt32

/-- Roles of a block. -/
def chunkStart : UInt32 := 1
def chunkEnd : UInt32 := 2
def parent : UInt32 := 4
def root : UInt32 := 8

/-- The first eight words that a block compresses to, with further roles given by `extra`. -/
def Node.compress (n : Node) (extra : UInt32) : Array UInt32 :=
  let v := n.chain ++ startWords.extract 0 4 ++
    #[n.counter.toUInt32, (n.counter >>> 32).toUInt32, n.length, n.flags ||| extra]
  let v := rounds 7 n.words v
  (Array.range 8).map fun i => word v i ^^^ word v (i + 8)

/-! ## Chunks and the tree -/

/-- The first `k` bytes as a little-endian number, with zeros for missing bytes. -/
def littleEndian : Nat → List UInt8 → UInt32
  | 0, _ => 0
  | _ + 1, [] => 0
  | k + 1, b :: bs => b.toUInt32 ||| (littleEndian k bs <<< 8)

def blockWords (bytes : List UInt8) : Array UInt32 :=
  (Array.range 16).map fun i => littleEndian 4 (bytes.drop (4 * i))

/-- Runs over the blocks of a chunk; the last block is left for the caller to compress. -/
def chunkNode (counter : UInt64) : Nat → Array UInt32 → UInt32 → List UInt8 → Node
  | 0, chain, flags, bytes =>
    ⟨chain, blockWords bytes, counter, bytes.length.toUInt32, flags ||| chunkEnd⟩
  | fuel + 1, chain, flags, bytes =>
    if bytes.length ≤ 64 then
      ⟨chain, blockWords bytes, counter, bytes.length.toUInt32, flags ||| chunkEnd⟩
    else
      let block : Node := ⟨chain, blockWords (bytes.take 64), counter, 64, flags⟩
      chunkNode counter fuel (block.compress 0) 0 (bytes.drop 64)

/-- The leaves of the tree, one for each 1024 bytes. -/
def leaves : Nat → UInt64 → List UInt8 → List Node
  | 0, _, _ => []
  | fuel + 1, counter, bytes =>
    chunkNode counter 16 startWords chunkStart (bytes.take 1024) ::
      (if bytes.length ≤ 1024 then [] else leaves fuel (counter + 1) (bytes.drop 1024))

def join (left right : Node) : Node :=
  ⟨startWords, left.compress 0 ++ right.compress 0, 0, 64, parent⟩

/-- One level up: neighbours are joined, and an odd node at the end goes up as it is. -/
def level : List Node → List Node
  | a :: b :: rest => join a b :: level rest
  | short => short

/-- Goes up until a single node is left. -/
def top : Nat → List Node → Option Node
  | _, [] => none
  | _, [n] => some n
  | 0, n :: _ => some n
  | fuel + 1, nodes => top fuel (level nodes)

def bytesOfWord (w : UInt32) : List UInt8 :=
  [w.toUInt8, (w >>> 8).toUInt8, (w >>> 16).toUInt8, (w >>> 24).toUInt8]

/-- The 32 bytes of the hash. -/
def hash (bytes : List UInt8) : List UInt8 :=
  let nodes := leaves (bytes.length + 1) 0 bytes
  match top nodes.length nodes with
  | some n => (n.compress root).toList.flatMap bytesOfWord
  | none => []

end Gamewire.Blake3
