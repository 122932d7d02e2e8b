/-!
# BLAKE3

The keyed hash and the key derivation of BLAKE3, with 32-byte results. Input is cut
into chunks of 1024 bytes and chunks into blocks of 64 bytes. A chunk chains its
blocks through the compression function; chunk results are joined pairwise, level by
level, an odd one moving up unpaired, until one node is left. That node is
compressed once more with the root flag.
-/

namespace AffineSwarm.Blake3

-- ---------------------------------------------------------------------------
-- Words
-- ---------------------------------------------------------------------------

/-- Eight words: a key or a chaining value. -/
abbrev Chain := Vector UInt32 8

/-- Sixteen words: a message block or a compression state. -/
abbrev Words := Vector UInt32 16

/-- The little-endian word of up to four bytes; missing bytes count as zero. -/
def wordOfBytes : List UInt8 → UInt32
  | [] => 0
  | b :: rest => b.toUInt32 ||| wordOfBytes rest <<< 8

/-- The words of a byte string, four bytes each. -/
def wordsOfBytes : Nat → List UInt8 → List UInt32
  | 0, _ => []
  | n + 1, bytes => wordOfBytes (bytes.take 4) :: wordsOfBytes n (bytes.drop 4)

@[simp] theorem length_wordsOfBytes (n : Nat) (bytes : List UInt8) :
    (wordsOfBytes n bytes).length = n := by
  induction n generalizing bytes with
  | zero => rfl
  | succ n ih => simp [wordsOfBytes, ih]

/-- The first `n` words of a byte string, padded with zeros. -/
def loadWords (n : Nat) (bytes : List UInt8) : Vector UInt32 n :=
  ⟨(wordsOfBytes n bytes).toArray, by simp⟩

/-- The four bytes of a word, the lowest first. -/
def bytesOfWord (w : UInt32) : List UInt8 :=
  [w.toUInt8, (w >>> 8).toUInt8, (w >>> 16).toUInt8, (w >>> 24).toUInt8]

def bytesOfWords (ws : List UInt32) : List UInt8 := ws.flatMap bytesOfWord

theorem length_bytesOfWords (ws : List UInt32) : (bytesOfWords ws).length = 4 * ws.length := by
  induction ws with
  | nil => rfl
  | cons w ws ih =>
    simp only [bytesOfWords, List.flatMap_cons, List.length_append] at ih ⊢
    simp [bytesOfWord, ih]
    omega

-- ---------------------------------------------------------------------------
-- Compression
-- ---------------------------------------------------------------------------

/-- The constant words of every compression. -/
def constants : Vector UInt32 4 := #v[0x6a09e667, 0xbb67ae85, 0x3c6ef372, 0xa54ff53a]

/-- The words a key is replaced by where there is none. -/
def initial : Chain :=
  #v[0x6a09e667, 0xbb67ae85, 0x3c6ef372, 0xa54ff53a,
    0x510e527f, 0x9b05688c, 0x1f83d9ab, 0x5be0cd19]

def rotateRight (x : UInt32) (n : UInt32) : UInt32 := x >>> n ||| x <<< (32 - n)

/-- Mix two message words into the words at four places. -/
@[inline] def mix (s : Words) (a b c d : Fin 16) (x y : UInt32) : Words :=
  let s := s.set a (s[a] + s[b] + x)
  let s := s.set d (rotateRight (s[d] ^^^ s[a]) 16)
  let s := s.set c (s[c] + s[d])
  let s := s.set b (rotateRight (s[b] ^^^ s[c]) 12)
  let s := s.set a (s[a] + s[b] + y)
  let s := s.set d (rotateRight (s[d] ^^^ s[a]) 8)
  let s := s.set c (s[c] + s[d])
  s.set b (rotateRight (s[b] ^^^ s[c]) 7)

/-- One round: the columns, then the diagonals. -/
def round (s m : Words) : Words :=
  let s := mix s 0 4 8 12 m[0] m[1]
  let s := mix s 1 5 9 13 m[2] m[3]
  let s := mix s 2 6 10 14 m[4] m[5]
  let s := mix s 3 7 11 15 m[6] m[7]
  let s := mix s 0 5 10 15 m[8] m[9]
  let s := mix s 1 6 11 12 m[10] m[11]
  let s := mix s 2 7 8 13 m[12] m[13]
  mix s 3 4 9 14 m[14] m[15]

/-- The order in which the next round takes the message words. -/
def reorder (m : Words) : Words :=
  #v[m[2], m[6], m[3], m[10], m[7], m[0], m[4], m[13],
    m[1], m[11], m[12], m[5], m[9], m[14], m[15], m[8]]

/-- The given number of rounds, the message being reordered between them. -/
def rounds : Nat → Words → Words → Words
  | 0, s, _ => s
  | n + 1, s, m => rounds n (round s m) (reorder m)

/-- What one compression takes: the chaining value, a block with its length, the
chunk number and the flags. -/
structure Node where
  chain : Chain
  block : Words
  counter : UInt64
  length : UInt32
  flags : UInt32

namespace Node

/-- The chaining value that a node hands on, under additional flags. -/
def compress (n : Node) (extra : UInt32) : Chain :=
  let place : Vector UInt32 4 :=
    #v[n.counter.toUInt32, (n.counter >>> 32).toUInt32, n.length, n.flags ||| extra]
  let s : Words := rounds 7 (n.chain ++ constants ++ place) n.block
  Vector.ofFn fun i : Fin 8 => s.get (i.castAdd 8) ^^^ s.get (i.natAdd 8)

end Node

-- ---------------------------------------------------------------------------
-- Chunks and the tree
-- ---------------------------------------------------------------------------

/-- What a hash is computed under: its key words and the flag of its purpose. -/
structure Mode where
  key : Chain
  purpose : UInt32

def startFlag : UInt32 := 1
def endFlag : UInt32 := 2
def parentFlag : UInt32 := 4
def rootFlag : UInt32 := 8
def keyedFlag : UInt32 := 16
def contextFlag : UInt32 := 32
def materialFlag : UInt32 := 64

/-- The pieces of the given size of a byte string; an empty string is one empty piece. -/
def pieces (size : Nat) (bytes : List UInt8) : List (List UInt8) :=
  if 0 < size ∧ size < bytes.length then
    bytes.take size :: pieces size (bytes.drop size)
  else [bytes]
termination_by bytes.length
decreasing_by simp_all; omega

/-- Chain the blocks of a chunk, whose last block is left to be compressed. -/
def chunkFrom (mode : Mode) (counter : UInt64) (chain : Chain) (flags : UInt32) :
    List (List UInt8) → Node
  | [] => ⟨chain, loadWords 16 [], counter, 0, flags ||| endFlag ||| mode.purpose⟩
  | [block] =>
    ⟨chain, loadWords 16 block, counter, UInt32.ofNat block.length,
      flags ||| endFlag ||| mode.purpose⟩
  | block :: rest =>
    let node : Node := ⟨chain, loadWords 16 block, counter, UInt32.ofNat block.length,
      flags ||| mode.purpose⟩
    chunkFrom mode counter (node.compress 0) 0 rest

/-- The node of the chunk with the given number. -/
def chunk (mode : Mode) (counter : UInt64) (bytes : List UInt8) : Node :=
  chunkFrom mode counter mode.key startFlag (pieces 64 bytes)

/-- The nodes of consecutive chunks. -/
def chunksFrom (mode : Mode) : UInt64 → List (List UInt8) → List Node
  | _, [] => []
  | counter, bytes :: rest => chunk mode counter bytes :: chunksFrom mode (counter + 1) rest

def parent (mode : Mode) (left right : Node) : Node :=
  ⟨mode.key, left.compress 0 ++ right.compress 0, 0, 64, parentFlag ||| mode.purpose⟩

/-- Join neighbours; an odd node moves up unpaired. -/
def level (mode : Mode) : List Node → List Node
  | left :: right :: rest => parent mode left right :: level mode rest
  | nodes => nodes

theorem length_level_le (mode : Mode) (nodes : List Node) :
    (level mode nodes).length ≤ nodes.length := by
  fun_induction level mode nodes with
  | case1 left right rest ih => simp only [List.length_cons] at *; omega
  | case2 => exact Nat.le_refl _

/-- The root of the tree over a non-empty list of nodes. -/
def root (mode : Mode) : Node → List Node → Node
  | node, [] => node
  | left, right :: rest => root mode (parent mode left right) (level mode rest)
termination_by _ nodes => nodes.length
decreasing_by
  have := length_level_le mode rest
  simp only [List.length_cons]
  omega

/-- The 32-byte hash of a byte string. -/
def hash (mode : Mode) (bytes : List UInt8) : Chain :=
  match chunksFrom mode 0 (pieces 1024 bytes) with
  | [] => (chunk mode 0 bytes).compress rootFlag
  | first :: rest => (root mode first rest).compress rootFlag

def chainBytes (c : Chain) : List UInt8 := bytesOfWords c.toList

@[simp] theorem length_chainBytes (c : Chain) : (chainBytes c).length = 32 := by
  simp [chainBytes, length_bytesOfWords]

/-- The keyed hash of a byte string under a 32-byte key. -/
def keyedHash (key bytes : List UInt8) : List UInt8 :=
  chainBytes (hash ⟨loadWords 8 key, keyedFlag⟩ bytes)

@[simp] theorem length_keyedHash (key bytes : List UInt8) :
    (keyedHash key bytes).length = 32 := by
  simp [keyedHash]

/-- The 32-byte key derived from secret material for a context. -/
def deriveKey (context : String) (material : List UInt8) : List UInt8 :=
  let contextKey := hash ⟨initial, contextFlag⟩ context.toUTF8.toList
  chainBytes (hash ⟨contextKey, materialFlag⟩ material)

@[simp] theorem length_deriveKey (context : String) (material : List UInt8) :
    (deriveKey context material).length = 32 := by
  simp [deriveKey]

end AffineSwarm.Blake3
