import TokenPlan.Text.Hex
import TokenPlan.Unit.Natural

/-!
The BLAKE3 hash. A message is cut into chunks of 1024 bytes, each chunk is compressed block by
block, and the chunks are joined pairwise into a tree whose root gives the digest.
-/

set_option autoImplicit false
set_option relaxedAutoImplicit false

namespace TokenPlan.Digest

structure Lane where
  a : UInt32
  b : UInt32
  c : UInt32
  d : UInt32

/-- The sixteen words of the state as four columns. -/
structure State where
  first : Lane
  second : Lane
  third : Lane
  fourth : Lane

def initialWords : List UInt32 :=
  [0x6A09E667, 0xBB67AE85, 0x3C6EF372, 0xA54FF53A, 0x510E527F, 0x9B05688C, 0x1F83D9AB, 0x5BE0CD19]

/-- The order in which a round takes the words of the round before it. -/
def wordOrder : List Nat :=
  [2, 6, 3, 10, 7, 0, 4, 13, 1, 11, 12, 5, 9, 14, 15, 8]

/-- The roles of a compression, as bits that are added up. -/
def chunkStart : UInt32 := 1

def chunkEnd : UInt32 := 2

def parent : UInt32 := 4

def root : UInt32 := 8

def rotateRight (word count : UInt32) : UInt32 :=
  (word >>> count) ||| (word <<< (32 - count))

/-- Mixes two words of the message into a lane. -/
def Lane.mix (lane : Lane) (x y : UInt32) : Lane :=
  let a := lane.a + lane.b + x
  let d := rotateRight (lane.d ^^^ a) 16
  let c := lane.c + d
  let b := rotateRight (lane.b ^^^ c) 12
  let a := a + b + y
  let d := rotateRight (d ^^^ a) 8
  let c := c + d
  let b := rotateRight (b ^^^ c) 7
  ⟨a, b, c, d⟩

def State.diagonals (s : State) : State :=
  { first := ⟨s.first.a, s.second.b, s.third.c, s.fourth.d⟩
    second := ⟨s.second.a, s.third.b, s.fourth.c, s.first.d⟩
    third := ⟨s.third.a, s.fourth.b, s.first.c, s.second.d⟩
    fourth := ⟨s.fourth.a, s.first.b, s.second.c, s.third.d⟩ }

def State.columns (s : State) : State :=
  { first := ⟨s.first.a, s.fourth.b, s.third.c, s.second.d⟩
    second := ⟨s.second.a, s.first.b, s.fourth.c, s.third.d⟩
    third := ⟨s.third.a, s.second.b, s.first.c, s.fourth.d⟩
    fourth := ⟨s.fourth.a, s.third.b, s.second.c, s.first.d⟩ }

/-- Mixes eight words of the message, from the one at `start` on, into the four lanes. -/
def State.mix (s : State) (message : Array UInt32) (start : Nat) : State :=
  let word (k : Nat) := message.getD (start + k) 0
  { first := s.first.mix (word 0) (word 1)
    second := s.second.mix (word 2) (word 3)
    third := s.third.mix (word 4) (word 5)
    fourth := s.fourth.mix (word 6) (word 7) }

/-- A round mixes the columns and then the diagonals. -/
def State.round (s : State) (message : Array UInt32) : State :=
  ((s.mix message 0).diagonals.mix message 8).columns

/-- Rounds with the message reordered after each. -/
def State.rounds : Nat → State → Array UInt32 → State
  | 0, s, _ => s
  | n + 1, s, message =>
    State.rounds n (s.round message) (wordOrder.map fun k => message.getD k 0).toArray

/-- What is compressed: a chaining value, a block of sixteen words, and where the block stands. -/
structure Block where
  chain : List UInt32
  message : List UInt32
  counter : Nat
  length : Nat
  role : UInt32

/-- The state in which the compression of a block begins. -/
def Block.start (block : Block) : State :=
  let chain (k : Nat) := block.chain.getD k 0
  let initial (k : Nat) := initialWords.getD k 0
  { first := ⟨chain 0, chain 4, initial 0, UInt32.ofNat block.counter⟩
    second := ⟨chain 1, chain 5, initial 1, UInt32.ofNat (block.counter / 2 ^ 32)⟩
    third := ⟨chain 2, chain 6, initial 2, UInt32.ofNat block.length⟩
    fourth := ⟨chain 3, chain 7, initial 3, block.role⟩ }

/-- The eight words that a block is compressed to. -/
def Block.compress (block : Block) : List UInt32 :=
  let s := State.rounds 7 block.start block.message.toArray
  [s.first.a ^^^ s.first.c, s.second.a ^^^ s.second.c, s.third.a ^^^ s.third.c,
    s.fourth.a ^^^ s.fourth.c, s.first.b ^^^ s.first.d, s.second.b ^^^ s.second.d,
    s.third.b ^^^ s.third.d, s.fourth.b ^^^ s.fourth.d]

/-- Cuts bytes into pieces of a size; only the last piece may be shorter. -/
def pieces (size : Nat) : Nat → List UInt8 → List (List UInt8)
  | 0, _ => []
  | fuel + 1, bytes =>
    match bytes.drop size with
    | [] => [bytes]
    | rest => bytes.take size :: pieces size fuel rest

/-- A word from its bytes, the lowest first. -/
def wordOfBytes (bytes : List UInt8) : UInt32 :=
  bytes.foldr (fun byte word => byte.toUInt32 ||| (word <<< 8)) 0

/-- The first `count` words of bytes, with zeros after their end. -/
def wordsOfBytes : Nat → List UInt8 → List UInt32
  | 0, _ => []
  | count + 1, bytes => wordOfBytes (bytes.take 4) :: wordsOfBytes count (bytes.drop 4)

/-- Compresses the blocks of a chunk up to its last one, which is left as it is. -/
def chunkBlock (index : Nat) (chain : List UInt32) (role : UInt32) : List (List UInt8) → Block
  | [] => ⟨chain, wordsOfBytes 16 [], index, 0, role + chunkEnd⟩
  | [last] => ⟨chain, wordsOfBytes 16 last, index, last.length, role + chunkEnd⟩
  | bytes :: rest =>
    let block : Block := ⟨chain, wordsOfBytes 16 bytes, index, bytes.length, role⟩
    chunkBlock index block.compress 0 rest

/-- The last block of each chunk in order. -/
def chunkBlocks : Nat → List (List UInt8) → List Block
  | _, [] => []
  | index, chunk :: chunks =>
    chunkBlock index initialWords chunkStart (pieces 64 16 chunk) :: chunkBlocks (index + 1) chunks

def parentBlock (left right : Block) : Block :=
  ⟨initialWords, left.compress ++ right.compress, 0, 64, parent⟩

/-- Joins neighbours; an odd block at the end stays. -/
def joinPairs : List Block → List Block
  | left :: right :: rest => parentBlock left right :: joinPairs rest
  | rest => rest

/-- Joins level by level until one block is left. -/
def rootBlock : Nat → List Block → Option Block
  | 0, _ => none
  | _ + 1, [] => none
  | _ + 1, [block] => some block
  | fuel + 1, blocks => rootBlock fuel (joinPairs blocks)

/-- The four bytes of a word, the lowest first. -/
def bytesOfWord (word : UInt32) : List UInt8 :=
  [word.toUInt8, (word >>> 8).toUInt8, (word >>> 16).toUInt8, (word >>> 24).toUInt8]

/-- The thirty-two bytes of the digest. -/
def blake3 (message : List UInt8) : List UInt8 :=
  let chunks := pieces 1024 (message.length + 1) message
  match rootBlock (chunks.length + 1) (chunkBlocks 0 chunks) with
  | none => []
  | some block => ({ block with role := block.role + root } : Block).compress.flatMap bytesOfWord

/-- The digest of a text's UTF-8 bytes, in hexadecimal digits. -/
def ofText (text : String) : String :=
  String.ofList (Text.hexOfBytes (blake3 text.toUTF8.toList))

end TokenPlan.Digest
