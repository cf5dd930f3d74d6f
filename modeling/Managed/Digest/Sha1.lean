import Managed.Bytes

namespace Managed.Digest.Sha1

structure State where
  a : UInt32
  b : UInt32
  c : UInt32
  d : UInt32
  e : UInt32
deriving DecidableEq, Repr

def initial : State :=
  ⟨0x67452301, 0xEFCDAB89, 0x98BADCFE, 0x10325476, 0xC3D2E1F0⟩

def blockSize : Nat := 64

def rotateLeft (word : UInt32) (places : UInt32) : UInt32 :=
  (word <<< places) ||| (word >>> (32 - places))

/-- The message, a set bit, zeros, and the length in bits as eight bytes, in whole blocks. -/
def pad (message : Bytes) : Bytes :=
  message ++ 0x80 :: List.replicate ((119 - message.length % 64) % 64) 0 ++
    (Bytes.ofNat 8 (message.length * 8)).reverse

def words : Bytes → List UInt32
  | first :: second :: third :: fourth :: rest =>
    UInt32.ofNat (Bytes.bigEndian [first, second, third, fourth]) :: words rest
  | _ => []

/-- Extends the latest words, newest first, by `count` more. -/
def extend : (count : Nat) → (latest : List UInt32) → List UInt32
  | 0, latest => latest
  | count + 1, latest =>
    let mixed := latest.getD 2 0 ^^^ latest.getD 7 0 ^^^ latest.getD 13 0 ^^^ latest.getD 15 0
    extend count (rotateLeft mixed 1 :: latest)

def schedule (block : Bytes) : List UInt32 :=
  (extend 64 (words block).reverse).reverse

def mix (round : Nat) (state : State) : UInt32 × UInt32 :=
  if round < 20 then ((state.b &&& state.c) ||| (~~~state.b &&& state.d), 0x5A827999)
  else if round < 40 then (state.b ^^^ state.c ^^^ state.d, 0x6ED9EBA1)
  else if round < 60 then
    ((state.b &&& state.c) ||| (state.b &&& state.d) ||| (state.c &&& state.d), 0x8F1BBCDC)
  else (state.b ^^^ state.c ^^^ state.d, 0xCA62C1D6)

def runRounds : (round : Nat) → (state : State) → (schedule : List UInt32) → State
  | _, state, [] => state
  | round, state, word :: rest =>
    let (bits, constant) := mix round state
    let next := rotateLeft state.a 5 + bits + state.e + constant + word
    runRounds (round + 1) ⟨next, state.a, rotateLeft state.b 30, state.c, state.d⟩ rest

def compress (state : State) (block : Bytes) : State :=
  let mixed := runRounds 0 state (schedule block)
  ⟨state.a + mixed.a, state.b + mixed.b, state.c + mixed.c, state.d + mixed.d, state.e + mixed.e⟩

def absorb : (count : Nat) → (state : State) → (blocks : Bytes) → State
  | 0, state, _ => state
  | count + 1, state, blocks =>
    absorb count (compress state (blocks.take blockSize)) (blocks.drop blockSize)

def State.toBytes (state : State) : Bytes :=
  [state.a, state.b, state.c, state.d, state.e].flatMap fun word =>
    (Bytes.ofNat 4 word.toNat).reverse

def digest (message : Bytes) : Bytes :=
  let padded := pad message
  (absorb (padded.length / blockSize) initial padded).toBytes

theorem length_digest (message : Bytes) : (digest message).length = 20 := by
  simp [digest, State.toBytes, Bytes.length_ofNat]

end Managed.Digest.Sha1
