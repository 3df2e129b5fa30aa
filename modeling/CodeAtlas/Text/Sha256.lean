import CodeAtlas.Text.Utf8

/-!
# SHA-256

The digest of a text, over its bytes of UTF-8, as the standard defines it: the message is padded
to blocks of 64 bytes, each block is expanded to a schedule of 64 words, and 64 rounds mix the
schedule into eight words of state.
-/

namespace CodeAtlas.Text.Sha256

/-- The round constants. -/
def roundConstants : List UInt32 := [
  0x428a2f98, 0x71374491, 0xb5c0fbcf, 0xe9b5dba5, 0x3956c25b, 0x59f111f1, 0x923f82a4, 0xab1c5ed5,
  0xd807aa98, 0x12835b01, 0x243185be, 0x550c7dc3, 0x72be5d74, 0x80deb1fe, 0x9bdc06a7, 0xc19bf174,
  0xe49b69c1, 0xefbe4786, 0x0fc19dc6, 0x240ca1cc, 0x2de92c6f, 0x4a7484aa, 0x5cb0a9dc, 0x76f988da,
  0x983e5152, 0xa831c66d, 0xb00327c8, 0xbf597fc7, 0xc6e00bf3, 0xd5a79147, 0x06ca6351, 0x14292967,
  0x27b70a85, 0x2e1b2138, 0x4d2c6dfc, 0x53380d13, 0x650a7354, 0x766a0abb, 0x81c2c92e, 0x92722c85,
  0xa2bfe8a1, 0xa81a664b, 0xc24b8b70, 0xc76c51a3, 0xd192e819, 0xd6990624, 0xf40e3585, 0x106aa070,
  0x19a4c116, 0x1e376c08, 0x2748774c, 0x34b0bcb5, 0x391c0cb3, 0x4ed8aa4a, 0x5b9cca4f, 0x682e6ff3,
  0x748f82ee, 0x78a5636f, 0x84c87814, 0x8cc70208, 0x90befffa, 0xa4506ceb, 0xbef9a3f7, 0xc67178f2]

/-- Eight words of state. -/
structure State where
  (a b c d e f g h : UInt32)

/-- The state before the first block. -/
def State.initial : State :=
  ⟨0x6a09e667, 0xbb67ae85, 0x3c6ef372, 0xa54ff53a, 0x510e527f, 0x9b05688c, 0x1f83d9ab, 0x5be0cd19⟩

/-- The words of a state in order. -/
def State.words (s : State) : List UInt32 := [s.a, s.b, s.c, s.d, s.e, s.f, s.g, s.h]

/-- Rotation to the right. -/
def rotr (x : UInt32) (n : UInt32) : UInt32 := (x >>> n) ||| (x <<< (32 - n))

/-- The message padded with a one bit, zeros and its length in bits, to whole blocks. -/
def pad (message : List UInt8) : List UInt8 :=
  let zeros := (119 - message.length % 64) % 64
  let bits := message.length * 8
  let lengthBytes := (List.range 8).map (fun i => UInt8.ofNat (bits >>> (8 * (7 - i))))
  message ++ 0x80 :: (List.replicate zeros 0 ++ lengthBytes)

/-- Four bytes as a word, the highest byte first. -/
def wordsOfBytes : List UInt8 → List UInt32
  | p :: q :: r :: s :: rest =>
    (p.toUInt32 <<< 24 ||| q.toUInt32 <<< 16 ||| r.toUInt32 <<< 8 ||| s.toUInt32) ::
      wordsOfBytes rest
  | _ => []

/-- Adds `n` words to a schedule, which is given last word first. -/
def extendSchedule : Nat → List UInt32 → List UInt32
  | 0, ws => ws
  | n + 1, ws =>
    let past (i : Nat) : UInt32 := ws.getD i 0
    let s0 := rotr (past 14) 7 ^^^ rotr (past 14) 18 ^^^ (past 14 >>> 3)
    let s1 := rotr (past 1) 17 ^^^ rotr (past 1) 19 ^^^ (past 1 >>> 10)
    extendSchedule n ((past 15 + s0 + past 6 + s1) :: ws)

/-- One round with the sum of its constant and its word of the schedule. -/
def round (s : State) (kw : UInt32) : State :=
  let s1 := rotr s.e 6 ^^^ rotr s.e 11 ^^^ rotr s.e 25
  let ch := (s.e &&& s.f) ^^^ (~~~s.e &&& s.g)
  let t1 := s.h + s1 + ch + kw
  let s0 := rotr s.a 2 ^^^ rotr s.a 13 ^^^ rotr s.a 22
  let maj := (s.a &&& s.b) ^^^ (s.a &&& s.c) ^^^ (s.b &&& s.c)
  ⟨t1 + (s0 + maj), s.a, s.b, s.c, s.d + t1, s.e, s.f, s.g⟩

/-- The state after one block of 16 words. -/
def compress (s : State) (block : List UInt32) : State :=
  let schedule := (extendSchedule 48 block.reverse).reverse
  let t := (List.zipWith (· + ·) roundConstants schedule).foldl round s
  ⟨s.a + t.a, s.b + t.b, s.c + t.c, s.d + t.d, s.e + t.e, s.f + t.f, s.g + t.g, s.h + t.h⟩

/-- The state after `n` blocks of the words. -/
def compressBlocks : Nat → State → List UInt32 → State
  | 0, s, _ => s
  | n + 1, s, words => compressBlocks n (compress s (words.take 16)) (words.drop 16)

/-- The digest of a message as eight words. -/
def digest (message : List UInt8) : List UInt32 :=
  let padded := pad message
  (compressBlocks (padded.length / 64) .initial (wordsOfBytes padded)).words

/-- A word as eight hexadecimal digits. -/
def hexWord (w : UInt32) : List Char :=
  (List.range 8).map (fun i => Nat.digitChar ((w.toNat >>> (4 * (7 - i))) % 16))

/-- The digest of a text as 64 hexadecimal digits. -/
def hex (text : String) : String :=
  String.ofList ((digest (Utf8.encode text)).flatMap hexWord)

end CodeAtlas.Text.Sha256
