/-!
# Decoding UTF-8

Bytes are text if they are well-formed UTF-8. Where they are not, the error tells how many bytes
are well formed and how long the broken sequence is; a sequence that the end of the input cuts
off has no length.
-/

namespace CodeAtlas.Text

/-- Why bytes are not text. -/
inductive Utf8Error where
  /-- A byte cannot stand where it does: `validBytes` bytes before the sequence are well formed,
  and `length` bytes of it are unusable. -/
  | invalid (length validBytes : Nat)
  /-- The input ends inside a sequence that starts behind `validBytes` well-formed bytes. -/
  | incomplete (validBytes : Nat)
  deriving DecidableEq, Repr

namespace Utf8Error

/-- The wording of the error. -/
def message : Utf8Error → String
  | invalid length validBytes =>
    s!"invalid utf-8 sequence of {length} bytes from index {validBytes}"
  | incomplete validBytes => s!"incomplete utf-8 byte sequence from index {validBytes}"

/-- The number of well-formed bytes in front. -/
def validBytes : Utf8Error → Nat
  | invalid _ n | incomplete n => n

end Utf8Error

namespace Utf8

/-- Whether `b` continues a sequence. -/
def isContinuation (b : UInt8) : Bool := 0x80 ≤ b && b ≤ 0xBF

/-- The six bits that a continuation byte contributes. -/
def payload (b : UInt8) : Nat := b.toNat % 64

/-- Whether `b` may follow the first byte `lead` of a sequence of three. -/
def secondOfThree (lead b : UInt8) : Bool :=
  if lead == 0xE0 then 0xA0 ≤ b && b ≤ 0xBF
  else if lead == 0xED then 0x80 ≤ b && b ≤ 0x9F
  else isContinuation b

/-- Whether `b` may follow the first byte `lead` of a sequence of four. -/
def secondOfFour (lead b : UInt8) : Bool :=
  if lead == 0xF0 then 0x90 ≤ b && b ≤ 0xBF
  else if lead == 0xF4 then 0x80 ≤ b && b ≤ 0x8F
  else isContinuation b

/-- Decodes the bytes behind `done` well-formed ones whose characters are `acc`, last one first. -/
def decodeFrom (done : Nat) (acc : List Char) : List UInt8 → Except Utf8Error (List Char)
  | [] => .ok acc.reverse
  | b :: rest =>
    if b < 0x80 then decodeFrom (done + 1) (Char.ofNat b.toNat :: acc) rest
    else if 0xC2 ≤ b && b ≤ 0xDF then
      match rest with
      | [] => .error (.incomplete done)
      | c :: rest =>
        if isContinuation c then
          decodeFrom (done + 2) (Char.ofNat (b.toNat % 32 * 64 + payload c) :: acc) rest
        else .error (.invalid 1 done)
    else if 0xE0 ≤ b && b ≤ 0xEF then
      match rest with
      | [] => .error (.incomplete done)
      | c :: rest =>
        if secondOfThree b c then
          match rest with
          | [] => .error (.incomplete done)
          | d :: rest =>
            if isContinuation d then
              decodeFrom (done + 3)
                (Char.ofNat ((b.toNat % 16 * 64 + payload c) * 64 + payload d) :: acc) rest
            else .error (.invalid 2 done)
        else .error (.invalid 1 done)
    else if 0xF0 ≤ b && b ≤ 0xF4 then
      match rest with
      | [] => .error (.incomplete done)
      | c :: rest =>
        if secondOfFour b c then
          match rest with
          | [] => .error (.incomplete done)
          | d :: rest =>
            if isContinuation d then
              match rest with
              | [] => .error (.incomplete done)
              | e :: rest =>
                if isContinuation e then
                  decodeFrom (done + 4)
                    (Char.ofNat (((b.toNat % 8 * 64 + payload c) * 64 + payload d) * 64 + payload e)
                      :: acc) rest
                else .error (.invalid 3 done)
            else .error (.invalid 2 done)
        else .error (.invalid 1 done)
    else .error (.invalid 1 done)

/-- The characters that bytes stand for. -/
def decode (bytes : List UInt8) : Except Utf8Error (List Char) := decodeFrom 0 [] bytes

/-- The bytes of a text. -/
def encode (text : String) : List UInt8 := text.toUTF8.toList

/-- A surrogate is refused at its second byte. -/
example : decode [0x61, 0xED, 0xA0, 0x80] = .error (.invalid 1 1) := by rfl

/-- A sequence that the input cuts off has no length. -/
example : decode [0xF0, 0x9F, 0x98] = .error (.incomplete 0) := by rfl

end Utf8

end CodeAtlas.Text
