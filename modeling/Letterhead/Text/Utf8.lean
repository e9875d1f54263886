import Letterhead.Text.Basic

/-!
UTF-8, from bytes to text and back.

`decode` never fails: a byte outside every well-formed sequence is kept as a stray, and `encode`
writes a stray as the byte it stands for, so that encoding gives back the bytes that were decoded.
A surrogate that is no stray has no bytes.
-/

namespace Letterhead

abbrev Bytes := List UInt8

namespace Utf8

/-- The bounds of the second byte, which shut out overlong forms, surrogates and code points
above U+10FFFF. -/
def secondBounds (first : Nat) : Nat × Nat :=
  match first with
  | 0xE0 => (0xA0, 0xBF)
  | 0xED => (0x80, 0x9F)
  | 0xF0 => (0x90, 0xBF)
  | 0xF4 => (0x80, 0x8F)
  | _ => (0x80, 0xBF)

def isSecond (first : Nat) (b : UInt8) : Bool :=
  (secondBounds first).1 ≤ b.toNat && b.toNat ≤ (secondBounds first).2

def isTail (b : UInt8) : Bool := 0x80 ≤ b.toNat && b.toNat ≤ 0xBF

/-- The code point of the well-formed sequence that opens with this byte, and the number of bytes
that follow it in the sequence. -/
def sequence? (b : UInt8) (rest : Bytes) : Option (CodePoint × Nat) :=
  let n := b.toNat
  if n < 0x80 then some (⟨n⟩, 0)
  else if 0xC2 ≤ n ∧ n ≤ 0xDF then
    match rest with
    | b1 :: _ =>
      if isSecond n b1 then some (⟨(n - 0xC0) * 64 + (b1.toNat - 0x80)⟩, 1) else none
    | _ => none
  else if 0xE0 ≤ n ∧ n ≤ 0xEF then
    match rest with
    | b1 :: b2 :: _ =>
      if isSecond n b1 && isTail b2 then
        some (⟨(n - 0xE0) * 4096 + (b1.toNat - 0x80) * 64 + (b2.toNat - 0x80)⟩, 2)
      else none
    | _ => none
  else if 0xF0 ≤ n ∧ n ≤ 0xF4 then
    match rest with
    | b1 :: b2 :: b3 :: _ =>
      if isSecond n b1 && isTail b2 && isTail b3 then
        some (⟨(n - 0xF0) * 262144 + (b1.toNat - 0x80) * 4096 + (b2.toNat - 0x80) * 64
          + (b3.toNat - 0x80)⟩, 3)
      else none
    | _ => none
  else none

/-- The code point that carries a byte outside every sequence. -/
def stray (b : UInt8) : CodePoint := ⟨0xDC00 + b.toNat⟩

/-- Reads the bytes behind the first `skip` ones, which belong to a sequence already read. -/
def decodeFrom : (skip : Nat) → Bytes → Text
  | _, [] => []
  | skip + 1, _ :: rest => decodeFrom skip rest
  | 0, b :: rest =>
    match sequence? b rest with
    | some (c, skip) => c :: decodeFrom skip rest
    | none => stray b :: decodeFrom 0 rest

def decode (bs : Bytes) : Text := decodeFrom 0 bs

/-- The text of bytes that are well-formed as a whole. -/
def decode? (bs : Bytes) : Option Text :=
  let t := decode bs
  if t.any CodePoint.isStray then none else some t

/-- How many bytes after this one belong to the same beginning of a sequence, when no whole
sequence opens here. -/
def brokenTail (b : UInt8) (rest : Bytes) : Nat :=
  let n := b.toNat
  if 0xE0 ≤ n ∧ n ≤ 0xF4 then
    match rest with
    | b1 :: rest =>
      if isSecond n b1 then
        match rest with
        | b2 :: _ => if 0xF0 ≤ n && isTail b2 then 2 else 1
        | [] => 1
      else 0
    | [] => 0
  else 0

def decodeLossyFrom : (skip : Nat) → Bytes → Text
  | _, [] => []
  | skip + 1, _ :: rest => decodeLossyFrom skip rest
  | 0, b :: rest =>
    match sequence? b rest with
    | some (c, skip) => c :: decodeLossyFrom skip rest
    | none => ⟨0xFFFD⟩ :: decodeLossyFrom (brokenTail b rest) rest

/-- Reads each broken sequence as one U+FFFD. -/
def decodeLossy (bs : Bytes) : Text := decodeLossyFrom 0 bs

/-- The bytes of one code point. -/
def encodePoint (c : CodePoint) : Option Bytes :=
  let n := c.val
  if n < 0x80 then some [UInt8.ofNat n]
  else if n < 0x800 then some [UInt8.ofNat (0xC0 + n / 64), UInt8.ofNat (0x80 + n % 64)]
  else if c.isStray then some [UInt8.ofNat (n - 0xDC00)]
  else if c.isSurrogate then none
  else if n < 0x10000 then
    some [UInt8.ofNat (0xE0 + n / 4096), UInt8.ofNat (0x80 + n / 64 % 64),
      UInt8.ofNat (0x80 + n % 64)]
  else if n < 0x110000 then
    some [UInt8.ofNat (0xF0 + n / 262144), UInt8.ofNat (0x80 + n / 4096 % 64),
      UInt8.ofNat (0x80 + n / 64 % 64), UInt8.ofNat (0x80 + n % 64)]
  else none

/-- The bytes of a text, unless it has a surrogate that stands for no byte. -/
def encode : Text → Option Bytes
  | [] => some []
  | c :: t => do return (← encodePoint c) ++ (← encode t)

end Utf8

end Letterhead
