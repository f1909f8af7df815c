import JvmTrace.Bytes.BigEndian

/-!
# UTF-8 and modified UTF-8 — the two ways a constant may spell a text

A class file writes text in *modified* UTF-8, which differs from the standard in two ways: the
character NUL takes two bytes (`C0 80`) instead of one, and a character above `U+FFFF` is written as
its two surrogates, three bytes each, instead of in four bytes. Many tools write the standard form
all the same, so a reader takes either: a run of bytes that is well-formed standard UTF-8 *as a
whole* is read as that, and only another one is read as modified. A text that mixes the two is
refused.

Both decoders accept shortest forms only, and they share the readers of two and of three bytes.
-/

set_option autoImplicit false

namespace JvmTrace.Text

/-! ## Sequences of bytes -/

/-- Whether `b` continues a sequence: its two top bits are `10`. -/
def isTail (b : UInt8) : Bool := 0x80 ≤ b.toNat && b.toNat < 0xC0

/-- The code point below `U+0800` that two bytes spell. A lead below `C2` would spell ASCII. -/
def pairCode (a b : UInt8) : Option Nat :=
  if 0xC2 ≤ a.toNat ∧ a.toNat < 0xE0 ∧ isTail b then
    some ((a.toNat - 0xC0) * 0x40 + (b.toNat - 0x80))
  else none

/-- The code point below `U+10000`, surrogates included, that three bytes spell. -/
def tripleCode (a b c : UInt8) : Option Nat :=
  if 0xE0 ≤ a.toNat ∧ a.toNat < 0xF0 ∧ isTail b ∧ isTail c then
    let n := (a.toNat - 0xE0) * 0x1000 + (b.toNat - 0x80) * 0x40 + (c.toNat - 0x80)
    if 0x800 ≤ n then some n else none
  else none

/-- The code point above `U+FFFF` that four bytes spell. -/
def quadCode (a b c d : UInt8) : Option Nat :=
  if 0xF0 ≤ a.toNat ∧ a.toNat < 0xF8 ∧ isTail b ∧ isTail c ∧ isTail d then
    let n := (a.toNat - 0xF0) * 0x40000 + (b.toNat - 0x80) * 0x1000 + (c.toNat - 0x80) * 0x40 +
      (d.toNat - 0x80)
    if 0x10000 ≤ n ∧ n < 0x110000 then some n else none
  else none

/-- The first half of a surrogate pair. -/
def isHighSurrogate (n : Nat) : Bool := 0xD800 ≤ n && n < 0xDC00

/-- The second half of a surrogate pair. -/
def isLowSurrogate (n : Nat) : Bool := 0xDC00 ≤ n && n < 0xE000

/-- Either half of a surrogate pair, which is no character by itself. -/
def isSurrogate (n : Nat) : Bool := 0xD800 ≤ n && n < 0xE000

/-- The code point that a surrogate pair stands for. -/
def joinSurrogates (high low : Nat) : Nat :=
  0x10000 + (high - 0xD800) * 0x400 + (low - 0xDC00)

/-! ## Standard UTF-8 -/

namespace Utf8

/-- The bytes of a text. -/
def encode (text : List Char) : Bytes := text.flatMap String.utf8EncodeChar

/-- Decodes the bytes ahead; `out` holds the characters already read, in reverse order. -/
def decodeFrom : (out : List Char) → Bytes → Option (List Char)
  | out, [] => some out.reverse
  | out, a :: rest =>
    if a.toNat < 0x80 then decodeFrom (Char.ofNat a.toNat :: out) rest
    else match rest with
    | [] => none
    | b :: rest =>
      match pairCode a b with
      | some n => decodeFrom (Char.ofNat n :: out) rest
      | none =>
        match rest with
        | [] => none
        | c :: rest =>
          match tripleCode a b c with
          | some n => if isSurrogate n then none else decodeFrom (Char.ofNat n :: out) rest
          | none =>
            match rest with
            | [] => none
            | d :: rest =>
              match quadCode a b c d with
              | some n => decodeFrom (Char.ofNat n :: out) rest
              | none => none

/-- The text of some bytes, unless they are not well formed. -/
def decode (bytes : Bytes) : Option (List Char) := decodeFrom [] bytes

end Utf8

/-! ## Modified UTF-8 -/

namespace ModifiedUtf8

/-- The three bytes of a code point from `U+0800` to `U+FFFF`, surrogates included. -/
def encodeTriple (n : Nat) : Bytes :=
  [UInt8.ofNat (0xE0 + n / 0x1000), UInt8.ofNat (0x80 + n / 0x40 % 0x40), UInt8.ofNat (0x80 + n % 0x40)]

/-- The bytes of a character. -/
def encodeChar (c : Char) : Bytes :=
  if c.toNat = 0 then [0xC0, 0x80]
  else if c.toNat < 0x10000 then String.utf8EncodeChar c
  else
    let n := c.toNat - 0x10000
    encodeTriple (0xD800 + n / 0x400) ++ encodeTriple (0xDC00 + n % 0x400)

/-- The bytes of a text. -/
def encode (text : List Char) : Bytes := text.flatMap encodeChar

/-- Decodes the bytes ahead; `out` holds the characters already read, in reverse order. -/
def decodeFrom : (out : List Char) → Bytes → Option (List Char)
  | out, [] => some out.reverse
  | out, a :: rest =>
    if a.toNat = 0 then none
    else if a.toNat < 0x80 then decodeFrom (Char.ofNat a.toNat :: out) rest
    else match rest with
    | [] => none
    | b :: rest =>
      if a.toNat = 0xC0 ∧ b.toNat = 0x80 then decodeFrom (Char.ofNat 0 :: out) rest
      else match pairCode a b with
      | some n => decodeFrom (Char.ofNat n :: out) rest
      | none =>
        match rest with
        | [] => none
        | c :: rest =>
          match tripleCode a b c with
          | none => none
          | some n =>
            if isHighSurrogate n then
              match rest with
              | d :: e :: f :: rest =>
                match tripleCode d e f with
                | none => none
                | some m =>
                  if isLowSurrogate m then decodeFrom (Char.ofNat (joinSurrogates n m) :: out) rest
                  else none
              | _ => none
            else if isLowSurrogate n then none
            else decodeFrom (Char.ofNat n :: out) rest

/-- The text of some bytes, unless they are not well formed. -/
def decode (bytes : Bytes) : Option (List Char) := decodeFrom [] bytes

end ModifiedUtf8

/-! ## Either -/

/-- The text of a constant: standard UTF-8 if the bytes are that as a whole, and modified UTF-8
otherwise. -/
def decode (bytes : Bytes) : Option String :=
  match Utf8.decode bytes with
  | some text => some (String.ofList text)
  | none => (ModifiedUtf8.decode bytes).map String.ofList

end JvmTrace.Text
