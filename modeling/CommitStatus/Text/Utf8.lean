/-!
# UTF-8

A reader of octets. Each character is one to four octets: the first octet gives the number of octets and the range of
the second, all later ones lie in 80 to BF. What cannot be read is described by its octets' positions and a reason.

* `Utf8.decode` reads octets, or says why it cannot;
* `Utf8.decode?` forgets the reason;
* `Utf8.Misread.message` words it.
-/

namespace CommitStatus.Text.Utf8

/-- Why octets cannot be read. -/
inductive Reason
  /-- No character starts with this octet. -/
  | start
  /-- A later octet of a character is out of its range. -/
  | continuation
  /-- The octets end within a character. -/
  | truncated
  deriving DecidableEq, Repr

/-- The first octets that cannot be read: the first of them, its position, their number, and why. -/
structure Misread where
  octet : UInt8
  position : Nat
  width : Nat
  reason : Reason
  deriving DecidableEq, Repr

/-- What the first octet of a longer character tells: the number of later octets, the bits it gives, and the range of
the second octet. -/
structure Lead where
  more : Nat
  bits : Nat
  low : Nat
  high : Nat
  deriving DecidableEq, Repr

/-- The lead of a character of two to four octets. -/
def lead? (b : Nat) : Option Lead :=
  if 0xC2 ≤ b && b ≤ 0xDF then some ⟨1, b - 0xC0, 0x80, 0xBF⟩
  else if b == 0xE0 then some ⟨2, 0, 0xA0, 0xBF⟩
  else if b == 0xED then some ⟨2, 0xD, 0x80, 0x9F⟩
  else if 0xE1 ≤ b && b ≤ 0xEF then some ⟨2, b - 0xE0, 0x80, 0xBF⟩
  else if b == 0xF0 then some ⟨3, 0, 0x90, 0xBF⟩
  else if 0xF1 ≤ b && b ≤ 0xF3 then some ⟨3, b - 0xF0, 0x80, 0xBF⟩
  else if b == 0xF4 then some ⟨3, 4, 0x80, 0x8F⟩
  else none

/-- Read `more` later octets, the first of them within `low` and `high`: the code point and the rest, or the number of
octets that did fit and why the next does not. -/
def later : Nat → Nat → Nat → Nat → List UInt8 → Except (Nat × Reason) (Nat × List UInt8)
  | 0, acc, _, _, rest => .ok (acc, rest)
  | _ + 1, _, _, _, [] => .error (0, .truncated)
  | more + 1, acc, low, high, b :: rest =>
    if low ≤ b.toNat && b.toNat ≤ high then
      match later more (acc * 64 + (b.toNat - 0x80)) 0x80 0xBF rest with
      | .ok r => .ok r
      | .error (n, why) => .error (n + 1, why)
    else .error (0, .continuation)

/-- One character at the head of octets at `position`, with the rest. -/
def next (position : Nat) (b : UInt8) (rest : List UInt8) : Except Misread (Char × List UInt8) :=
  if b.toNat < 0x80 then .ok (Char.ofNat b.toNat, rest)
  else match lead? b.toNat with
    | none => .error ⟨b, position, 1, .start⟩
    | some l =>
      match later l.more l.bits l.low l.high rest with
      | .ok (n, rest) => .ok (Char.ofNat n, rest)
      | .error (n, why) => .error ⟨b, position, n + 1, why⟩

/-- Read octets from `position` on, at most `fuel` characters. -/
def decodeFrom : Nat → Nat → List UInt8 → List Char → Except Misread (List Char)
  | _, _, [], acc => .ok acc.reverse
  | 0, _, _ :: _, acc => .ok acc.reverse
  | fuel + 1, position, b :: rest, acc =>
    match next position b rest with
    | .error e => .error e
    | .ok (c, rest) => decodeFrom fuel (position + c.utf8Size) rest (c :: acc)

/-- Read octets. A character takes one octet or more, so there are no more characters than octets. -/
def decode (bytes : List UInt8) : Except Misread (List Char) := decodeFrom bytes.length 0 bytes []

/-- Read octets, if they can be read. -/
def decode? (bytes : List UInt8) : Option (List Char) := (decode bytes).toOption

/-- The wording of a reason. -/
def Reason.text : Reason → String
  | .start => "invalid start byte"
  | .continuation => "invalid continuation byte"
  | .truncated => "unexpected end of data"

/-- An octet in two hexadecimal digits. -/
def octetText (b : UInt8) : String :=
  let digit (n : Nat) := if n < 10 then Char.ofNat (48 + n) else Char.ofNat (87 + n)
  "0x" ++ String.ofList [digit (b.toNat / 16), digit (b.toNat % 16)]

/-- The wording of a misreading: one octet is named, several are given by their positions. -/
def Misread.message (e : Misread) : String :=
  let place := if e.width == 1 then s!"byte {octetText e.octet} in position {e.position}"
    else s!"bytes in position {e.position}-{e.position + e.width - 1}"
  s!"'utf-8' codec can't decode {place}: {e.reason.text}"

/-- The octets of a character. -/
def encodeChar (c : Char) : List UInt8 :=
  let n := c.toNat
  let tail (k : Nat) := UInt8.ofNat (0x80 + n / Nat.pow 64 k % 64)
  if n < 0x80 then [UInt8.ofNat n]
  else if n < 0x800 then [UInt8.ofNat (0xC0 + n / 64), tail 0]
  else if n < 0x10000 then [UInt8.ofNat (0xE0 + n / 4096), tail 1, tail 0]
  else [UInt8.ofNat (0xF0 + n / 262144), tail 2, tail 1, tail 0]

/-- The octets of a text. -/
def encode (s : List Char) : List UInt8 := s.flatMap encodeChar

end CommitStatus.Text.Utf8
