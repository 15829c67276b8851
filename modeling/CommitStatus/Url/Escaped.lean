import CommitStatus.Text.Utf8

/-!
# Escaped paths

In the path of a request only ASCII letters and digits, the marks `_ . - ~` and slashes stand for themselves. Every
other character is written by its octets, each as a percent sign and two hexadecimal digits.

* `Url.escaped` is the escaped form of a path.
-/

namespace CommitStatus.Url

/-- The characters that stand for themselves. -/
def isPlain (c : Char) : Bool := c.isAlphanum || ['_', '.', '-', '~', '/'].contains c

/-- A hexadecimal digit in upper case. -/
def upperHexDigit (n : Nat) : Char := if n < 10 then Char.ofNat (48 + n) else Char.ofNat (55 + n)

/-- An octet behind a percent sign. -/
def escapedOctet (b : UInt8) : List Char := ['%', upperHexDigit (b.toNat / 16), upperHexDigit (b.toNat % 16)]

/-- One character of a path. -/
def escapedChar (c : Char) : List Char :=
  if isPlain c then [c] else (Text.Utf8.encode [c]).flatMap escapedOctet

/-- A path with all other characters escaped. -/
def escaped (path : List Char) : List Char := path.flatMap escapedChar

end CommitStatus.Url
