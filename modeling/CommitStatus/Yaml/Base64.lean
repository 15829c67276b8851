/-!
# Octets in base 64

Four letters stand for three octets. Characters that are no letters are skipped; two letters or more and equals signs
up to four make a last group of one or two octets, behind which nothing is read.

* `Base64.decode?` reads octets; it gives nothing when letters of a last group are missing.
-/

namespace CommitStatus.Yaml.Base64

/-- The value of a letter. -/
def letter? (c : Char) : Option Nat :=
  if 'A' ≤ c && c ≤ 'Z' then some (c.toNat - 65)
  else if 'a' ≤ c && c ≤ 'z' then some (c.toNat - 71)
  else if c.isDigit then some (c.toNat + 4)
  else if c == '+' then some 62
  else if c == '/' then some 63
  else none

/-- The octets of the letters of a group that are complete. -/
def groupOctets : List Nat → List UInt8
  | [a, b] => [UInt8.ofNat (a * 4 + b / 16)]
  | [a, b, c] => [UInt8.ofNat (a * 4 + b / 16), UInt8.ofNat (b % 16 * 16 + c / 4)]
  | [a, b, c, d] => [UInt8.ofNat (a * 4 + b / 16), UInt8.ofNat (b % 16 * 16 + c / 4), UInt8.ofNat (c % 4 * 64 + d)]
  | _ => []

/-- Read octets, with the letters of the group that is open, the equals signs behind its last letter, and the octets so
far in reverse order. -/
def decodeFrom : List Nat → Nat → List UInt8 → List Char → Option (List UInt8)
  | group, _, acc, [] => if group.isEmpty then some acc.reverse else none
  | group, signs, acc, c :: rest =>
    if c == '=' then
      if 2 ≤ group.length && 4 ≤ group.length + signs + 1 then some (acc.reverse ++ groupOctets group)
      else decodeFrom group (if 2 ≤ group.length then signs + 1 else signs) acc rest
    else match letter? c with
      | none => decodeFrom group signs acc rest
      | some n =>
        if group.length = 3 then decodeFrom [] 0 ((groupOctets (group ++ [n])).reverse ++ acc) rest
        else decodeFrom (group ++ [n]) 0 acc rest

/-- Read octets. -/
def decode? (s : List Char) : Option (List UInt8) := decodeFrom [] 0 [] s

end CommitStatus.Yaml.Base64
