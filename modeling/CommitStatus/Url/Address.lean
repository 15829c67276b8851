import CommitStatus.Text.Split

/-!
# Addresses in brackets

A host in brackets is an address of version 6, with a zone behind a percent sign if need be, or an address of a later
version, which says its version.

* `Address.isVersion4`, `Address.isVersion6` and `Address.isLater` accept the three forms.
-/

namespace CommitStatus.Url.Address

open Text

/-- A hexadecimal digit. -/
def isHex (c : Char) : Bool := c.isDigit || ('a' ≤ c && c ≤ 'f') || ('A' ≤ c && c ≤ 'F')

/-- One of the four numbers of an address of version 4: at most 255, and without a zero in front. -/
def isOctet (s : List Char) : Bool :=
  !s.isEmpty && s.length ≤ 3 && s.all Char.isDigit && !(s.head? == some '0' && s != ['0']) &&
    s.foldl (fun n c => n * 10 + (c.toNat - 48)) 0 ≤ 255

/-- An address of version 4. -/
def isVersion4 (s : List Char) : Bool :=
  let parts := pieces '.' s
  parts.length == 4 && parts.all isOctet

/-- One group of an address of version 6. -/
def isGroup (s : List Char) : Bool := !s.isEmpty && s.length ≤ 4 && s.all isHex

/-- The groups with one gap for any number of zero groups, given as the groups before and behind it. A text begins or
ends with a colon only at the gap. -/
def isGapped (before behind : List (List Char)) : Bool :=
  let before := if before == [[]] then [] else before
  let behind := if behind == [[]] then [] else behind
  before.all isGroup && behind.all isGroup && before.length + behind.length < 8

/-- The groups of an address of version 6. An empty group that is neither the first nor the last is a gap. -/
def areGroups : List (List Char) → Bool
  | [] => false
  | first :: rest =>
    if rest.length < 2 then false
    else
      let inner := rest.dropLast
      if inner.contains [] then
        isGapped (first :: inner.takeWhile (· != [])) ((inner.dropWhile (· != [])).drop 1 ++ [rest.getLast?.getD []])
      else rest.length == 7 && (first :: rest).all isGroup

/-- The last group may be an address of version 4, which stands for two groups. -/
def isUnzoned (s : List Char) : Bool :=
  let parts := pieces ':' s
  let last := parts.getLast?.getD []
  if last.contains '.' then
    3 ≤ parts.length && isVersion4 last && areGroups (parts.dropLast ++ [['0'], ['0']])
  else areGroups parts

/-- An address of version 6. Its zone is not empty and holds no percent sign. -/
def isVersion6 (s : List Char) : Bool :=
  match after? '%' s with
  | none => isUnzoned s
  | some zone => !zone.isEmpty && !zone.contains '%' && isUnzoned (before '%' s)

/-- An address of a later version: the letter v, the version, a point and anything but nothing. -/
def isLater : List Char → Bool
  | 'v' :: rest =>
    match after? '.' rest with
    | none => false
    | some address => !(before '.' rest).isEmpty && (before '.' rest).all isHex && !address.isEmpty
  | _ => false

/-- A host that may stand in brackets. -/
def isBracketed (host : List Char) : Bool :=
  if host.head? == some 'v' then isLater host else isVersion6 host

end CommitStatus.Url.Address
