import CommitStatus.Text.LowerCase
import CommitStatus.Url.Address

/-!
# The parts of a URL

A URL is read after the controls and spaces in front of it, and all tabs and line ends, are dropped. A scheme ends at
the first colon; two slashes behind it begin the authority, which ends at the next slash, question mark or number sign
and holds the host behind the last at sign, with a port behind the next colon.

* `Url.scheme?`, `Url.authority?` and `Url.Authority.read?` give the parts;
* `Url.port?` reads a port.
-/

namespace CommitStatus.Url

open Text

/-- Drop what is not read: controls and spaces in front, tabs and line ends everywhere. -/
def clean (s : List Char) : List Char :=
  (s.dropWhile (·.toNat ≤ 0x20)).filter fun c => !(c == '\t' || c == '\n' || c == '\r')

/-- A character of a scheme. -/
def isSchemeChar (c : Char) : Bool := c.isAlphanum || c == '+' || c == '-' || c == '.'

/-- The scheme and what stands behind its colon. A scheme begins with a letter. -/
def scheme? (s : List Char) : Option (List Char × List Char) :=
  match s, after? ':' s with
  | c :: _, some rest => if c.isAlpha && (before ':' s).all isSchemeChar then some (before ':' s, rest) else none
  | _, _ => none

/-- A character that ends the authority. -/
def endsAuthority (c : Char) : Bool := c == '/' || c == '?' || c == '#'

/-- The authority of what stands behind the scheme. -/
def authority? : List Char → Option (List Char)
  | '/' :: '/' :: rest => some (rest.takeWhile fun c => !endsAuthority c)
  | _ => none

/-- Characters whose compatibility form holds a mark that parts a URL. -/
def hiddenMarks : List Nat := [
  0x2047, 0x2048, 0x2049, 0x2100, 0x2101, 0x2105, 0x2106, 0x2A74, 0xFE13, 0xFE16, 0xFE55, 0xFE56, 0xFE5F, 0xFE6B,
  0xFF03, 0xFF0F, 0xFF1A, 0xFF1F, 0xFF20]

/-- Whether brackets stand only around a host that may be in them. -/
def bracketsFit (authority : List Char) : Bool :=
  let opened := authority.contains '['
  let closed := authority.contains ']'
  if opened != closed then false
  else if !opened then true
  else
    let place := afterLast '@' authority
    match after? '[' place with
    | none => Address.isBracketed (before ':' place)
    | some inside =>
      let behind := (after? ']' inside).getD []
      (before '[' place).isEmpty && (behind.isEmpty || behind.head? == some ':') &&
        Address.isBracketed (before ']' inside)

/-- A host and the text of its port. -/
structure Authority where
  host : List Char
  port : List Char
  deriving DecidableEq, Repr

/-- A host is compared in lower case, but for a zone. -/
def lowerHost (host : List Char) : List Char :=
  match after? '%' host with
  | none => lower host
  | some zone => lower (before '%' host) ++ '%' :: zone

/-- The host and port of an authority. -/
def Authority.ofText (authority : List Char) : Authority :=
  let place := afterLast '@' authority
  match after? '[' place with
  | some inside => ⟨lowerHost (before ']' inside), (after? ':' ((after? ']' inside).getD [])).getD []⟩
  | none => ⟨lowerHost (before ':' place), (after? ':' place).getD []⟩

/-- Read the host and port of an authority without hidden marks and with its brackets in place. -/
def Authority.read? (authority : List Char) : Option Authority :=
  if bracketsFit authority && !authority.any (fun c => hiddenMarks.contains c.toNat) then
    some (Authority.ofText authority)
  else none

/-- The most digits of a port that are read. -/
def maxPortDigits : Nat := 4300

/-- Whether the text of a port is empty or a number of at most 65535. -/
def portFits (port : List Char) : Bool :=
  port.all Char.isDigit && port.length ≤ maxPortDigits && port.foldl (fun n c => n * 10 + (c.toNat - 48)) 0 ≤ 65535

end CommitStatus.Url
