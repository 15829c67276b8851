import CommitStatus.Datum.Moment
import CommitStatus.Text.Quoted

/-!
# Why a YAML text gives no data

Most texts that give no data break a rule of the format, and no more is said of them. Some scalars are well formed, but
what their tag calls for cannot be made of them; these have a name and a message.

* `Failure.name` and `Failure.message` word what is said.
-/

namespace CommitStatus.Yaml

/-- Why a text gives no data. -/
inductive Failure
  /-- A rule of the format is broken. -/
  | malformed
  /-- An escaped code point above the last one. -/
  | codePoint
  /-- An escaped code point above 31 bits. -/
  | codePointWidth
  | integer (e : Decimal.Integer.Misread)
  | number (text : String)
  /-- A number without digits. -/
  | noDigits
  | truth (word : String)
  /-- A text that is no moment. -/
  | noMoment
  /-- A mapping in place of a moment. -/
  | mappingAsMoment
  | calendar (e : CalendarError)
  /-- A number of so many parts that its first part is out of range. -/
  | tooManyParts
  deriving DecidableEq, Repr

/-- The name of a failure. -/
def Failure.name : Failure → String
  | .malformed => "YAMLError"
  | .codePoint => "ValueError"
  | .codePointWidth => "OverflowError"
  | .integer _ => "ValueError"
  | .number _ => "ValueError"
  | .noDigits => "IndexError"
  | .truth _ => "KeyError"
  | .noMoment => "AttributeError"
  | .mappingAsMoment => "TypeError"
  | .calendar _ => "ValueError"
  | .tooManyParts => "OverflowError"

/-- The wording of a failure. -/
def Failure.message : Failure → String
  | .malformed => ""
  | .codePoint => "chr() arg not in range(0x110000)"
  | .codePointWidth => "Python int too large to convert to C int"
  | .integer e => e.message
  | .number text => "could not convert string to float: " ++ Text.quoted text
  | .noDigits => "string index out of range"
  | .truth word => Text.quoted word
  | .noMoment => "'NoneType' object has no attribute 'groupdict'"
  | .mappingAsMoment => "expected string or bytes-like object, got 'list'"
  | .calendar e => e.message
  | .tooManyParts => "int too large to convert to float"

end CommitStatus.Yaml
