import LookingGlass.Foundations.Octets
import LookingGlass.Foundations.Utf16

/-!
# Text forms of addresses and address ranges

The canonical written forms: a dotted quad without leading zeros, the forms of RFC 4291 for IPv6
(eight groups of one to four hex digits, one `::` for a run of zero groups, optionally a dotted quad
in place of the last two groups), and `address/length` for a range. Readers in the wild accept more
than these; every one of them accepts these, and reads them as below.

Results are byte strings, so one type serves both families: four bytes or sixteen.

## What is deliberately absent

There is no liberal reading here: no octal or hexadecimal parts, no numeral for a whole address, no
scope after a `%`. A program that reads addresses with a platform's own function accepts such texts
too, and what the platform makes of them is that program's business; it is modelled beside the
program and not here. What is here is the part on which everybody agrees, and which a configuration
file or a list of ranges is written in.

Nor is there a choice of how an address is printed beyond the dotted quad. The text of an IPv6
address is not unique, and which of its spellings a platform prefers is no fact about addresses.

## Reading is total on what is printed

Every reader returns an `Option` and refuses whatever is not of its form: the bounds on the length
of a part come before its value, so a long run of digits is refused and never reduced to what fits
into a byte.

## Main definitions

* `AddressText.decimal`, `AddressText.dottedQuad` — printing
* `AddressText.parseDottedQuad`, `AddressText.parseIpv6`, `AddressText.parseCidr` — reading
-/

namespace AddressText

open Utf16

/-- The decimal digits of a number. -/
def decimal (n : ℕ) : Str := (Nat.toDigits 10 n).map ofChar

/-- The lower-case hex digits of a number. -/
def hex (n : ℕ) : Str := (Nat.toDigits 16 n).map ofChar

/-- The number that a run of decimal digits denotes, with no bound on its length; the callers check
beforehand that these are digits. -/
def decimalValue (s : Str) : ℕ := s.foldl (fun acc c => 10 * acc + (c.toNat - 0x30)) 0

/-- The value of a hex digit of either case. -/
def hexDigit? (c : Char16) : Option ℕ :=
  if isDigit c then some (c.toNat - 0x30)
  else if 0x61 ≤ c && c ≤ 0x66 then some (c.toNat - 0x61 + 10)
  else if 0x41 ≤ c && c ≤ 0x46 then some (c.toNat - 0x41 + 10)
  else none

/-! ### Dotted quads

Four parts in decimal. A part of more than one digit must not begin with a zero: the readers that
take such a part for octal and those that do not disagree about it, so it is not canonical. -/

/-- Four bytes as `a.b.c.d`. -/
def dottedQuad (a b c d : UInt8) : Str :=
  join "." [decimal a.toNat, decimal b.toNat, decimal c.toNat, decimal d.toNat]

/-- A byte: one to three digits, no leading zero, at most 255. -/
def parseOctet (s : Str) : Option UInt8 :=
  if 1 ≤ s.length ∧ s.length ≤ 3 ∧ s.all isDigit ∧ (s.length = 1 ∨ s.head? ≠ some (ofChar '0')) ∧
      decimalValue s ≤ 255 then
    some (decimalValue s).toUInt8
  else none

/-- A dotted quad, as its four bytes. -/
def parseDottedQuad (s : Str) : Option (List UInt8) :=
  match split '.' s with
  | [a, b, c, d] => [a, b, c, d].mapM parseOctet
  | _ => none

/-! ### RFC 4291

The text is cut at the first `::`, if there is one. The groups on either side are then read on their
own, and zero bytes fill up what is missing between them; a dotted quad may stand last, on the right
side only. -/

/-- A group of one to four hex digits, as its two bytes. -/
def parseGroup (s : Str) : Option (List UInt8) :=
  if 1 ≤ s.length ∧ s.length ≤ 4 then do
    let digits ← s.mapM hexDigit?
    let value := digits.foldl (fun acc d => 16 * acc + d) 0
    return [(value / 256).toUInt8, (value % 256).toUInt8]
  else none

/-- Colon-separated groups; the last one may be a dotted quad where `quad` allows it, and then it
counts for two groups, four bytes. -/
def parseGroups (quad : Bool) : List Str → Option (List UInt8)
  | [] => some []
  | [last] => parseGroup last <|> if quad then parseDottedQuad last else none
  | group :: groups => do return (← parseGroup group) ++ (← parseGroups quad groups)

/-- One side of a `::`, which may be empty: the whole address may be zeros from its beginning or to
its end. -/
def parseSide (quad : Bool) (s : Str) : Option (List UInt8) :=
  if s = [] then some [] else parseGroups quad (split ':' s)

/-- The texts before and after the first `::`. A second one is left in the text after it, where no
group can be read from it. -/
def splitDoubleColon : Str → Option (Str × Str)
  | [] => none
  | [_] => none
  | c :: d :: rest =>
    if c = ':' ∧ d = ':' then some ([], rest)
    else (splitDoubleColon (d :: rest)).map fun (l, r) => (c :: l, r)

/-- An IPv6 address in a form of RFC 4291, as its sixteen bytes. -/
def parseIpv6 (s : Str) : Option (List UInt8) :=
  match splitDoubleColon s with
  | none => do
    let bytes ← parseGroups true (split ':' s)
    if bytes.length = 16 then return bytes else none
  | some (l, r) => do
    let left ← parseSide false l
    let right ← parseSide true r
    if left.length + right.length ≤ 14 then
      return left ++ List.replicate (16 - left.length - right.length) 0 ++ right
    else none

/-! ### Ranges

A range is an address and the number of leading bits that count. Bits behind them must be zero, so
every range has one spelling of its base address. -/

/-- An address of either family, as its bytes; how many there are says which family it is. -/
def parseAddress (s : Str) : Option (List UInt8) := parseDottedQuad s <|> parseIpv6 s

/-- `address/length`, where no bit of the address is set past the first `length` bits. -/
def parseCidr (s : Str) : Option (List UInt8 × ℕ) :=
  match split '/' s with
  | [address, length] => do
    let bytes ← parseAddress address
    let len := decimalValue length
    if length ≠ [] ∧ length.all isDigit ∧ length.length ≤ 3 ∧ len ≤ 8 * bytes.length ∧
        Octets.bigEndian bytes % 2 ^ (8 * bytes.length - len) = 0 then
      return (bytes, len)
    else none
  | _ => none

end AddressText
