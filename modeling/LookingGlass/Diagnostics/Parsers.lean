import LookingGlass.Contracts.JsonElement
import LookingGlass.Diagnostics.NativeProbeRunner
import LookingGlass.Foundations.Pattern
import LookingGlass.Foundations.Utf8

/-!
# The parsers of the tools' output

`ping` is read with three regular expressions, each of which searches the whole output. `traceroute`
is read line by line and each line token by token. `mtr` prints JSON.

Numbers in the output are read with `int.Parse` and `double.Parse`, which throw for what they do not
accept, or with `double.TryParse`, which accepts what is no finite number too. Only the parser of
`mtr` has a handler for exceptions.

## Regular expressions

Each expression of the source is written as a `Pattern`, next to its text, with the same groups in
the same order. The expressions of `ping` are searched for in the output; that of `traceroute` is
anchored, and is matched against one line.

## Where exceptions come from

`int.Parse` throws a `FormatException` for a digit of another script and an `OverflowException` for
an integer that is too large, and `double.Parse` a `FormatException` for a text with two points. The
indexers and accessors of JSON throw what they throw. None of this is caught by the parsers of
`ping` and `traceroute`; the parser of `mtr` reports four types of exceptions as output that could
not be understood.

## Main definitions

* `PingParser.parse`, `TracerouteParser.parse`, `MtrParser.parse` — as the code has them
* `parsers` — the three of them, as the probe runner is given them
-/

namespace LookingGlass

open Utf16

/-- `\s` -/
abbrev isSpace : Char16 → Bool := Runtime.isWhiteSpace

/-- `\d` -/
abbrev isDigitOfAny : Char16 → Bool := Numerals.isDecimalDigit

/-- `[\d.]` -/
def isDigitOrPoint (c : Char16) : Bool := isDigitOfAny c || c == ofChar '.'

/-- `.` -/
def isNoLineBreak (c : Char16) : Bool := c != 0x0a

theorem not_isSpace_of_isDigit {c : Char16} (h : isDigit c = true) : isSpace c = false := by
  simp only [isDigit, Bool.and_eq_true, decide_eq_true_eq, UInt16.le_iff_toNat_le] at h
  simp only [isSpace, Runtime.isWhiteSpace, Bool.or_eq_false_iff, Bool.and_eq_false_iff,
    decide_eq_false_iff_not, beq_eq_false_iff_ne, UInt16.le_iff_toNat_le, ne_eq, ← UInt16.toNat_inj,
    UInt16.reduceToNat] at h ⊢
  omega

theorem not_isSpace_int (x : Numerals.PlainInt) : ∀ c ∈ x.text, isSpace c = false :=
  fun c hc => not_isSpace_of_isDigit (x.isDigit_text c hc)

theorem not_isSpace_plain (x : Numerals.Plain) : ∀ c ∈ x.text, isSpace c = false := by
  intro c hc
  rcases Numerals.Plain.eq_or_isDigit_of_mem hc with rfl | hdigit
  · decide
  · exact not_isSpace_of_isDigit hdigit

/-- An ASCII digit is a digit for a regular expression. -/
theorem isDigitOfAny_of_isDigit {c : Char16} (h : isDigit c = true) : isDigitOfAny c = true := by
  rw [isDigitOfAny, Numerals.isDecimalDigit, Numerals.zeros, List.any_cons]
  exact Bool.or_eq_true_iff.mpr (.inl h)

namespace PingParser

open Pattern

/-- `icmp_seq=(\d+)(?:\s+ttl=(\d+))?\s+time[=<]([\d.]+)\s*ms` -/
def replyPattern : Pattern Char16 (Str × Option Str × Str) := do
  literal (ofString "icmp_seq=")
  let sequence ← many1 isDigitOfAny
  let ttl ← optional do
    let _ ← many1 isSpace
    literal (ofString "ttl=")
    many1 isDigitOfAny
  let _ ← many1 isSpace
  literal (ofString "time")
  let _ ← satisfy fun c => c == ofChar '=' || c == ofChar '<'
  let time ← many1 isDigitOrPoint
  let _ ← many isSpace
  literal (ofString "ms")
  return (sequence, ttl, time)

/-- `(\d+)\s+packets transmitted,\s+(\d+)\s+(?:packets\s+)?received.*?([\d.]+)%\s+packet loss` -/
def summaryPattern : Pattern Char16 (Str × Str × Str) := do
  let transmitted ← many1 isDigitOfAny
  let _ ← many1 isSpace
  literal (ofString "packets transmitted,")
  let _ ← many1 isSpace
  let received ← many1 isDigitOfAny
  let _ ← many1 isSpace
  let _ ← optional do
    literal (ofString "packets")
    many1 isSpace
  literal (ofString "received")
  let _ ← lazyMany isNoLineBreak
  let loss ← many1 isDigitOrPoint
  literal (ofString "%")
  let _ ← many1 isSpace
  literal (ofString "packet loss")
  return (transmitted, received, loss)

/-- `=\s*([\d.]+)/([\d.]+)/([\d.]+)(?:/([\d.]+))?\s*ms` -/
def rttPattern : Pattern Char16 (Str × Str × Str × Option Str) := do
  literal (ofString "=")
  let _ ← many isSpace
  let min ← many1 isDigitOrPoint
  literal (ofString "/")
  let avg ← many1 isDigitOrPoint
  literal (ofString "/")
  let max ← many1 isDigitOrPoint
  let dev ← optional do
    literal (ofString "/")
    many1 isDigitOrPoint
  let _ ← many isSpace
  literal (ofString "ms")
  return (min, avg, max, dev)

def number (value : Str) : Except Exn Double := Numerals.parseDouble value

/-- A group that may not have matched. -/
def optionally {α : Type} (read : Str → Except Exn α) : Option Str → Except Exn (Option α)
  | none => .ok none
  | some group => do return some (← read group)

def readReply (groups : Str × Option Str × Str) : Except Exn PingReply := do
  let sequence ← Numerals.parseInt groups.1
  let ttl ← optionally Numerals.parseInt groups.2.1
  let timeMs ← number groups.2.2
  return ⟨sequence, ttl, timeMs⟩

/-- The four statistics, or none of them. -/
def readRtt : Option (Str × Str × Str × Option Str) →
    Except Exn (Option Double × Option Double × Option Double × Option Double)
  | none => .ok (none, none, none, none)
  | some (min, avg, max, dev) => do
    let min ← number min
    let avg ← number avg
    let max ← number max
    let dev ← optionally number dev
    return (some min, some avg, some max, dev)

def parse (output : Str) : Except Exn (Option PingRaw) := do
  match search summaryPattern output with
  | none => return none
  | some ((transmitted, received, loss), _) =>
    let replies ← (findAll replyPattern output).mapM readReply
    let (min, avg, max, dev) ← readRtt ((search rttPattern output).map (·.1))
    let transmitted ← Numerals.parseInt transmitted
    let received ← Numerals.parseInt received
    let lossPercent ← number loss
    return some ⟨transmitted, received, lossPercent, min, avg, max, dev, replies⟩

/-- The groups of the summary, if there is one. -/
def summaryOf (output : Str) : Option (Str × Str × Str) :=
  (search summaryPattern output).map (·.1)

/-- The groups of the statistics, if there are any. -/
def rttOf (output : Str) : Option (Str × Str × Str × Option Str) :=
  (search rttPattern output).map (·.1)

section Parse

variable {output : Str}

theorem parse_of_none (h : summaryOf output = none) : parse output = .ok none := by
  have hsearch : search summaryPattern output = none := Option.map_eq_none_iff.mp h
  rw [parse, hsearch]
  rfl

/-- What a parse with a summary reads. -/
theorem parse_eq_ok_iff {transmitted received loss : Str}
    (h : summaryOf output = some (transmitted, received, loss)) {parsed : Option PingRaw} :
    parse output = .ok parsed ↔
      ∃ replies, (findAll replyPattern output).mapM readReply = .ok replies ∧
      ∃ min avg max dev, readRtt (rttOf output) = .ok (min, avg, max, dev) ∧
      ∃ t, Numerals.parseInt transmitted = .ok t ∧ ∃ r, Numerals.parseInt received = .ok r ∧
      ∃ l, number loss = .ok l ∧ parsed = some ⟨t, r, l, min, avg, max, dev, replies⟩ := by
  obtain ⟨⟨_, rest⟩, hsearch, rfl⟩ := Option.map_eq_some_iff.mp h
  rw [parse, hsearch]
  simp only [Except.bind_eq_ok, Prod.exists, pure, Except.pure, Except.ok.injEq, rttOf,
    eq_comm (b := parsed)]

end Parse

end PingParser

namespace TracerouteParser

open Pattern

/-- `^\s*(\d+)\s+(.*)$`, at the start of a text. -/
def hopPattern : Pattern Char16 (Str × Str) := do
  let _ ← many isSpace
  let hop ← many1 isDigitOfAny
  let _ ← many1 isSpace
  let rest ← many isNoLineBreak
  endOfText 0x0a
  return (hop, rest)

/-- The address that answered first, with one more token. -/
def note (rt : Runtime) (address : Option IPAddress) (token : Str) : Option IPAddress :=
  if token.contains (ofChar '.') || token.contains (ofChar ':') then
    address.or (rt.tryParseAddress token)
  else address

/-- The loop over the tokens of a line. -/
def readTokens (rt : Runtime) (address : Option IPAddress) (rtts : List (Option Double)) :
    List Str → Option IPAddress × List (Option Double)
  | [] => (address, rtts)
  | [token] =>
    if token = "*" then (address, rtts ++ [none])
    else if token.head? = some (ofChar '!') then (address, rtts)
    else (note rt address token, rtts)
  | token :: next :: rest =>
    if token = "*" then readTokens rt address (rtts ++ [none]) (next :: rest)
    else if token.head? = some (ofChar '!') then readTokens rt address rtts (next :: rest)
    else
      match Numerals.tryParse false token with
      | some rtt =>
        if next = "ms" then readTokens rt address (rtts ++ [some rtt]) rest
        else readTokens rt (note rt address token) rtts (next :: rest)
      | none => readTokens rt (note rt address token) rtts (next :: rest)

section Tokens

variable {rt : Runtime} {address : Option IPAddress} {rtts : List (Option Double)} {token : Str}
  {rest : List Str}

theorem readTokens_star :
    readTokens rt address rtts ("*" :: rest) = readTokens rt address (rtts ++ [none]) rest := by
  cases rest with
  | nil => rw [readTokens, readTokens, if_pos rfl]
  | cons next rest => rw [readTokens, if_pos rfl]

theorem readTokens_mark (hstar : token ≠ "*") (hmark : token.head? = some (ofChar '!')) :
    readTokens rt address rtts (token :: rest) = readTokens rt address rtts rest := by
  cases rest with
  | nil => rw [readTokens, readTokens, if_neg hstar, if_pos hmark]
  | cons next rest => rw [readTokens, if_neg hstar, if_pos hmark]

theorem readTokens_time {rtt : Double} (hstar : token ≠ "*")
    (hmark : token.head? ≠ some (ofChar '!')) (hparse : Numerals.tryParse false token = some rtt) :
    readTokens rt address rtts (token :: ofString "ms" :: rest) =
      readTokens rt address (rtts ++ [some rtt]) rest := by
  rw [readTokens, if_neg hstar, if_neg hmark, hparse]
  exact if_pos rfl

/-- A token that is no time is looked at as an address. -/
theorem readTokens_note (hstar : token ≠ "*") (hmark : token.head? ≠ some (ofChar '!'))
    (htime : Numerals.tryParse false token = none ∨ rest.head? ≠ some (ofString "ms")) :
    readTokens rt address rtts (token :: rest) =
      readTokens rt (note rt address token) rtts rest := by
  cases rest with
  | nil => rw [readTokens, readTokens, if_neg hstar, if_neg hmark]
  | cons next rest =>
    rw [readTokens, if_neg hstar, if_neg hmark]
    cases hparse : Numerals.tryParse false token with
    | none => rfl
    | some rtt =>
      have hnext : next ≠ ofString "ms" := fun h =>
        htime.elim (fun hnone => absurd (hparse.symm.trans hnone) (by simp)) fun hms =>
          hms (by simp [h])
      exact if_neg hnext

end Tokens

/-- `Split` at blanks, without the empty pieces. -/
def tokens (rest : Str) : List Str := (split 0x20 rest).filter (· ≠ [])

/-- What a line adds to the hops. -/
def readLine (rt : Runtime) (line : Str) : Except Exn (Option TraceHopRaw) := do
  match (hopPattern (line.rdropWhile (· == 0x0d))).head? with
  | none => return none
  | some ((hop, rest), _) =>
    let hop ← Numerals.parseInt hop
    let (address, rtts) := readTokens rt none [] (tokens rest)
    return if rtts.length > 0 ∨ address.isSome then some ⟨hop, address, rtts⟩ else none

def parse (rt : Runtime) (output : Str) : Except Exn (List TraceHopRaw) := do
  let hops ← (split 0x0a output).mapM (readLine rt)
  return hops.reduceOption

end TracerouteParser

namespace MtrParser

open JsonElement

/-- The element as a number, if it is one or is text of one. -/
def readNumber (element : Json) : Except Exn (Option Double) :=
  match element with
  | .number _ => do return some (← getDouble element)
  | .string _ => do
    let text ← getString element
    return text.bind (Numerals.tryParse false)
  | _ => .ok none

/-- An `int` from a number. -/
def toInt (value : Double) : ℤ := value.truncate (-2 ^ 31) (2 ^ 31 - 1)

/-- The value of a `Nullable`. -/
def required (value : Option Double) : Except Exn Double := access value

def readCycles (report : Json) : Except Exn ℤ := do
  match ← access (report.tryGetProperty "mtr") with
  | none => return 0
  | some details =>
    match ← access (details.tryGetProperty "tests") with
    | none => return 0
    | some tests => return toInt (← required (← readNumber tests))

/-- A number of a hop that is only there if the hop responded. -/
def readIf (responded : Bool) (name : Str) (hub : Json) : Except Exn (Option Double) :=
  if responded then do readNumber (← getProperty name hub) else .ok none

def readHub (rt : Runtime) (index : ℕ) (hub : Json) : Except Exn MtrHopRaw := do
  let host ← getString (← getProperty "host" hub)
  let address := host.bind rt.tryParseAddress
  let sent := toInt ((← readNumber (← getProperty "Snt" hub)).getD 0)
  let responded := address.isSome
  let hop := toInt ((← readNumber (← getProperty "count" hub)).getD (.finite (index + 1)))
  let lossPercent := (← readNumber (← getProperty "Loss%" hub)).getD (.finite 100)
  let lastMs ← readIf responded "Last" hub
  let avgMs ← readIf responded "Avg" hub
  let bestMs ← readIf responded "Best" hub
  let worstMs ← readIf responded "Wrst" hub
  let stdDevMs ← readIf responded "StDev" hub
  return ⟨hop, address, lossPercent, sent, lastMs, avgMs, bestMs, worstMs, stdDevMs⟩

/-- `JsonDocument.Parse`. Text that cannot be encoded is an `ArgumentException`; `parseDocument`
reads any other text, with `none` for a `JsonException`. -/
def parseText (parseDocument : Str → Option Json) (json : Str) : Except Exn Json :=
  if Utf8.isWellFormed json then
    match parseDocument json with
    | some root => .ok root
    | none => .error .json
  else .error .other

def read (rt : Runtime) (parseDocument : Str → Option Json) (json : Str) : Except Exn MtrRaw := do
  let root ← parseText parseDocument json
  let report ← getProperty "report" root
  let cycles ← readCycles report
  let hubs ← enumerateArray (← getProperty "hubs" report)
  let hops ← (hubs.zipIdx).mapM fun (hub, index) => readHub rt index hub
  return ⟨if cycles > 0 then cycles else (hops.map (·.sent)).max?.getD 0, hops⟩

/-- The exceptions that are reported. -/
def IsReported (ex : Exn) : Prop :=
  ex = .json ∨ ex = .keyNotFound ∨ ex = .invalidOperation ∨ ex = .format

instance (ex : Exn) : Decidable (IsReported ex) := inferInstanceAs (Decidable (_ ∨ _ ∨ _ ∨ _))

def parse (rt : Runtime) (parseDocument : Str → Option Json) (json : Str) : Except Exn MtrRaw :=
  tryCatch (read rt parseDocument json) fun ex =>
    if IsReported ex then
      throw (LookingGlassException.failed
        "The diagnostic returned output that could not be understood.")
    else throw ex

end MtrParser

/-- The parsers of the three tools. -/
def parsers (rt : Runtime) (parseDocument : Str → Option Json) : Parsers where
  ping := PingParser.parse
  traceroute := TracerouteParser.parse rt
  mtr := MtrParser.parse rt parseDocument

end LookingGlass
