import LookingGlass.Api.PrometheusClient
import LookingGlass.Foundations.Interleaving
import LookingGlass.Foundations.Spellings
import LookingGlass.Foundations.Transducer

/-!
# What Prometheus is asked

The queries are put together from fixed parts and from settings: the names of jobs and of a device
as labels, and a regular expression for devices. Each is then escaped and becomes a parameter of a
URI. Neither a setting nor the escaping is to change what is asked: Prometheus takes the URI apart,
undoes the escaping, and splits the query into tokens. What it then has is one of nine questions, in
which the settings are the values of labels and nothing else.

A setting is checked against a regular expression when the service starts. None permits a quotation
mark, a backslash or a line break.

## Whose reading this is

The repository builds queries and URIs and does not read them. So `readRequest` and `lex` are no
code of the repository: they say how a server reads what it is sent, by the documented rules of URL
queries and of PromQL, as far as these texts need them. A rule that no query can run into (comments,
escape sequences in a string, other quotation marks) is refused and not modelled, which makes the
reading stricter than the server's. What is read here is read by the server in the same way.

## How a text with unknown parts is read

The settings are unknown, so no query can be computed. Reading is therefore a transducer, and a
query is a concatenation: the fixed parts are read by computation, and a setting is read by a lemma
that says what it needs, that each of its characters stands for itself inside a string.

## Main definitions

* `PrometheusClient.unescape` — undoes the escaping
* `PromQl.lex` — the tokens of a query
* `TrafficService.questions` — the nine questions

## Main results

* `PrometheusClient.unescape_escapeDataString` — for any text
* `TrafficService.asked_of_runs` — for any settings that pass the check
-/

namespace LookingGlass

open Utf16 AddressText Transducer Interaction

namespace PrometheusClient

/-! ### The escaping

A byte is escaped unless it stands for itself. Undoing it is a transducer with three states. -/

/-- How far an escape sequence has been read: not at all, its percent sign, or one of its two
digits. -/
inductive Escape
  | plain
  | percent
  | high (digit : ℕ)

/-- One character of an escaped text; a plus sign is a blank. -/
def unescapeStep : Transducer Escape Char16 UInt8
  | .plain, c =>
    if c = ofChar '%' then some (.percent, [])
    else if c = ofChar '+' then some (.plain, [0x20])
    else if c ≤ 0x7f then some (.plain, [c.toUInt8])
    else none
  | .percent, c => (hexDigit? c).map fun digit => (.high digit, [])
  | .high digit, c => (hexDigit? c).map fun low => (.plain, [(16 * digit + low).toUInt8])

/-- The bytes that an escaped text stands for, if it is one. It must not end in the middle of an
escape sequence. -/
def unescape (text : Str) : Option (List UInt8) :=
  match run unescapeStep .plain text with
  | some (.plain, bytes) => some bytes
  | _ => none

/-- The code of one byte. -/
def escapeByte (b : UInt8) : Str :=
  if isUnreserved b then [b.toUInt16] else ofChar '%' :: TrafficService.toHexString [b]

theorem escapeDataString_eq (s : Str) :
    escapeDataString s = (Utf8.encode s).flatMap escapeByte := rfl

/-- A character that ends neither the path nor a parameter. -/
def isPlain (c : Char16) : Bool := c != ofChar '?' && c != ofChar '&' && c != ofChar '='

theorem hexDigit?_upper : ∀ k < 16, hexDigit? (asciiUpper (ofChar k.digitChar)) = some k := by
  decide

theorem toHexString_singleton (b : UInt8) :
    TrafficService.toHexString [b] =
      [asciiUpper (ofChar (b.toNat / 16).digitChar),
        asciiUpper (ofChar (b.toNat % 16).digitChar)] := by
  have hlt := b.toNat_lt
  rw [TrafficService.toHexString, List.flatMap_singleton, hex, hex,
    Nat.toDigits_of_lt_base (by omega), Nat.toDigits_of_lt_base (by omega)]
  rfl

/-- A byte that stands for itself is a character of ASCII, and none that means something else. -/
theorem isUnreserved_cases {b : UInt8} (h : isUnreserved b = true) :
    b.toUInt16 ≤ 0x7f ∧ b.toUInt16 ≠ ofChar '%' ∧ b.toUInt16 ≠ ofChar '+' ∧
      isPlain b.toUInt16 = true := by
  simp only [isUnreserved, isAlnum, isUpper, isLower, isDigit, Bool.or_eq_true, Bool.and_eq_true,
    decide_eq_true_eq, beq_iff_eq, ← UInt16.toNat_inj, UInt16.le_iff_toNat_le] at h
  have hpercent : (ofChar '%').toNat = 0x25 := by decide
  have hplus : (ofChar '+').toNat = 0x2b := by decide
  have hminus : (ofChar '-').toNat = 0x2d := by decide
  have hpoint : (ofChar '.').toNat = 0x2e := by decide
  have hline : (ofChar '_').toNat = 0x5f := by decide
  have htilde : (ofChar '~').toNat = 0x7e := by decide
  have hquestion : (ofChar '?').toNat = 0x3f := by decide
  have hand : (ofChar '&').toNat = 0x26 := by decide
  have hequals : (ofChar '=').toNat = 0x3d := by decide
  simp only [isPlain, Bool.and_eq_true, bne_iff_ne, ne_eq, ← UInt16.toNat_inj,
    UInt16.le_iff_toNat_le, UInt16.reduceToNat, hpercent, hplus, hminus, hpoint, hline, htilde,
    hquestion, hand, hequals] at h ⊢
  omega

theorem reads_escapeByte (b : UInt8) : Reads unescapeStep .plain (escapeByte b) .plain [b] := by
  have hlt := b.toNat_lt
  rw [escapeByte]
  split
  · next hunreserved =>
    obtain ⟨hascii, hpercent, hplus, -⟩ := isUnreserved_cases hunreserved
    have hstep : unescapeStep .plain b.toUInt16 = some (.plain, [b]) := by
      rw [unescapeStep, if_neg hpercent, if_neg hplus, if_pos hascii, UInt8.toUInt8_toUInt16]
    exact reads_cons hstep reads_nil
  · rw [toHexString_singleton]
    have hhigh : unescapeStep .percent (asciiUpper (ofChar (b.toNat / 16).digitChar)) =
        some (.high (b.toNat / 16), []) := by
      rw [unescapeStep, hexDigit?_upper _ (by omega)]
      rfl
    have hlow : unescapeStep (.high (b.toNat / 16))
        (asciiUpper (ofChar (b.toNat % 16).digitChar)) = some (.plain, [b]) := by
      rw [unescapeStep, hexDigit?_upper _ (by omega), Option.map_some, Nat.div_add_mod,
        Nat.toUInt8, UInt8.ofNat_toNat]
    have hpercent : unescapeStep .plain (ofChar '%') = some (.percent, []) := by
      rw [unescapeStep, if_pos rfl]
    exact reads_cons hpercent (reads_cons hhigh (reads_cons hlow reads_nil))

/-- **Escaping is undone**, for any text. -/
theorem unescape_escapeDataString (s : Str) :
    unescape (escapeDataString s) = some (Utf8.encode s) := by
  have hreads := reads_flatMap reads_escapeByte (Utf8.encode s)
  rw [unescape, escapeDataString_eq, show run unescapeStep .plain _ = _ from hreads]

/-! ### The request

What the server finds in the URI: a path, and parameters between ampersands, each a name and a
value. -/

/-- What the server finds in a URI: the four parameters of a query over a range, as bytes. -/
structure RangeQuery where
  query : List UInt8
  start : List UInt8
  stop : List UInt8
  step : List UInt8
  deriving DecidableEq

/-- The name and the value of a parameter. -/
def readParameter (text : Str) : Option (Str × List UInt8) := do
  let [name, value] := text.splitOn (ofChar '=') | none
  return (name, ← unescape value)

/-- What a server finds in a URI, by the documented rules of URL queries: a path, a question mark,
and parameters between ampersands. This is a reading of the text, and no code of the repository. -/
def readRequest (uri : Str) : Option RangeQuery := do
  let [path, parameters] := uri.splitOn (ofChar '?') | none
  let parameters ← (parameters.splitOn (ofChar '&')).mapM readParameter
  if path ≠ ofString "api/v1/query_range" then none
  else
    return {
      query := ← parameters.lookup (ofString "query")
      start := ← parameters.lookup (ofString "start")
      stop := ← parameters.lookup (ofString "end")
      step := ← parameters.lookup (ofString "step") }

theorem isPlain_upper : ∀ k < 16, isPlain (asciiUpper (ofChar k.digitChar)) = true := by
  decide

theorem isPlain_of_mem_escapeByte {b : UInt8} {c : Char16} (h : c ∈ escapeByte b) :
    isPlain c = true := by
  have hlt := b.toNat_lt
  rw [escapeByte] at h
  split at h
  · next hunreserved =>
    obtain rfl := List.mem_singleton.mp h
    exact (isUnreserved_cases hunreserved).2.2.2
  · rw [toHexString_singleton] at h
    simp only [List.mem_cons, List.not_mem_nil, or_false] at h
    rcases h with rfl | rfl | rfl
    · decide
    · exact isPlain_upper _ (by omega)
    · exact isPlain_upper _ (by omega)

theorem isPlain_escapeDataString (s : Str) : ∀ c ∈ escapeDataString s, isPlain c = true := by
  intro c hc
  obtain ⟨b, -, hb⟩ := List.mem_flatMap.mp (escapeDataString_eq s ▸ hc)
  exact isPlain_of_mem_escapeByte hb

theorem plain_of_digit {c : Char16} (h : isDigit c = true ∨ c = ofChar '-') :
    c ≤ 0x7f ∧ c ≠ ofChar '%' ∧ c ≠ ofChar '+' ∧ isPlain c = true := by
  rcases h with hdigit | rfl
  · obtain ⟨hle, hge⟩ := isDigit_iff_toNat.mp hdigit
    have hpercent : (ofChar '%').toNat = 0x25 := by decide
    have hplus : (ofChar '+').toNat = 0x2b := by decide
    have hquestion : (ofChar '?').toNat = 0x3f := by decide
    have hand : (ofChar '&').toNat = 0x26 := by decide
    have hequals : (ofChar '=').toNat = 0x3d := by decide
    simp only [isPlain, Bool.and_eq_true, bne_iff_ne, ne_eq, ← UInt16.toNat_inj,
      UInt16.le_iff_toNat_le, UInt16.reduceToNat, hpercent, hplus, hquestion, hand, hequals]
    omega
  · decide

theorem plain_of_mem_decimalInt {n : ℤ} {c : Char16} (h : c ∈ Double.decimalInt n) :
    c ≤ 0x7f ∧ c ≠ ofChar '%' ∧ c ≠ ofChar '+' ∧ isPlain c = true := by
  refine plain_of_digit ?_
  rw [Double.decimalInt] at h
  split at h
  · rcases List.mem_cons.mp h with rfl | h
    · exact .inr rfl
    · exact .inl (isDigit_of_mem_decimal h)
  · exact .inl (isDigit_of_mem_decimal h)

/-- What the server takes an integer for. -/
def integerBytes (n : ℤ) : List UInt8 := (Double.decimalInt n).map UInt16.toUInt8

theorem unescape_decimalInt (n : ℤ) : unescape (Double.decimalInt n) = some (integerBytes n) := by
  have hreads : Reads unescapeStep .plain (Double.decimalInt n) .plain (integerBytes n) := by
    refine reads_map fun c hc => ?_
    obtain ⟨hascii, hpercent, hplus, -⟩ := plain_of_mem_decimalInt hc
    rw [unescapeStep, if_neg hpercent, if_neg hplus, if_pos hascii]
  rw [unescape, show run unescapeStep .plain _ = _ from hreads]

def parameter (name value : Str) : Str := [ofChar '='].intercalate [name, value]

theorem parameter_eq (name value : Str) : parameter name value = name ++ ofChar '=' :: value := by
  simp [parameter, List.intercalate]

theorem requestUri_eq (query : Str) (start stop : DateTimeOffset) (stepSeconds : ℤ) :
    requestUri query start stop stepSeconds =
      [ofChar '?'].intercalate [ofString "api/v1/query_range", [ofChar '&'].intercalate
        [parameter (ofString "query") (escapeDataString query),
          parameter (ofString "start") (Double.decimalInt (toUnixTimeSeconds start)),
          parameter (ofString "end") (Double.decimalInt (toUnixTimeSeconds stop)),
          parameter (ofString "step") (Double.decimalInt stepSeconds)]] := by
  have hpath : ofString "api/v1/query_range?query=" =
      ofString "api/v1/query_range" ++ ofChar '?' :: (ofString "query" ++ [ofChar '=']) := by decide
  have hstart : ofString "&start=" = ofChar '&' :: (ofString "start" ++ [ofChar '=']) := by decide
  have hstop : ofString "&end=" = ofChar '&' :: (ofString "end" ++ [ofChar '=']) := by decide
  have hstep : ofString "&step=" = ofChar '&' :: (ofString "step" ++ [ofChar '=']) := by decide
  rw [requestUri, hpath, hstart, hstop, hstep]
  simp [parameter_eq, List.intercalate, List.append_assoc]

theorem isPlain_parameter {name value : Str} (hname : ∀ c ∈ name, isPlain c = true)
    (hvalue : ∀ c ∈ value, isPlain c = true) :
    (∀ c ∈ parameter name value, c ≠ ofChar '?' ∧ c ≠ ofChar '&') ∧
      (parameter name value).splitOn (ofChar '=') = [name, value] := by
  have hplain : ∀ c, isPlain c = true → c ≠ ofChar '?' ∧ c ≠ ofChar '&' ∧ c ≠ ofChar '=' := by
    intro c hc
    simpa [isPlain, and_assoc] using hc
  constructor
  · intro c hc
    rw [parameter_eq] at hc
    rcases List.mem_append.mp hc with hc | hc
    · exact ⟨(hplain c (hname c hc)).1, (hplain c (hname c hc)).2.1⟩
    · rcases List.mem_cons.mp hc with rfl | hc
      · decide
      · exact ⟨(hplain c (hvalue c hc)).1, (hplain c (hvalue c hc)).2.1⟩
  · refine List.splitOn_intercalate _ (fun part hpart hmem => ?_) (by simp)
    simp only [List.mem_cons, List.not_mem_nil, or_false] at hpart
    rcases hpart with rfl | rfl
    · exact (hplain _ (hname _ hmem)).2.2 rfl
    · exact (hplain _ (hvalue _ hmem)).2.2 rfl

theorem readParameter_parameter {name value : Str} {bytes : List UInt8}
    (hname : ∀ c ∈ name, isPlain c = true) (hvalue : ∀ c ∈ value, isPlain c = true)
    (hunescape : unescape value = some bytes) :
    readParameter (parameter name value) = some (name, bytes) := by
  rw [readParameter, (isPlain_parameter hname hvalue).2]
  simp [hunescape]

theorem mem_intercalate {separator : Str} {parts : List Str} {c : Char16}
    (h : c ∈ separator.intercalate parts) : c ∈ separator ∨ ∃ part ∈ parts, c ∈ part := by
  induction parts with
  | nil => simp at h
  | cons part parts ih =>
    cases parts with
    | nil => simpa using Or.inr h
    | cons next parts =>
      rw [List.intercalate_cons_cons, List.mem_append, List.mem_append] at h
      rcases h with (h | h) | h
      · exact .inr ⟨part, List.mem_cons_self .., h⟩
      · exact .inl h
      · exact (ih h).imp_right fun ⟨part', hpart, hc⟩ => ⟨part', List.mem_cons_of_mem _ hpart, hc⟩

/-- **The server finds in a URI what was put into it**, whatever the query is. -/
theorem readRequest_requestUri (query : Str) (start stop : DateTimeOffset) (stepSeconds : ℤ) :
    readRequest (requestUri query start stop stepSeconds) =
      some ⟨Utf8.encode query, integerBytes (toUnixTimeSeconds start),
        integerBytes (toUnixTimeSeconds stop), integerBytes stepSeconds⟩ := by
  have hquery : ∀ c ∈ ofString "query", isPlain c = true := by decide
  have hstart : ∀ c ∈ ofString "start", isPlain c = true := by decide
  have hstop : ∀ c ∈ ofString "end", isPlain c = true := by decide
  have hstep : ∀ c ∈ ofString "step", isPlain c = true := by decide
  have hinteger : ∀ n, ∀ c ∈ Double.decimalInt n, isPlain c = true :=
    fun n c hc => (plain_of_mem_decimalInt hc).2.2.2
  have hescaped := isPlain_escapeDataString query
  let parameters : List Str :=
    [parameter (ofString "query") (escapeDataString query),
      parameter (ofString "start") (Double.decimalInt (toUnixTimeSeconds start)),
      parameter (ofString "end") (Double.decimalInt (toUnixTimeSeconds stop)),
      parameter (ofString "step") (Double.decimalInt stepSeconds)]
  have hmembers : ∀ part ∈ parameters, ∀ c ∈ part, c ≠ ofChar '?' ∧ c ≠ ofChar '&' := by
    intro part hpart
    simp only [parameters, List.mem_cons, List.not_mem_nil, or_false] at hpart
    rcases hpart with rfl | rfl | rfl | rfl
    · exact (isPlain_parameter hquery hescaped).1
    · exact (isPlain_parameter hstart (hinteger _)).1
    · exact (isPlain_parameter hstop (hinteger _)).1
    · exact (isPlain_parameter hstep (hinteger _)).1
  have hparameters : ([ofChar '&'].intercalate parameters).splitOn (ofChar '&') = parameters :=
    List.splitOn_intercalate _ (fun part hpart hmem => (hmembers part hpart _ hmem).2 rfl)
      (by simp [parameters])
  have huri : (requestUri query start stop stepSeconds).splitOn (ofChar '?') =
      [ofString "api/v1/query_range", [ofChar '&'].intercalate parameters] := by
    rw [requestUri_eq]
    refine List.splitOn_intercalate _ (fun part hpart hmem => ?_) (by simp)
    simp only [List.mem_cons, List.not_mem_nil, or_false] at hpart
    rcases hpart with rfl | rfl
    · exact absurd hmem (by decide)
    · rcases mem_intercalate hmem with hmem | ⟨part, hpart, hmem⟩
      · exact absurd hmem (by decide)
      · exact (hmembers part hpart _ hmem).1 rfl
  rw [readRequest, huri]
  simp only [Option.pure_def, Option.bind_eq_bind, hparameters, parameters, List.mapM_cons,
    List.mapM_nil,
    readParameter_parameter hquery hescaped (unescape_escapeDataString query),
    readParameter_parameter hstart (hinteger _) (unescape_decimalInt _),
    readParameter_parameter hstop (hinteger _) (unescape_decimalInt _),
    readParameter_parameter hstep (hinteger _) (unescape_decimalInt _), Option.bind_some]
  rfl

end PrometheusClient

/-! ### Tokens

Words, strings and symbols. A string goes from one quotation mark to the next, so a setting with one
in it would end there. -/

namespace PromQl

/-- What a query consists of. Two queries with the same tokens are the same to the server, however
they are spaced. -/
inductive Token
  /-- A name, a number or a duration. -/
  | word (text : Str)
  | string (value : Str)
  | symbol (c : Char16)
  deriving DecidableEq

/-- What the characters so far are the beginning of. At the end of the text a string has to be
closed, and a word is one. -/
inductive Scan
  | between
  | word (text : Str)
  | string (value : Str)

def isWordChar (c : Char16) : Bool := isAlnum c || c == ofChar '_' || c == ofChar ':'

def symbols : Str := "()\x7b\x7d[],=~*"

/-- A character that nothing has been read before. -/
def start (c : Char16) : Option (Scan × List Token) :=
  if c = ofChar ' ' then some (.between, [])
  else if c = ofChar '"' then some (.string [], [])
  else if isWordChar c then some (.word [c], [])
  else if c ∈ symbols then some (.between, [.symbol c])
  else none

/-- One character of a query. A string has no escape sequences here, and no line breaks: a text with
either is refused. -/
def scan : Transducer Scan Char16 Token
  | .between, c => start c
  | .word text, c =>
    if isWordChar c then some (.word (text ++ [c]), [])
    else (start c).map fun next => (next.1, .word text :: next.2)
  | .string value, c =>
    if c = ofChar '"' then some (.between, [.string value])
    else if c = ofChar '\\' ∨ c = 0x0a then none
    else some (.string (value ++ [c]), [])

/-- The tokens of a query by the documented rules of PromQL, as far as the queries need them. This
is a reading of the text, and no code of the repository. -/
def lex (text : Str) : Option (List Token) :=
  match run scan .between text with
  | some (.between, tokens) => some tokens
  | some (.word last, tokens) => some (tokens ++ [.word last])
  | _ => none

/-- A character of a string that stands for itself. -/
def IsInert (c : Char16) : Prop := c ≤ 0x7f ∧ c ≠ ofChar '"' ∧ c ≠ ofChar '\\' ∧ c ≠ 0x0a

theorem reads_string {value : Str} (h : ∀ c ∈ value, IsInert c) :
    Reads scan (.string []) value (.string value) [] := by
  refine reads_collect Scan.string IsInert (fun taken c hc => ?_) h []
  rw [scan, if_neg hc.2.1, if_neg (not_or.mpr hc.2.2)]

/-- A character that belongs to no word ends one. -/
theorem reads_after_word {c : Char16} {word rest : Str} {s : Scan} {tokens : List Token}
    (hc : isWordChar c = false) (h : Reads scan .between (c :: rest) s tokens) :
    Reads scan (.word word) (c :: rest) s (.word word :: tokens) := by
  obtain ⟨next, hnext, hrest⟩ := Option.bind_eq_some_iff.mp h
  obtain ⟨last, hlast, heq⟩ := Option.map_eq_some_iff.mp hrest
  obtain ⟨rfl, rfl⟩ := Prod.mk.inj heq
  have hstep : scan (.word word) c = some (next.1, .word word :: next.2) := by
    rw [scan, hc, show start c = _ from hnext]
    rfl
  exact reads_cons hstep hlast

/-- `metric{job="…",device…"…"}` -/
def selectorTokens (metric job operator device : Str) : List Token :=
  [.word metric, .symbol (ofChar '\x7b'), .word "job", .symbol (ofChar '='), .string job,
      .symbol (ofChar ','), .word "device"] ++
    operator.map .symbol ++ [.string device, .symbol (ofChar '\x7d')]

/-- What is between the values of a selector does not depend on them. -/
theorem reads_selector {metric job operator device rest : Str} {s : Scan} {tokens : List Token}
    (hmetric : Reads scan .between metric (.word metric) [])
    (hjob : ∀ c ∈ job, IsInert c) (hdevice : ∀ c ∈ device, IsInert c)
    (hoperator : operator = "=" ∨ operator = "=~") (hrest : Reads scan .between rest s tokens) :
    Reads scan .between
      (metric ++ (TrafficService.selector [concat ["job=\"", job, "\""],
        concat [ofString "device" ++ operator ++ "\"", device, "\""]] ++ rest))
      s (selectorTokens metric job operator device ++ tokens) := by
  have htext : TrafficService.selector [concat ["job=\"", job, "\""],
        concat [ofString "device" ++ operator ++ "\"", device, "\""]] ++ rest =
      ofString "\x7bjob=\"" ++ (job ++ (ofString "\",device" ++ operator ++ "\"" ++
        (device ++ (ofString "\"\x7d" ++ rest)))) := by
    simp [TrafficService.selector, concat, List.intercalate, ofString]
  have hopen : Reads scan (.word metric) "\x7bjob=\"" (.string [])
      [.word metric, .symbol (ofChar '\x7b'), .word "job", .symbol (ofChar '=')] := rfl
  have hmiddle : Reads scan (.string job) (ofString "\",device" ++ operator ++ "\"") (.string [])
      ([.string job, .symbol (ofChar ','), .word "device"] ++ operator.map .symbol) := by
    rcases hoperator with rfl | rfl <;> rfl
  have hclose : Reads scan (.string device) "\"\x7d" .between
      [.string device, .symbol (ofChar '\x7d')] := rfl
  rw [htext]
  have hall := reads_append hmetric (reads_append hopen (reads_append (reads_string hjob)
    (reads_append hmiddle (reads_append (reads_string hdevice) (reads_append hclose hrest)))))
  simpa [selectorTokens] using hall

/-- `aggregate(rate(vector[rate])) * 8` -/
def rateTokens (aggregate vector : List Token) (rate : Str) : List Token :=
  aggregate ++ [.symbol (ofChar '('), .word "rate", .symbol (ofChar '(')] ++ vector ++
    [.symbol (ofChar '['), .word rate, .symbol (ofChar ']'), .symbol (ofChar ')'),
      .symbol (ofChar ')'), .symbol (ofChar '*'), .word "8"]

theorem lex_eq_some {text : Str} {tokens : List Token} {last : Str}
    (h : Reads scan .between text (.word last) tokens) :
    lex text = some (tokens ++ [.word last]) := by
  rw [lex, show run scan .between text = _ from h]

/-- What follows a vector. -/
theorem reads_range {rate : Str} (hrate : Reads scan .between rate (.word rate) []) :
    Reads scan .between (ofString "[" ++ (rate ++ ofString "])) * 8")) (.word "8")
      [.symbol (ofChar '['), .word rate, .symbol (ofChar ']'), .symbol (ofChar ')'),
        .symbol (ofChar ')'), .symbol (ofChar '*')] := by
  have hopen : Reads scan .between "[" .between [.symbol (ofChar '[')] := rfl
  have hclose : Reads scan (.word rate) "])) * 8" (.word "8") [.word rate, .symbol (ofChar ']'),
      .symbol (ofChar ')'), .symbol (ofChar ')'), .symbol (ofChar '*')] := rfl
  exact reads_append hopen (reads_append hrate hclose)

theorem lex_bitRate {aggregate vector rate : Str} {aggregateTokens vectorTokens : List Token}
    (haggregate : Reads scan .between (aggregate ++ ofString "(rate(") .between
      (aggregateTokens ++ [.symbol (ofChar '('), .word "rate", .symbol (ofChar '(')]))
    (hvector : ∀ {s tokens}, Reads scan .between (ofString "[" ++ (rate ++ ofString "])) * 8"))
        s tokens → Reads scan .between (vector ++ (ofString "[" ++ (rate ++ ofString "])) * 8")))
      s (vectorTokens ++ tokens))
    (hrate : Reads scan .between rate (.word rate) []) :
    lex (TrafficService.bitRate aggregate vector rate) =
      some (rateTokens aggregateTokens vectorTokens rate) := by
  have htext : TrafficService.bitRate aggregate vector rate =
      (aggregate ++ ofString "(rate(") ++ (vector ++ (ofString "[" ++
        (rate ++ ofString "])) * 8"))) := by
    simp [TrafficService.bitRate, concat]
  rw [htext, lex_eq_some (reads_append haggregate (hvector (reads_range hrate)))]
  simp [rateTokens]

end PromQl

namespace TrafficService

open PromQl

/-! ### The questions

What the service means to ask, written down as tokens, next to the texts that it sends. -/

/-- `[RegularExpression]` with a class of characters and a length. An empty value is not checked. -/
def IsMatch (allowed : Char16 → Bool) (maxLength : ℕ) (value : Str) : Prop :=
  value = [] ∨ value.length ≤ maxLength ∧ ∀ c ∈ value, allowed c = true

instance (allowed : Char16 → Bool) (maxLength : ℕ) (value : Str) :
    Decidable (IsMatch allowed maxLength value) :=
  inferInstanceAs (Decidable (_ ∨ _ ∧ _))

/-- `[A-Za-z0-9_.-]` -/
def isNameChar (c : Char16) : Bool := isAlnum c || (ofString "_.-").contains c

/-- `[A-Za-z0-9_|()\[\]*+?.^$-]` -/
def isRegexChar (c : Char16) : Bool := isAlnum c || (ofString "_|()[]*+?.^$-").contains c

/-- The service starts with these options. The check is one of four attributes, each with a class of
characters that may occur. -/
structure IsValid (settings : TrafficOptions) : Prop where
  nodeJob : IsMatch isNameChar 64 settings.nodeJob
  nodeDeviceRegex : IsMatch isRegexChar 128 settings.nodeDeviceRegex
  wanJob : IsMatch isNameChar 64 settings.wanJob
  wanDevice : ∀ device ∈ settings.wanDevice, IsMatch isNameChar 32 device

theorem isInert_of_isAlnum {c : Char16} (h : isAlnum c = true) : IsInert c := by
  have hquote : (ofChar '"').toNat = 0x22 := by decide
  have hbackslash : (ofChar '\\').toNat = 0x5c := by decide
  simp only [isAlnum, isUpper, isLower, isDigit, Bool.or_eq_true, Bool.and_eq_true,
    decide_eq_true_eq, UInt16.le_iff_toNat_le, UInt16.reduceToNat] at h
  simp only [IsInert, ne_eq, ← UInt16.toNat_inj, UInt16.le_iff_toNat_le, UInt16.reduceToNat,
    hquote, hbackslash]
  omega

theorem isInert_of_isMatch (others : Str) (hothers : ∀ c ∈ others, IsInert c) {maxLength : ℕ}
    {value : Str} (h : IsMatch (fun c => isAlnum c || others.contains c) maxLength value) :
    ∀ c ∈ value, IsInert c := by
  intro c hc
  rcases h with rfl | ⟨-, hall⟩
  · cases hc
  · rcases Bool.or_eq_true_iff.mp (hall c hc) with halnum | hother
    · exact isInert_of_isAlnum halnum
    · exact hothers c (List.contains_iff_mem.mp hother)

instance (c : Char16) : Decidable (IsInert c) := inferInstanceAs (Decidable (_ ∧ _ ∧ _ ∧ _))

/-- What the service means to ask, for the nodes, the cluster, the web and the internet. -/
def questions (settings : TrafficOptions) (rate : Str) : List (List Token) :=
  let byInstance (aggregate : Str) : List Token :=
    [.word aggregate, .word "by", .symbol (ofChar '('), .word "instance", .symbol (ofChar ')')]
  let node metric := selectorTokens metric settings.nodeJob "=~" settings.nodeDeviceRegex
  let wan metric := selectorTokens metric settings.wanJob "=" (settings.wanDevice.getD [])
  let received := node "node_network_receive_bytes_total"
  let transmitted := node "node_network_transmit_bytes_total"
  [rateTokens (byInstance "sum") received rate,
    rateTokens (byInstance "sum") transmitted rate,
    byInstance "max" ++ [.symbol (ofChar '(')] ++ node "node_network_speed_bytes" ++
      [.symbol (ofChar ')'), .symbol (ofChar '*'), .word "8"],
    rateTokens [.word "sum"] received rate,
    rateTokens [.word "sum"] transmitted rate,
    rateTokens [.word "sum"] [.word "nginx_ingress_controller_request_size_sum"] rate,
    rateTokens [.word "sum"] [.word "nginx_ingress_controller_response_size_sum"] rate,
    rateTokens [.word "sum"] (wan "node_network_receive_bytes_total") rate,
    rateTokens [.word "sum"] (wan "node_network_transmit_bytes_total") rate]

/-- The selector of the nodes. -/
def nodeSelector (settings : TrafficOptions) : Str :=
  selector [concat ["job=\"", settings.nodeJob, "\""],
    concat ["device=~\"", settings.nodeDeviceRegex, "\""]]

/-- The selector of the router. -/
def wanSelector (settings : TrafficOptions) : Str :=
  selector [concat ["job=\"", settings.wanJob, "\""],
    concat ["device=\"", settings.wanDevice.getD [], "\""]]

theorem nodeSelector_eq (settings : TrafficOptions) :
    nodeSelector settings = selector [concat ["job=\"", settings.nodeJob, "\""],
      concat [ofString "device" ++ ofString "=~" ++ ofString "\"", settings.nodeDeviceRegex,
        "\""]] := by
  have hdevice : ofString "device=~\"" = ofString "device" ++ ofString "=~" ++ ofString "\"" := rfl
  rw [nodeSelector, hdevice]

theorem wanSelector_eq (settings : TrafficOptions) :
    wanSelector settings = selector [concat ["job=\"", settings.wanJob, "\""],
      concat [ofString "device" ++ ofString "=" ++ ofString "\"", settings.wanDevice.getD [],
        "\""]] := by
  have hdevice : ofString "device=\"" = ofString "device" ++ ofString "=" ++ ofString "\"" := rfl
  rw [wanSelector, hdevice]

/-- A query that is all in ASCII, with the tokens of a question. So whatever the settings are, the
server reads one of the nine questions with the values of the settings in it, and no more than that.
-/
def IsQuestion (settings : TrafficOptions) (rate query : Str) : Prop :=
  IsAscii query ∧ ∃ tokens ∈ questions settings rate, lex query = some tokens

variable {settings : TrafficOptions} {rate : Str}

theorem isAscii_append {s t : Str} (hs : IsAscii s) (ht : IsAscii t) : IsAscii (s ++ t) :=
  List.forall_mem_append.mpr ⟨hs, ht⟩

theorem isAscii_of_inert {s : Str} (h : ∀ c ∈ s, IsInert c) : IsAscii s := fun c hc => (h c hc).1

theorem isAscii_selector {job operator device : Str} (hjob : ∀ c ∈ job, IsInert c)
    (hoperator : IsAscii operator) (hdevice : ∀ c ∈ device, IsInert c) :
    IsAscii (selector [concat ["job=\"", job, "\""], concat [operator, device, "\""]]) := by
  have htext : selector [concat ["job=\"", job, "\""], concat [operator, device, "\""]] =
      ofString "\x7bjob=\"" ++ (job ++ (ofString "\"," ++ (operator ++ (device ++
        ofString "\"\x7d")))) := by
    simp [selector, concat, List.intercalate, ofString]
  rw [htext]
  exact isAscii_append (by decide) (isAscii_append (isAscii_of_inert hjob)
    (isAscii_append (by decide) (isAscii_append hoperator
      (isAscii_append (isAscii_of_inert hdevice) (by decide)))))

theorem isAscii_bitRate {aggregate vector : Str} (haggregate : IsAscii aggregate)
    (hvector : IsAscii vector) (hrate : IsAscii rate) :
    IsAscii (bitRate aggregate vector rate) := by
  have htext : bitRate aggregate vector rate =
      aggregate ++ (ofString "(rate(" ++ (vector ++ (ofString "[" ++
        (rate ++ ofString "])) * 8")))) := by
    simp [bitRate, concat]
  rw [htext]
  exact isAscii_append haggregate (isAscii_append (by decide) (isAscii_append hvector
    (isAscii_append (by decide) (isAscii_append hrate (by decide)))))

/-- The values of the labels of a valid configuration. -/
structure Inert (settings : TrafficOptions) : Prop where
  nodeJob : ∀ c ∈ settings.nodeJob, IsInert c
  nodeDeviceRegex : ∀ c ∈ settings.nodeDeviceRegex, IsInert c
  wanJob : ∀ c ∈ settings.wanJob, IsInert c
  wanDevice : ∀ c ∈ settings.wanDevice.getD [], IsInert c

theorem IsValid.inert (h : IsValid settings) : Inert settings where
  nodeJob := isInert_of_isMatch "_.-" (by decide) h.nodeJob
  nodeDeviceRegex := isInert_of_isMatch "_|()[]*+?.^$-" (by decide) h.nodeDeviceRegex
  wanJob := isInert_of_isMatch "_.-" (by decide) h.wanJob
  wanDevice := by
    cases hdevice : settings.wanDevice with
    | none => simp
    | some device =>
      exact isInert_of_isMatch "_.-" (by decide) (h.wanDevice device hdevice)

/-- How often values are rated in the three ranges. -/
def rates : List Str := ["60s", "240s", "600s"]

theorem reads_rate (hrate : rate ∈ rates) : Reads scan .between rate (.word rate) [] := by
  simp only [rates, List.mem_cons, List.not_mem_nil, or_false] at hrate
  rcases hrate with rfl | rfl | rfl <;> rfl

theorem isAscii_rate (hrate : rate ∈ rates) : IsAscii rate := by
  have hall : ∀ rate ∈ rates, IsAscii rate := by decide
  exact hall rate hrate

/-- A sum over a selection of series. -/
theorem isQuestion_bitRate (hrate : rate ∈ rates) {aggregate metric job operator device : Str}
    {aggregateTokens : List Token}
    (haggregate : Reads scan .between (aggregate ++ ofString "(rate(") .between
      (aggregateTokens ++ [.symbol (ofChar '('), .word "rate", .symbol (ofChar '(')]))
    (hascii : IsAscii aggregate ∧ IsAscii metric)
    (hmetric : Reads scan .between metric (.word metric) [])
    (hjob : ∀ c ∈ job, IsInert c) (hdevice : ∀ c ∈ device, IsInert c)
    (hoperator : operator = "=" ∨ operator = "=~")
    (hmem : rateTokens aggregateTokens (selectorTokens metric job operator device) rate ∈
      questions settings rate) :
    IsQuestion settings rate (bitRate aggregate (metric ++
      selector [concat ["job=\"", job, "\""],
        concat [ofString "device" ++ operator ++ "\"", device, "\""]]) rate) := by
  refine ⟨?_, _, hmem, ?_⟩
  · have hascii' : IsAscii (ofString "device" ++ operator ++ "\"") := by
      rcases hoperator with rfl | rfl <;> decide
    exact isAscii_bitRate hascii.1
      (isAscii_append hascii.2 (isAscii_selector hjob hascii' hdevice)) (isAscii_rate hrate)
  · refine lex_bitRate haggregate (fun hrest => ?_) (reads_rate hrate)
    rw [List.append_assoc]
    exact reads_selector hmetric hjob hdevice hoperator hrest

/-- A sum over all series of a name. -/
theorem isQuestion_metric (hrate : rate ∈ rates) {metric : Str} (hascii : IsAscii metric)
    (hmetric : Reads scan .between metric (.word metric) [])
    (hmem : rateTokens [.word "sum"] [.word metric] rate ∈ questions settings rate) :
    IsQuestion settings rate (bitRate "sum" metric rate) := by
  have haggregate : Reads scan .between (ofString "sum" ++ ofString "(rate(") .between
      ([.word "sum"] ++ [.symbol (ofChar '('), .word "rate", .symbol (ofChar '(')]) := rfl
  have hbracket : isWordChar (ofChar '[') = false := by decide
  refine ⟨isAscii_bitRate (by decide) hascii (isAscii_rate hrate), _, hmem, ?_⟩
  refine lex_bitRate haggregate (fun {s tokens} hrest => ?_) (reads_rate hrate)
  have hafter : Reads scan (.word metric) (ofString "[" ++ (rate ++ ofString "])) * 8")) s
      (.word metric :: tokens) := reads_after_word hbracket hrest
  have hall := reads_append hmetric hafter
  exact hall

/-- `max by (instance) (speed) * 8` -/
theorem isQuestion_speed (h : Inert settings) :
    IsQuestion settings rate (concat ["max by (instance) (",
      ofString "node_network_speed_bytes" ++ nodeSelector settings, ") * 8"]) := by
  have htext : concat ["max by (instance) (",
      ofString "node_network_speed_bytes" ++ nodeSelector settings, ") * 8"] =
      ofString "max by (instance) (" ++ (ofString "node_network_speed_bytes" ++
        (nodeSelector settings ++ ofString ") * 8")) := by
    simp [concat]
  have hopen : Reads scan .between "max by (instance) (" .between [.word "max", .word "by",
      .symbol (ofChar '('), .word "instance", .symbol (ofChar ')'), .symbol (ofChar '(')] := rfl
  have hclose : Reads scan .between ") * 8" (.word "8")
      [.symbol (ofChar ')'), .symbol (ofChar '*')] := rfl
  have hselector := reads_selector (rfl : Reads scan .between "node_network_speed_bytes"
    (.word "node_network_speed_bytes") []) h.nodeJob h.nodeDeviceRegex (.inr rfl) hclose
  rw [htext]
  refine ⟨isAscii_append (by decide) (isAscii_append (by decide) (isAscii_append
    (isAscii_selector h.nodeJob (by decide) h.nodeDeviceRegex) (by decide))), _, ?_,
    lex_eq_some (reads_append hopen hselector)⟩
  simp [questions]

/-- The queries as they are put together. -/
def queries (settings : TrafficOptions) (rate : Str) : List Str :=
  let received := "node_network_receive_bytes_total" ++ nodeSelector settings
  let transmitted := "node_network_transmit_bytes_total" ++ nodeSelector settings
  [bitRate "sum by (instance) " received rate,
    bitRate "sum by (instance) " transmitted rate,
    concat ["max by (instance) (", "node_network_speed_bytes" ++ nodeSelector settings, ") * 8"],
    bitRate "sum" received rate,
    bitRate "sum" transmitted rate,
    bitRate "sum" "nginx_ingress_controller_request_size_sum" rate,
    bitRate "sum" "nginx_ingress_controller_response_size_sum" rate,
    bitRate "sum" ("node_network_receive_bytes_total" ++ wanSelector settings) rate,
    bitRate "sum" ("node_network_transmit_bytes_total" ++ wanSelector settings) rate]

/-- Where the series of a node are summed up, by the instance or all of them. -/
theorem isQuestion_node (h : Inert settings) (hrate : rate ∈ rates) {aggregate metric : Str}
    {aggregateTokens : List Token}
    (haggregate : (aggregate = "sum by (instance) " ∧ aggregateTokens = [.word "sum", .word "by",
        .symbol (ofChar '('), .word "instance", .symbol (ofChar ')')]) ∨
      (aggregate = "sum" ∧ aggregateTokens = [.word "sum"]))
    (hmetric : metric = "node_network_receive_bytes_total" ∨
      metric = "node_network_transmit_bytes_total") :
    IsQuestion settings rate (bitRate aggregate (metric ++ nodeSelector settings) rate) := by
  have hword : IsAscii metric ∧ Reads scan .between metric (.word metric) [] := by
    rcases hmetric with rfl | rfl <;> exact ⟨by decide, rfl⟩
  have hopen : IsAscii aggregate ∧ Reads scan .between (aggregate ++ ofString "(rate(") .between
      (aggregateTokens ++ [.symbol (ofChar '('), .word "rate", .symbol (ofChar '(')]) := by
    rcases haggregate with ⟨rfl, rfl⟩ | ⟨rfl, rfl⟩ <;> exact ⟨by decide, rfl⟩
  rw [nodeSelector_eq]
  refine isQuestion_bitRate hrate hopen.2 ⟨hopen.1, hword.1⟩ hword.2 h.nodeJob h.nodeDeviceRegex
    (.inr rfl) ?_
  rcases haggregate with ⟨rfl, rfl⟩ | ⟨rfl, rfl⟩ <;> rcases hmetric with rfl | rfl <;>
    simp only [questions, List.mem_cons, true_or, or_true]

/-- What the router has received and sent. -/
theorem isQuestion_wan (h : Inert settings) (hrate : rate ∈ rates) {metric : Str}
    (hmetric : metric = "node_network_receive_bytes_total" ∨
      metric = "node_network_transmit_bytes_total") :
    IsQuestion settings rate (bitRate "sum" (metric ++ wanSelector settings) rate) := by
  have hword : IsAscii metric ∧ Reads scan .between metric (.word metric) [] := by
    rcases hmetric with rfl | rfl <;> exact ⟨by decide, rfl⟩
  have hopen : Reads scan .between (ofString "sum" ++ ofString "(rate(") .between
      ([.word "sum"] ++ [.symbol (ofChar '('), .word "rate", .symbol (ofChar '(')]) := rfl
  rw [wanSelector_eq]
  refine isQuestion_bitRate hrate hopen ⟨by decide, hword.1⟩ hword.2 h.wanJob h.wanDevice
    (.inl rfl) ?_
  rcases hmetric with rfl | rfl <;> simp only [questions, List.mem_cons, true_or, or_true]

theorem isQuestion_of_mem (h : Inert settings) (hrate : rate ∈ rates) :
    ∀ query ∈ queries settings rate, IsQuestion settings rate query := by
  intro query hquery
  simp only [queries, List.mem_cons, List.not_mem_nil, or_false] at hquery
  rcases hquery with rfl | rfl | rfl | rfl | rfl | rfl | rfl | rfl | rfl
  · exact isQuestion_node h hrate (.inl ⟨rfl, rfl⟩) (.inl rfl)
  · exact isQuestion_node h hrate (.inl ⟨rfl, rfl⟩) (.inr rfl)
  · exact isQuestion_speed h
  · exact isQuestion_node h hrate (.inr ⟨rfl, rfl⟩) (.inl rfl)
  · exact isQuestion_node h hrate (.inr ⟨rfl, rfl⟩) (.inr rfl)
  · exact isQuestion_metric hrate (by decide) rfl (by simp [questions])
  · exact isQuestion_metric hrate (by decide) rfl (by simp [questions])
  · exact isQuestion_wan h hrate (.inl rfl)
  · exact isQuestion_wan h hrate (.inr rfl)

/-! ### Runs

The phase is the clock reading of the run. Every request is one of the questions, for the range that
ends at that reading. -/

/-- What is asked for in the window, a step apart. -/
def rateOf (step : ℤ) : Str := concat [Double.decimalInt (max 60 (step * 2)), "s"]

/-- The server takes the URI for one of the questions, about the time until `now`. The values of the
parameters are compared as bytes, as the server finds them in the URI. -/
def IsAsked (settings : TrafficOptions) (range : Str) (now : DateTimeOffset) (uri : Str) : Prop :=
  ∃ window step request text, rangeOf range = .ok (window, step) ∧
    PrometheusClient.readRequest uri = some request ∧
    request.query = text.map UInt16.toUInt8 ∧ IsQuestion settings (rateOf step) text ∧
    request.start = PrometheusClient.integerBytes
      (PrometheusClient.toUnixTimeSeconds (now - window)) ∧
    request.stop = PrometheusClient.integerBytes (PrometheusClient.toUnixTimeSeconds now) ∧
    request.step = PrometheusClient.integerBytes step

/-- The time is read once, before the first question; the phase is the time. -/
def asking (settings : TrafficOptions) (range : Str) :
    Protocol Prometheus (Option DateTimeOffset) where
  allowed now
    | .getUtcNow => now = none
    | .queryRange query start stop step => ∃ time, now = some time ∧
        IsAsked settings range time (PrometheusClient.requestUri query start stop step)
  next
    | _, ⟨.getUtcNow, time⟩ => some time
    | now, _ => now

theorem rateOf_mem {range : Str} {window step : ℤ} (h : rangeOf range = .ok (window, step)) :
    rateOf step ∈ rates := by
  have hmem : (window, step) ∈ ranges.map Prod.snd := by
    rw [rangeOf] at h
    split at h
    · next settings hlookup =>
      obtain rfl := Except.ok.inj h
      obtain ⟨before, after, hranges, -⟩ := List.lookup_eq_some_iff.mp hlookup
      simp [hranges]
    · cases h
  simp only [ranges, List.map_cons, List.map_nil, List.mem_cons, Prod.mk.injEq, List.not_mem_nil,
    or_false] at hmem
  rcases hmem with ⟨-, rfl⟩ | ⟨-, rfl⟩ | ⟨-, rfl⟩ <;> decide

theorem isAsked_requestUri {range : Str} {window step : ℤ}
    (hrange : rangeOf range = .ok (window, step)) (h : Inert settings) (now : DateTimeOffset)
    {query : Str} (hquery : query ∈ queries settings (rateOf step)) :
    IsAsked settings range now
      (PrometheusClient.requestUri query (now - window) now step) := by
  have hquestion := isQuestion_of_mem h (rateOf_mem hrange) query hquery
  refine ⟨window, step, _, query, hrange, PrometheusClient.readRequest_requestUri .., ?_,
    hquestion, rfl, rfl, rfl⟩
  exact Utf8.encode_of_isAscii hquestion.1

/-- A question leaves the phase as it is, whatever is answered. -/
def KeepsAsking (settings : TrafficOptions) (range : Str) (now : DateTimeOffset)
    (task : Task Prometheus Exn (List PromSeries)) : Prop :=
  Task.Follows (asking settings range) (fun phase _ => phase = some now) task (some now)

theorem keepsAsking_queryRangeAsync {range query : Str} {window step : ℤ}
    (hrange : rangeOf range = .ok (window, step)) (h : Inert settings) (now : DateTimeOffset)
    (hquery : query ∈ queries settings (rateOf step)) :
    KeepsAsking settings range now
      (Prometheus.queryRangeAsync query (now - window) now step) :=
  Task.follows_call.mpr ⟨⟨now, rfl, isAsked_requestUri hrange h now hquery⟩, fun _ => rfl⟩

theorem KeepsAsking.optionalAsync {range : Str} {now : DateTimeOffset}
    {task : Task Prometheus Exn (List PromSeries)} (h : KeepsAsking settings range now task) :
    KeepsAsking settings range now (TrafficService.optionalAsync task) := by
  refine Task.follows_tryCatch.mpr (Task.Follows.mono h fun phase r hphase => ?_)
  cases r with
  | ok series => exact hphase
  | error e => cases e <;> exact hphase

theorem KeepsAsking.attempt_bind {range : Str} {now : DateTimeOffset}
    {task : Task Prometheus Exn (List PromSeries)} {α : Type}
    {f : Except Exn (List PromSeries) → Task Prometheus Exn α}
    {post : Option DateTimeOffset → Except Exn α → Prop} (h : KeepsAsking settings range now task)
    (hrest : ∀ answer, Task.Follows (asking settings range) post (f answer) (some now)) :
    Task.Follows (asking settings range) post (Task.attempt task >>= f) (some now) := by
  rw [Task.follows_bind, Task.follows_attempt]
  refine Task.Follows.mono h fun phase answer hphase => ?_
  subst hphase
  exact hrest answer

theorem follows_buildAsync {range : Str} (rt : Runtime) (h : Inert settings) :
    Task.Follows (asking settings range) (fun _ _ => True) (buildAsync rt settings range)
      none := by
  refine Task.follows_ofExcept_bind (fun ⟨window, step⟩ hrange => ?_) (fun _ _ => trivial)
  refine Task.follows_bind.mpr (Task.follows_perform.mpr ⟨rfl, fun now => ?_⟩)
  have hasks : ∀ query ∈ queries settings (rateOf step), KeepsAsking settings range now
      (Prometheus.queryRangeAsync query (now - window) now step) :=
    fun query => keepsAsking_queryRangeAsync hrange h now
  simp only [queries, List.forall_mem_cons] at hasks
  obtain ⟨h₁, h₂, h₃, h₄, h₅, h₆, h₇, h₈, h₉, -⟩ := hasks
  have hwan : ∀ task, KeepsAsking settings range now task → KeepsAsking settings range now
      (if settings.wanDevice.getD [] = [] then pure [] else TrafficService.optionalAsync task) :=
    fun task htask => Task.follows_ite.mpr ⟨fun _ => rfl, fun _ => htask.optionalAsync⟩
  refine KeepsAsking.attempt_bind h₁ fun nodeRx => ?_
  refine KeepsAsking.attempt_bind h₂ fun nodeTx => ?_
  refine KeepsAsking.attempt_bind h₃ fun capacity => ?_
  refine KeepsAsking.attempt_bind h₄ fun clusterRx => ?_
  refine KeepsAsking.attempt_bind h₅ fun clusterTx => ?_
  refine KeepsAsking.attempt_bind h₆.optionalAsync fun webIn => ?_
  refine KeepsAsking.attempt_bind h₇.optionalAsync fun webOut => ?_
  refine KeepsAsking.attempt_bind (hwan _ h₈) fun wanRx => ?_
  refine KeepsAsking.attempt_bind (hwan _ h₉) fun wanTx => ?_
  -- what is left makes no calls
  iterate 10 refine Task.follows_ofExcept_bind (fun _ _ => ?_) (fun _ _ => trivial)
  exact trivial

/-- **What Prometheus is asked**: in a run with settings that pass the check, each request is one of
the nine questions, whatever the settings are and whatever has been answered. -/
theorem asked_of_runs {rt : Runtime} {range : Str} (hvalid : IsValid settings)
    {es : List (Event Prometheus)} {r : Except Exn TrafficResponse}
    (hrun : Task.Runs (buildAsync rt settings range) es r) :
    (asking settings range).Accepts none es :=
  (Prog.Follows.run (follows_buildAsync rt hvalid.inert) hrun).2

/-- A router whose device is `igb0`, and a Prometheus that has found nothing. -/
def emptyRun : List (Event Prometheus) × Except Exn TrafficResponse :=
  Prog.simulate answer (buildAsync .reference { wanDevice := some "igb0" } "6h").run
where
  answer : ∀ op, Prometheus.Ret op
    | .getUtcNow => (638000000000000000 : ℤ)
    | .queryRange _ _ _ _ => .ok []

theorem asked_of_emptyRun : emptyRun.1.length = 10 ∧
    (asking { wanDevice := some "igb0" } "6h").Accepts none emptyRun.1 :=
  ⟨by decide +kernel, asked_of_runs ⟨by decide, by decide, by decide, by decide⟩
    (Prog.run_simulate emptyRun.answer _)⟩

end TrafficService

end LookingGlass
