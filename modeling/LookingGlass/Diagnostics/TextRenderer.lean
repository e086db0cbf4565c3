import LookingGlass.Diagnostics.NativeProbeRunner
import LookingGlass.Diagnostics.TargetResolver

/-!
# The text renderer

The technical output of a diagnostic is printed from the response's own hops and statistics, never
copied from a tool. A renderer here is a function of the target and of what it prints, so equal
hops give equal text.

## What gets into the text

The text shows what the hops show, so a hop that is redacted is redacted in the text, and whatever a
tool has printed besides is not in it. Numbers are printed with custom formats of a fixed number of
decimals. Columns are padded to the widest cell, the width of a cell being the number of its code
units, as in the source.

The lines are appended to a builder one by one and made uniform at the end. What this does to a line
that has the end of a line among its characters is the subject of `LineEndings`.

## Main definitions

* `normalise` — the text of some lines
* `TextRenderer.ping`, `TextRenderer.traceroute`, `TextRenderer.mtr` — the three renderers
-/

namespace LookingGlass

open Utf16

namespace TextRenderer

/-! ### Strings

The functions of the base library that a renderer uses, on code units. -/

/-- `string.ReplaceLineEndings("\n")`. -/
def replaceLineEndings : Str → Str
  | [] => []
  | [c] => if c ∈ [0x0a, 0x0c, 0x0d, 0x85, 0x2028, 0x2029] then [0x0a] else [c]
  | c :: d :: rest =>
    if c = 0x0d ∧ d = 0x0a then 0x0a :: replaceLineEndings rest
    else if c ∈ [0x0a, 0x0c, 0x0d, 0x85, 0x2028, 0x2029] then 0x0a :: replaceLineEndings (d :: rest)
    else c :: replaceLineEndings (d :: rest)

/-- The text of a builder that got these lines, with uniform line ends and no white space at the
end. -/
def normalise (lines : List Str) : Str :=
  (replaceLineEndings (lines.map (· ++ [0x0a])).flatten).rdropWhile Runtime.isWhiteSpace

def padLeft (width : ℕ) (s : Str) : Str := List.replicate (width - s.length) (ofChar ' ') ++ s

def padRight (width : ℕ) (s : Str) : Str := s ++ List.replicate (width - s.length) (ofChar ' ')

/-! ### Renderers

One for each tool that has one, with its header, its rows and its summary. -/

variable (rt : Runtime)

def label (target : ResolvedTarget) : Str :=
  let address := rt.addressToString target.address
  if rt.toUpperInvariant target.destination = rt.toUpperInvariant address then address
  else concat [target.destination, " (", address, ")"]

def ping (target : ResolvedTarget) (raw : PingRaw) : Str :=
  let replies : List Str := raw.replies.map fun reply =>
    concat ["reply from ", rt.addressToString target.address, ": icmp_seq=",
      Double.decimalInt reply.seq,
      match reply.ttl with
        | some ttl => concat [" ttl=", Double.decimalInt ttl]
        | none => [],
      " time=", reply.timeMs.format 1 2, " ms"]
  let rtt : List Str := match raw.minMs, raw.avgMs, raw.maxMs with
    | some min, some avg, some max =>
      [concat ["rtt min/avg/max/stddev = ", min.format 0 3, "/", avg.format 0 3, "/",
        max.format 0 3,
        match raw.stdDevMs with
          | some dev => concat ["/", dev.format 0 3]
          | none => [],
        " ms"]]
    | _, _, _ => []
  normalise ([concat ["PING ", label rt target]] ++ replies ++
    [[], concat ["--- ", target.destination, " ping statistics ---"],
      concat [Double.decimalInt raw.transmitted, " packets transmitted, ",
        Double.decimalInt raw.received, " received, ", raw.lossPercent.format 0 1,
        "% packet loss"]] ++ rtt)

def tracerouteLine (hop : TracerouteHop) : Str :=
  let rtts := join "  " (hop.rttMs.map fun
    | some v => concat [v.format 0 2, " ms"]
    | none => "*")
  let host : Str :=
    if !hop.responded then "* * *"
    else if hop.redacted then "[internal network]"
    else match hop.hostname, hop.address with
      | some name, some address => concat [name, " (", address, ")"]
      | none, some address => address
      | _, none => "*"
  let number := padLeft 2 (Double.decimalInt hop.hop)
  if hop.responded then concat [number, "  ", host, "  ", rtts] else concat [number, "  ", host]

def traceroute (target : ResolvedTarget) (hops : List TracerouteHop) (maxHops : ℤ) : Str :=
  normalise (concat ["traceroute to ", label rt target, ", ", Double.decimalInt maxHops,
    " hops max"] :: hops.map tracerouteLine)

def formatMs : Option Double → Str
  | some v => v.format 1 2
  | none => "-"

def mtrRow (hop : MtrHop) : List Str :=
  [concat [Double.decimalInt hop.hop, "."],
    if hop.redacted then "[internal network]"
    else match hop.hostname, hop.address with
      | some name, some address => concat [name, " (", address, ")"]
      | _, some address => address
      | _, none => "???",
    concat [hop.lossPercent.format 1 1, "%"],
    Double.decimalInt hop.sent,
    formatMs hop.lastMs, formatMs hop.avgMs, formatMs hop.bestMs, formatMs hop.worstMs,
    formatMs hop.stdDevMs]

def mtrHeader : List Str :=
  ["Hop", "Host", "Loss%", "Snt", "Last", "Avg", "Best", "Wrst", "StDev"]

/-- The width of every column. -/
def widths (rows : List (List Str)) : List ℕ :=
  mtrHeader.zipIdx.map fun (cell, i) =>
    (rows.map fun row => (row.getD i []).length).foldr max cell.length

/-- Host names are aligned to the left, everything else to the right. -/
def line (cells : List Str) (widths : List ℕ) : Str :=
  join "  " ((cells.zip widths).zipIdx.map fun ((cell, width), i) =>
    if i = 1 then padRight width cell else padLeft width cell)

def mtr (target : ResolvedTarget) (hops : List MtrHop) : Str :=
  let rows := hops.map mtrRow
  let columns := widths rows
  normalise (concat ["mtr report to ", label rt target] :: line mtrHeader columns ::
    rows.map fun row => line row columns)

end TextRenderer

end LookingGlass
