import LookingGlass.Diagnostics.DnsLookupService
import LookingGlass.Diagnostics.LineEndings
import LookingGlass.Foundations.Spellings

/-!
# One line for each entry

The technical text of a trace, a report or a lookup lists its entries one by one, a line each. A
reader who counts the lines, or looks for one, relies on it.

The numbers in such a line are printed by the renderer, and addresses by the runtime. The names and
values come from whoever answers a query, and nothing is done to them.

## Where a line may end

What counts is where `ReplaceLineEndings` sees the end of a line: at a line feed, a carriage return,
the two together, a form feed, and at three characters beyond ASCII. A name that comes back from a
reverse lookup may have any of them, and so may the value of a record. A carriage return at the end
of a value is different. The end of the line is appended behind it, and the two are one.

So the condition is about texts from elsewhere, one at a time, and neither the number of entries nor
their order is in it. It asks only for those texts that are printed. The name of a hop that is
redacted or has no address is not.

Addresses are printed by the runtime. That it prints them without white space is a hypothesis, which
`Runtime.reference` meets.

## Main results

* `TextRenderer.entryLines_iff` — one line for each entry, if and only if no text of a remote server
  that is printed has a line end in it
-/

namespace LookingGlass

open Utf16 AddressText

namespace TextRenderer

/-! ### Numbers

No number that a renderer prints has white space in it. -/

theorem solid_append {s t : Str} : Solid (s ++ t) ↔ Solid s ∧ Solid t :=
  List.forall_mem_append

theorem solid_concat {parts : List Str} : Solid (concat parts) ↔ ∀ part ∈ parts, Solid part :=
  forall_mem_concat

theorem solid_cons {c : Char16} {s : Str} :
    Solid (c :: s) ↔ Runtime.isWhiteSpace c = false ∧ Solid s :=
  List.forall_mem_cons

theorem solid_of_isDigit {s : Str} (h : ∀ c ∈ s, isDigit c = true) : Solid s := by
  intro c hc
  have hdigit := h c hc
  simp only [isDigit, Bool.and_eq_true, decide_eq_true_eq, UInt16.le_iff_toNat_le,
    UInt16.reduceToNat] at hdigit
  simp only [Runtime.isWhiteSpace, Bool.or_eq_false_iff, Bool.and_eq_false_iff,
    decide_eq_false_iff_not, beq_eq_false_iff_ne, ne_eq, UInt16.le_iff_toNat_le,
    ← UInt16.toNat_inj, UInt16.reduceToNat]
  omega

theorem solid_decimal (n : ℕ) : Solid (decimal n) :=
  solid_of_isDigit fun _ => isDigit_of_mem_decimal

theorem solid_decimalInt (n : ℤ) : Solid (Double.decimalInt n) := by
  rw [Double.decimalInt]
  split
  · exact solid_cons.mpr ⟨by decide, solid_decimal _⟩
  · exact solid_decimal _

theorem decimalInt_ne_nil (n : ℤ) : Double.decimalInt n ≠ [] := by
  rw [Double.decimalInt]
  split
  · exact List.cons_ne_nil _ _
  · exact decimal_ne_nil _

theorem solid_decimals (fixed digits units : ℕ) : Solid (Double.decimals fixed digits units) := by
  have hpadded : Solid (List.replicate (digits - (decimal (units % 10 ^ digits)).length)
      (ofChar '0') ++ decimal (units % 10 ^ digits)) := by
    refine solid_append.mpr ⟨fun c hc => ?_, solid_decimal _⟩
    rw [List.eq_of_mem_replicate hc]
    decide
  intro c hc
  rcases List.mem_append.mp hc with hc | hc
  · exact hpadded c (List.mem_of_mem_take hc)
  · exact hpadded c (List.mem_of_mem_drop ((List.rdropWhile_prefix _ _).subset hc))

theorem solid_format (fixed digits : ℕ) (x : Double) : Solid (x.format fixed digits) := by
  cases x with
  | finite q =>
    have hpoint (fraction : Str) (h : Solid fraction) :
        Solid (if fraction = [] then [] else ofChar '.' :: fraction) := by
      split
      · decide
      · exact solid_cons.mpr ⟨by decide, h⟩
    refine solid_append.mpr ⟨solid_append.mpr ⟨?_, solid_decimal _⟩, hpoint _ ?_⟩
    · split <;> decide
    · split
      · decide
      · exact solid_decimals _ _ _
  | infinity negative =>
    rw [Double.format]
    split <;> decide
  | nan =>
    rw [Double.format]
    decide

theorem format_ne_nil (fixed digits : ℕ) (x : Double) : x.format fixed digits ≠ [] := by
  cases x with
  | finite q =>
    intro h
    obtain ⟨hleft, -⟩ := List.append_eq_nil_iff.mp h
    exact decimal_ne_nil _ (List.append_eq_nil_iff.mp hleft).2
  | infinity negative =>
    rw [Double.format]
    split <;> decide
  | nan =>
    rw [Double.format]
    decide

theorem solid_formatMs (x : Option Double) : Solid (formatMs x) := by
  cases x with
  | none => decide
  | some x => exact solid_format 1 2 x

theorem formatMs_ne_nil (x : Option Double) : formatMs x ≠ [] := by
  cases x with
  | none => decide
  | some x => exact format_ne_nil 1 2 x

/-! ### Traces

A line has one text from elsewhere, the name, and a bracket stands behind it. -/

/-- The name that is printed for a hop. -/
def printedName (hop : TracerouteHop) : Option Str :=
  if hop.responded && !hop.redacted && hop.address.isSome then hop.hostname else none

/-- How a round-trip time of a hop is printed. -/
def rttText : Option Double → Str
  | some v => concat [v.format 0 2, " ms"]
  | none => "*"

theorem onOneLine_rttText (rtt : Option Double) : OnOneLine (rttText rtt) := by
  cases rtt with
  | none => decide
  | some v =>
    simp only [rttText, onOneLine_concat, List.forall_mem_cons]
    exact ⟨(solid_format 0 2 v).onOneLine, by decide, by simp⟩

/-- What a line is made of: behind the number of the hop there is only a text of the renderer or an
address, or a name and an address. -/
theorem tracerouteLine_eq {hop : TracerouteHop} (haddress : ∀ text ∈ hop.address, Solid text) :
    ∃ host rest : Str,
      tracerouteLine hop = padLeft 2 (Double.decimalInt hop.hop) ++ ("  " ++ host ++ rest) ∧
        OnOneLine rest ∧
        ((printedName hop = none ∧ OnOneLine host) ∨
          ∃ name address, printedName hop = some name ∧ Solid address ∧
            host = name ++ (" (" ++ address ++ ")")) := by
  obtain ⟨number, responded, redacted, address, hostname, rttMs, avgMs⟩ := hop
  have hrtts : OnOneLine ("  " ++ join "  " (rttMs.map rttText)) := by
    refine onOneLine_append.mpr ⟨by decide, (onOneLine_join (by decide)).mpr fun part hpart => ?_⟩
    obtain ⟨rtt, -, rfl⟩ := List.mem_map.mp hpart
    exact onOneLine_rttText rtt
  have hline (host : Str) : concat [padLeft 2 (Double.decimalInt number), "  ", host, "  ",
      join "  " (rttMs.map rttText)] = padLeft 2 (Double.decimalInt number) ++
        ("  " ++ host ++ ("  " ++ join "  " (rttMs.map rttText))) := by
    simp
  cases responded with
  | false => exact ⟨"* * *", [], by simp [tracerouteLine], by decide, .inl ⟨rfl, by decide⟩⟩
  | true =>
    cases redacted with
    | true => exact ⟨_, _, hline "[internal network]", hrtts, .inl ⟨rfl, by decide⟩⟩
    | false =>
      cases address with
      | none => cases hostname <;> exact ⟨_, _, hline "*", hrtts, .inl ⟨rfl, by decide⟩⟩
      | some address =>
        have hsolid : Solid address := haddress address rfl
        cases hostname with
        | none => exact ⟨_, _, hline address, hrtts, .inl ⟨rfl, hsolid.onOneLine⟩⟩
        | some name =>
          exact ⟨concat [name, " (", address, ")"], _, hline _, hrtts,
            .inr ⟨name, address, rfl, hsolid, by simp⟩⟩

theorem onOneLine_tracerouteLine_iff {hop : TracerouteHop}
    (haddress : ∀ text ∈ hop.address, Solid text) :
    OnOneLine (tracerouteLine hop) ↔ ∀ name ∈ printedName hop, OnOneLine name := by
  obtain ⟨host, rest, hline, hrest, hhost⟩ := tracerouteLine_eq haddress
  have hnumber : OnOneLine (padLeft 2 (Double.decimalInt hop.hop)) :=
    onOneLine_padLeft.mpr (solid_decimalInt _).onOneLine
  have hblank : OnOneLine "  " := by decide
  rw [hline, onOneLine_append, onOneLine_append, onOneLine_append, and_iff_right hnumber,
    and_iff_left hrest, and_iff_right hblank]
  rcases hhost with ⟨hnone, hhost⟩ | ⟨name, address, hsome, hsolid, rfl⟩
  · simp [hnone, hhost]
  · have htail : OnOneLine (" (" ++ address ++ ")") :=
      onOneLine_append.mpr ⟨onOneLine_append.mpr ⟨by decide, hsolid.onOneLine⟩, by decide⟩
    rw [onOneLine_append, and_iff_left htail]
    simp [hsome]

/-- Behind a name there is the bracket of its address. -/
theorem closed_tracerouteLine {hop : TracerouteHop} (haddress : ∀ text ∈ hop.address, Solid text) :
    Closed (tracerouteLine hop) := by
  obtain ⟨host, rest, hline, hrest, hhost⟩ := tracerouteLine_eq haddress
  rw [hline]
  rcases hhost with ⟨-, hhost⟩ | ⟨name, address, -, -, rfl⟩
  · refine Closed.append_right (Closed.append_left ?_ _) ?_
    · exact (solid_decimalInt _).closed (decimalInt_ne_nil _)
    · exact onOneLine_append.mpr ⟨onOneLine_append.mpr ⟨by decide, hhost⟩, hrest⟩
  · refine Closed.append_left (Closed.append_right (Closed.append_left ?_ _) hrest) _
    rw [← List.append_assoc]
    exact Closed.append_left (Solid.closed (by decide) (by decide)) _

/-! ### Reports

The cells of a row are padded, which adds blanks only. The name is in one of them, and the last one
is a number. -/

/-- The name that is printed for a hop of a report. -/
def printedMtrName (hop : MtrHop) : Option Str :=
  if !hop.redacted && hop.address.isSome then hop.hostname else none

theorem onOneLine_hostCell_iff {hop : MtrHop} (haddress : ∀ text ∈ hop.address, Solid text) :
    OnOneLine ((mtrRow hop).getD 1 []) ↔ ∀ name ∈ printedMtrName hop, OnOneLine name := by
  obtain ⟨number, responded, redacted, address, hostname, loss, sent, last, avg, best, worst,
    dev⟩ := hop
  cases redacted with
  | true =>
    have hcell : OnOneLine "[internal network]" := by decide
    exact iff_of_true hcell (by simp [printedMtrName])
  | false =>
    cases address with
    | none =>
      have hcell : OnOneLine "???" := by decide
      cases hostname <;> exact iff_of_true hcell (by simp [printedMtrName])
    | some address =>
      have hsolid : Solid address := haddress address rfl
      cases hostname with
      | none => exact iff_of_true hsolid.onOneLine (by simp [printedMtrName])
      | some name =>
        have hcell : OnOneLine (concat [name, " (", address, ")"]) ↔ OnOneLine name := by
          rw [onOneLine_concat, List.forall_mem_cons, List.forall_mem_cons, List.forall_mem_cons,
            List.forall_mem_singleton]
          exact and_iff_left ⟨by decide, hsolid.onOneLine, by decide⟩
        exact hcell.trans (by simp [printedMtrName])

theorem onOneLine_line_iff {cells : List Str} {columns : List ℕ}
    (h : cells.length ≤ columns.length) :
    OnOneLine (line cells columns) ↔ ∀ cell ∈ cells, OnOneLine cell := by
  have hcells : ((cells.zip columns).zipIdx.map Prod.fst).map Prod.fst = cells := by
    rw [List.zipIdx_map_fst, List.map_fst_zip h]
  have hpadded (x : (Str × ℕ) × ℕ) :
      OnOneLine (if x.2 = 1 then padRight x.1.2 x.1.1 else padLeft x.1.2 x.1.1) ↔
        OnOneLine x.1.1 := by
    split
    · exact onOneLine_padRight
    · exact onOneLine_padLeft
  rw [line, onOneLine_join (by decide), List.forall_mem_map]
  simp only [hpadded]
  conv_rhs => rw [← hcells]
  rw [List.forall_mem_map, List.forall_mem_map]

/-- What is joined ends as its last part does. -/
theorem closed_join_concat {separator last : Str} (h : Closed last) (parts : List Str) :
    Closed (join separator (parts ++ [last])) := by
  induction parts with
  | nil => simpa using h
  | cons part parts ih =>
    rw [List.cons_append, join, List.intercalate_cons_of_ne_nil (by simp)]
    exact ih.append_left _

theorem closed_line {cells : List Str} {columns : List ℕ} {last : Str} {width : ℕ}
    (hlength : cells.length = columns.length) (hlast : Closed last) :
    Closed (line (cells ++ [last]) (columns ++ [width])) := by
  have hleft : Closed (padLeft width last) := hlast.append_left _
  have hright : Closed (padRight width last) :=
    hlast.append_right (onOneLine_replicate (by decide) _)
  rw [line, List.zip_append hlength, List.zipIdx_append, List.map_append]
  refine closed_join_concat ?_ _
  dsimp only
  split
  · exact hright
  · exact hleft

/-- The numbers of a row have no line end in them. -/
theorem onOneLine_mtrLine_iff {hop : MtrHop} (haddress : ∀ text ∈ hop.address, Solid text)
    (rows : List (List Str)) :
    OnOneLine (line (mtrRow hop) (widths rows)) ↔ ∀ name ∈ printedMtrName hop, OnOneLine name := by
  have hnumber (n : ℤ) (suffix : Str) (h : OnOneLine suffix) :
      OnOneLine (concat [Double.decimalInt n, suffix]) := by
    simp only [onOneLine_concat, List.forall_mem_cons]
    exact ⟨(solid_decimalInt n).onOneLine, h, by simp⟩
  have hloss : OnOneLine (concat [hop.lossPercent.format 1 1, "%"]) := by
    simp only [onOneLine_concat, List.forall_mem_cons]
    exact ⟨(solid_format 1 1 _).onOneLine, by decide, by simp⟩
  have htime (x : Option Double) : OnOneLine (formatMs x) := (solid_formatMs x).onOneLine
  rw [onOneLine_line_iff (le_of_eq rfl), ← onOneLine_hostCell_iff haddress]
  constructor
  · intro hcells
    exact hcells _ (List.mem_cons_of_mem _ (List.mem_cons_self ..))
  · intro hhost
    simp only [mtrRow, List.forall_mem_cons]
    exact ⟨hnumber _ _ (by decide), hhost, hloss, (solid_decimalInt _).onOneLine, htime _, htime _,
      htime _, htime _, htime _, by simp⟩

/-- The last number of a row stands at its end. -/
theorem closed_mtrLine (hop : MtrHop) (rows : List (List Str)) :
    Closed (line (mtrRow hop) (widths rows)) := by
  have hlength : (mtrRow hop).dropLast.length = (widths rows).dropLast.length := rfl
  exact closed_line hlength ((solid_formatMs hop.stdDevMs).closed (formatMs_ne_nil _))

/-! ### What is printed of a target

The text of a hostname that was accepted, or that of an address. -/

variable {rt : Runtime} {policy : DestinationPolicy}

/-- A name that was accepted has no white space in it. -/
theorem solid_hostname {input : Option Str} {allowUnderscore : Bool} {name : Str}
    (h : policy.parse rt input allowUnderscore = .ok (.hostname name)) : Solid name := by
  have hsome := (DestinationPolicy.parse_eq_ok_iff.mp h).1
  cases input with
  | none => exact absurd hsome (by simp [Runtime.isNullOrWhiteSpace])
  | some input =>
    have hgrammar := DestinationPolicy.parse_eq_hostname_iff.mp h
    intro c hc
    have hpass := (DestinationPolicy.isHostChar_passes
      (DestinationPolicy.isHostChar_of_label hgrammar.label hc)).2.1
    exact (Bool.or_eq_false_iff.mp hpass).2

theorem solid_destination (haddress : ∀ address, Solid (rt.addressToString address))
    {resolver : IHostResolver} {input : Option Str} {family : IpFamily}
    {es : List (Interaction.Event Work)} {target : ResolvedTarget}
    (h : Interaction.Task.Runs (TargetResolver.resolveAsync rt policy resolver input family) es
      (.ok target)) : Solid target.destination := by
  rcases TargetResolver.resolveAsync_cases h with ⟨_, -, -, he⟩ |
    ⟨address, text, hparse, -, htarget⟩ | ⟨name, lookup, hparse, -, htarget⟩
  · exact absurd he (by simp)
  · rw [htarget target rfl]
    rcases DestinationPolicy.parse_eq_ok_cases hparse with ⟨a, -, heq⟩ | ⟨_, heq⟩
    · obtain ⟨-, rfl⟩ := ParsedDestination.ipAddress.inj heq
      exact haddress a
    · exact absurd heq (by simp)
  · obtain ⟨addresses, -, -, -, hname⟩ := htarget target rfl
    rw [hname]
    exact solid_hostname hparse

theorem onOneLine_label (haddress : ∀ address, Solid (rt.addressToString address))
    {target : ResolvedTarget} (h : Solid target.destination) : OnOneLine (label rt target) := by
  unfold label
  dsimp only
  split
  · exact (haddress _).onOneLine
  · simp only [onOneLine_concat, List.forall_mem_cons]
    exact ⟨h.onOneLine, by decide, (haddress _).onOneLine, by decide, by simp⟩

/-! ### Texts with a line for each hop

The headers are one line each, so the rest of the lines are those of the hops. -/

/-- **One line for each hop** behind the header of a trace, if and only if every name that is
printed is on one line. -/
theorem length_lines_traceroute_iff (haddress : ∀ address, Solid (rt.addressToString address))
    {target : ResolvedTarget} (htarget : Solid target.destination) {hops : List TracerouteHop}
    (hhops : ∀ hop ∈ hops, ∀ text ∈ hop.address, Solid text) (maxHops : ℤ) :
    (lines (traceroute rt target hops maxHops)).length = 1 + hops.length ↔
      ∀ hop ∈ hops, ∀ name ∈ printedName hop, OnOneLine name := by
  have hheader : OnOneLine (concat ["traceroute to ", label rt target, ", ",
      Double.decimalInt maxHops, " hops max"]) := by
    simp only [onOneLine_concat, List.forall_mem_cons]
    exact ⟨by decide, onOneLine_label haddress htarget, by decide, (solid_decimalInt _).onOneLine,
      by decide, by simp⟩
  have hclosed := hheader.closed (c := ofChar 't') (by simp [ofString]) (by decide)
  have hlines : ∀ line ∈ concat ["traceroute to ", label rt target, ", ",
      Double.decimalInt maxHops, " hops max"] :: hops.map tracerouteLine, Closed line := by
    refine List.forall_mem_cons.mpr ⟨hclosed, List.forall_mem_map.mpr fun hop hhop => ?_⟩
    exact closed_tracerouteLine (hhops hop hhop)
  have hcount := length_lines_normalise_iff (List.cons_ne_nil _ _) hlines
  rw [List.length_cons, List.length_map, Nat.add_comm, List.forall_mem_cons, and_iff_right hheader,
    List.forall_mem_map] at hcount
  rw [traceroute, hcount]
  exact forall₂_congr fun hop hhop => onOneLine_tracerouteLine_iff (hhops hop hhop)

/-- **One line for each hop** behind the two headers of a report, if and only if every name that is
printed is on one line. -/
theorem length_lines_mtr_iff (haddress : ∀ address, Solid (rt.addressToString address))
    {target : ResolvedTarget} (htarget : Solid target.destination) {hops : List MtrHop}
    (hhops : ∀ hop ∈ hops, ∀ text ∈ hop.address, Solid text) :
    (lines (mtr rt target hops)).length = 2 + hops.length ↔
      ∀ hop ∈ hops, ∀ name ∈ printedMtrName hop, OnOneLine name := by
  have hheader : OnOneLine (concat ["mtr report to ", label rt target]) := by
    simp only [onOneLine_concat, List.forall_mem_cons]
    exact ⟨by decide, onOneLine_label haddress htarget, by simp⟩
  have hclosed := hheader.closed (c := ofChar 'm') (by simp [ofString]) (by decide)
  have hnames : OnOneLine (line mtrHeader (widths (hops.map mtrRow))) :=
    (onOneLine_line_iff (le_of_eq rfl)).mpr (by decide)
  have hlast : Closed (line mtrHeader (widths (hops.map mtrRow))) := by
    have hlength : mtrHeader.dropLast.length = (widths (hops.map mtrRow)).dropLast.length := rfl
    exact closed_line hlength (Solid.closed (s := "StDev") (by decide) (by decide))
  have hlines : ∀ l ∈ concat ["mtr report to ", label rt target] ::
      line mtrHeader (widths (hops.map mtrRow)) ::
        (hops.map mtrRow).map fun row => line row (widths (hops.map mtrRow)), Closed l := by
    refine List.forall_mem_cons.mpr ⟨hclosed, List.forall_mem_cons.mpr ⟨hlast, ?_⟩⟩
    exact List.forall_mem_map.mpr (List.forall_mem_map.mpr fun hop _ => closed_mtrLine hop _)
  have hcount := length_lines_normalise_iff (List.cons_ne_nil _ _) hlines
  rw [List.length_cons, List.length_cons, List.length_map, List.length_map, Nat.add_assoc,
    Nat.add_comm, List.forall_mem_cons, and_iff_right hheader, List.forall_mem_cons,
    and_iff_right hnames, List.forall_mem_map, List.forall_mem_map] at hcount
  rw [mtr, hcount]
  exact forall₂_congr fun hop hhop => onOneLine_mtrLine_iff (hhops hop hhop) _

end TextRenderer

namespace DnsLookupService

open TextRenderer

variable {rt : Runtime} {policy : DestinationPolicy}

/-! ### Texts with a line for each answer

Three texts of a record are from elsewhere, and the last of them stands at the end of its line. -/

/-- Nothing in the record has a line end in it, but that the value may end in a carriage return. -/
def RecordOnOneLine (record : DnsRecord) : Prop :=
  OnOneLine record.name ∧ OnOneLine record.type ∧ OnOneLine (dropReturn record.value)

instance (record : DnsRecord) : Decidable (RecordOnOneLine record) :=
  inferInstanceAs (Decidable (_ ∧ _ ∧ _))

theorem onOneLine_recordLine_iff (record : DnsRecord) :
    OnOneLine (dropReturn (concat [record.name, ". ", Double.decimalInt record.ttl, " IN ",
      record.type, " ", record.value])) ↔ RecordOnOneLine record := by
  have hline : concat [record.name, ". ", Double.decimalInt record.ttl, " IN ", record.type, " ",
      record.value] =
        concat [record.name, ". ", Double.decimalInt record.ttl, " IN ", record.type] ++
          [ofChar ' '] ++ record.value := by
    simp [ofString]
  have hblank : ofChar ' ' ≠ 0x0d := by decide
  have hdot : OnOneLine ". " := by decide
  have hin : OnOneLine " IN " := by decide
  have hspace : OnOneLine [ofChar ' '] := by decide
  rw [hline, dropReturn_append (by rw [List.getLast?_concat]; simpa using hblank),
    onOneLine_append, onOneLine_append, onOneLine_concat, and_iff_left hspace,
    List.forall_mem_cons, List.forall_mem_cons, List.forall_mem_cons, List.forall_mem_cons,
    List.forall_mem_singleton, and_iff_right hdot, and_iff_right hin,
    and_iff_right (solid_decimalInt record.ttl).onOneLine, RecordOnOneLine, and_assoc]

theorem solid_hex (n : ℕ) : Solid (hex n) := by
  have hdigit : ∀ k < 16, Runtime.isWhiteSpace (ofChar k.digitChar) = false := by decide
  intro c hc
  obtain ⟨k, hk, rfl⟩ := exists_of_mem_hex hc
  exact hdigit k hk

/-- A reverse name has no white space in it. -/
theorem solid_reverseName (address : IPAddress) : Solid (HostResolver.reverseName address) := by
  have hdot : Solid "." := by decide
  unfold HostResolver.reverseName
  split
  · refine solid_concat.mpr (List.forall_mem_cons.mpr ⟨?_, ?_⟩)
    · refine (forall_mem_join hdot).mpr (List.forall_mem_map.mpr fun b _ => ?_)
      exact solid_decimal b.toNat
    · exact List.forall_mem_singleton.mpr (by decide)
  · refine solid_append.mpr ⟨solid_concat.mpr (List.forall_mem_map.mpr fun b _ => ?_), by decide⟩
    simp only [solid_concat, List.forall_mem_cons]
    exact ⟨solid_hex _, hdot, solid_hex _, hdot, by simp⟩

theorem solid_queryName {input : Option Str} {recordType queryName displayName : Str}
    (h : resolveQueryName rt policy input recordType = .ok (queryName, displayName)) :
    Solid queryName := by
  rcases resolveQueryName_eq_ok h with ⟨-, hparse⟩ | ⟨-, address, -, rfl⟩
  · exact solid_hostname hparse
  · exact solid_reverseName address

/-- The status of an answer is printed in capitals. -/
theorem onOneLine_status {recordType status : Str} {result : DnsQueryResult}
    (h : statusOf recordType result = .ok status) : OnOneLine (rt.toUpperInvariant status) := by
  have hstatus : status ∈ [DnsStatuses.ok, DnsStatuses.noData, DnsStatuses.nxDomain] := by
    simp only [statusOf] at h
    split at h
    · simp [← Except.ok.inj h]
    split at h
    · split at h
      · simp [← Except.ok.inj h]
      · simp [← Except.ok.inj h]
    · exact absurd h (by simp)
  have hascii : ∀ s ∈ [DnsStatuses.ok, DnsStatuses.noData, DnsStatuses.nxDomain],
      IsAscii s ∧ OnOneLine (s.map asciiUpper) := by decide
  rw [rt.toUpperInvariant_ascii status (hascii status hstatus).1]
  exact (hascii status hstatus).2

/-- The lines in front of the answers. -/
def questionLines (name recordType : Str) : List Str :=
  [";; QUESTION", concat [name, ". IN ", recordType], [], ";; ANSWER"]

/-- The line behind the answers. -/
def statusLine (rt : Runtime) (status : Str) (elapsedMs : ℤ) : Str :=
  concat [";; STATUS: ", rt.toUpperInvariant status, "  QUERY TIME: ", Double.decimalInt elapsedMs,
    " ms"]

/-- **One line for each answer** between the question and the status, if and only if every record
is on one line. Where there is no answer, one line says so. -/
theorem lines_render_iff {name recordType status : Str} (hname : Solid name)
    (htype : OnOneLine recordType) (hstatus : OnOneLine (rt.toUpperInvariant status))
    (answers : List DnsRecord) (elapsedMs : ℤ) :
    (∃ entries, entries.length = max 1 answers.length ∧
      lines (render rt name recordType status answers elapsedMs) =
        questionLines name recordType ++ entries ++ [[], statusLine rt status elapsedMs]) ↔
      ∀ answer ∈ answers, RecordOnOneLine answer := by
  have hline : OnOneLine (statusLine rt status elapsedMs) := by
    simp only [statusLine, onOneLine_concat, List.forall_mem_cons]
    exact ⟨by decide, hstatus, by decide, (solid_decimalInt _).onOneLine, by decide, by simp⟩
  have hclosed : Closed (statusLine rt status elapsedMs) :=
    hline.closed (c := ofChar 'S') (by simp [statusLine, ofString]) (by decide)
  have hquestion : ∀ line ∈ questionLines name recordType, OnOneLine line := by
    simp only [questionLines, List.forall_mem_cons, onOneLine_concat]
    exact ⟨by decide, ⟨hname.onOneLine, by decide, htype, by simp⟩, by decide, by decide, by simp⟩
  obtain ⟨records, hrender, hrecords⟩ : ∃ records : List Str,
      render rt name recordType status answers elapsedMs = normalise
        (questionLines name recordType ++ records ++ [[]] ++ [statusLine rt status elapsedMs]) ∧
      records = if answers.length = 0 then [ofString "(none)"] else answers.map fun answer =>
        concat [answer.name, ". ", Double.decimalInt answer.ttl, " IN ", answer.type, " ",
          answer.value] := by
    refine ⟨_, ?_, rfl⟩
    rw [List.append_assoc _ [[]]]
    rfl
  have htrim : trimEnd (statusLine rt status elapsedMs) = statusLine rt status elapsedMs := by
    have hend : statusLine rt status elapsedMs = concat [";; STATUS: ", rt.toUpperInvariant status,
        "  QUERY TIME: ", Double.decimalInt elapsedMs, " m"] ++ [ofChar 's'] := by
      simp [statusLine, ofString]
    rw [hend]
    exact List.rdropWhile_concat_neg _ _ _ (by decide)
  have hlines : lines (render rt name recordType status answers elapsedMs) =
      questionLines name recordType ++ records.flatMap shown ++
        [[], statusLine rt status elapsedMs] := by
    rw [hrender, lines_normalise _ hclosed.trimEnd_ne_nil, htrim,
      replaceLineEndings_of_onOneLine hline, lines_of_onOneLine hline, List.flatMap_append,
      List.flatMap_append,
      flatMap_shown_of_onOneLine hquestion, List.append_assoc _ _ [_]]
    rfl
  have hcount : (∃ entries, entries.length = max 1 answers.length ∧
      lines (render rt name recordType status answers elapsedMs) =
        questionLines name recordType ++ entries ++ [[], statusLine rt status elapsedMs]) ↔
      (records.flatMap shown).length = max 1 answers.length := by
    rw [hlines]
    refine ⟨?_, fun hlength => ⟨_, hlength, rfl⟩⟩
    rintro ⟨entries, hlength, heq⟩
    rwa [List.append_cancel_left (List.append_cancel_right heq)]
  have hlength : records.length = max 1 answers.length := by
    rw [hrecords]
    cases answers <;> simp
  rw [hcount, ← hlength, (length_flatMap_shown records).2, hrecords]
  cases answers with
  | nil => exact iff_of_true (by decide) (by simp)
  | cons answer answers =>
    rw [if_neg (by simp), List.forall_mem_map]
    exact forall₂_congr fun record _ => onOneLine_recordLine_iff record

end DnsLookupService

namespace TextRenderer

open DnsLookupService

/-! ### The three texts

All three in one statement, with what is printed of the target as the service has it. -/

/-- **One line for each entry**: a text that lists hops or answers has one line for each of them if
and only if no name that is printed for a hop, and nothing in a record, has a line end in it. -/
theorem entryLines_iff {rt : Runtime} {policy : DestinationPolicy}
    (haddress : ∀ address, Solid (rt.addressToString address))
    {resolver : IHostResolver} {input : Option Str} {family : IpFamily}
    {es : List (Interaction.Event Work)} {target : ResolvedTarget}
    (htarget : Interaction.Task.Runs (TargetResolver.resolveAsync rt policy resolver input family)
      es (.ok target))
    {hops : List TracerouteHop}
    (hhops : ∀ hop ∈ hops, ∀ text ∈ hop.address, ∃ address, text = rt.addressToString address)
    {report : List MtrHop}
    (hreport : ∀ hop ∈ report, ∀ text ∈ hop.address, ∃ address, text = rt.addressToString address)
    {name : Option Str} {recordType queryName displayName : Str}
    (hname : resolveQueryName rt policy name recordType = .ok (queryName, displayName))
    (htype : recordType ∈ DnsRecordTypes.supported) {result : DnsQueryResult} {status : Str}
    (hstatus : statusOf recordType result = .ok status) (maxHops elapsedMs : ℤ) :
    ((lines (traceroute rt target hops maxHops)).length = 1 + hops.length ↔
      ∀ hop ∈ hops, ∀ name ∈ printedName hop, OnOneLine name) ∧
    ((lines (mtr rt target report)).length = 2 + report.length ↔
      ∀ hop ∈ report, ∀ name ∈ printedMtrName hop, OnOneLine name) ∧
    ((∃ entries, entries.length = max 1 result.answers.length ∧
      lines (render rt queryName recordType status result.answers elapsedMs) =
        questionLines queryName recordType ++ entries ++ [[], statusLine rt status elapsedMs]) ↔
      ∀ answer ∈ result.answers, RecordOnOneLine answer) := by
  have hdestination : Solid target.destination := solid_destination haddress htarget
  have hsupported : ∀ type ∈ DnsRecordTypes.supported, OnOneLine type := by decide
  refine ⟨?_, ?_, ?_⟩
  · refine length_lines_traceroute_iff haddress hdestination (fun hop hhop text htext => ?_) maxHops
    obtain ⟨address, rfl⟩ := hhops hop hhop text htext
    exact haddress address
  · refine length_lines_mtr_iff haddress hdestination fun hop hhop text htext => ?_
    obtain ⟨address, rfl⟩ := hreport hop hhop text htext
    exact haddress address
  · exact lines_render_iff (solid_queryName hname) (hsupported recordType htype)
      (onOneLine_status hstatus) result.answers elapsedMs

/-! ### A text in quotes

The value of a text record is printed in quotes as it is. The example is one of a server that puts a
status of its own into it. -/

theorem solid_addressToString_reference (address : IPAddress) :
    Solid (Runtime.reference.addressToString address) := by
  have hdot : Solid "." := by decide
  have hcolon : Solid ":" := by decide
  cases address with
  | v4 bytes =>
    exact (forall_mem_join hdot).mpr (List.forall_mem_map.mpr fun b _ => solid_decimal b.toNat)
  | v6 bytes scopeId =>
    refine solid_append.mpr ⟨(forall_mem_join hcolon).mpr ?_, ?_⟩
    · exact List.forall_mem_map.mpr fun i _ => solid_hex _
    · split
      · decide
      · exact solid_cons.mpr ⟨by decide, solid_decimal _⟩

def exampleTarget : ResolvedTarget := ⟨"8.8.8.8", .v4 (Octets.four 8 8 8 8), .ipv4⟩

theorem runs_exampleTarget (resolver : IHostResolver) :
    Interaction.Task.Runs (TargetResolver.resolveAsync .reference
      (DestinationPolicy.new .reference none none) resolver (some "8.8.8.8") .auto) []
        (.ok exampleTarget) := by
  have hparse : (DestinationPolicy.new .reference none none).parse .reference (some "8.8.8.8")
      false = .ok (.ipAddress (.v4 (Octets.four 8 8 8 8)) "8.8.8.8") := by decide +kernel
  unfold TargetResolver.resolveAsync
  rw [hparse]
  exact Interaction.Task.runs_pure.mpr ⟨rfl, rfl⟩

/-- An answer with one text record. -/
def textAnswer (text : Str) : DnsQueryResult :=
  ⟨"NoError", [⟨"example.com", "TXT", 300, concat ["\"", text, "\""]⟩]⟩

theorem resolveQueryName_example :
    resolveQueryName .reference (DestinationPolicy.new .reference none none) (some "example.com")
      "TXT" = .ok ("example.com", "example.com") := by decide +kernel

/-- A text record with a line feed in it puts a status of its own into the text. -/
theorem not_entryLines_of_feed :
    resolveQueryName .reference (DestinationPolicy.new .reference none none) (some "example.com")
        "TXT" = .ok ("example.com", "example.com") ∧
      statusOf "TXT" (textAnswer (concat ["a", [0x0a], ";; STATUS: NXDOMAIN"])) =
        .ok DnsStatuses.ok ∧
      ¬ ∃ entries, entries.length = 1 ∧
        lines (render .reference "example.com" "TXT" DnsStatuses.ok
          (textAnswer (concat ["a", [0x0a], ";; STATUS: NXDOMAIN"])).answers 12) =
          questionLines "example.com" "TXT" ++ entries ++ [[], statusLine .reference "ok" 12] := by
  refine ⟨resolveQueryName_example, by decide, ?_⟩
  rintro ⟨entries, hlength, hlines⟩
  have hcount := congrArg List.length hlines
  rw [List.length_append, List.length_append, hlength] at hcount
  exact absurd hcount (by decide)

/-- A trace, a report and an answer, each with one entry in plain text. -/
theorem entryLines_iff_of_plain :
    (lines (traceroute .reference exampleTarget
        [⟨1, true, false, some "8.8.4.4", some "dns.google", [], none⟩] 30)).length = 2 ∧
      (lines (mtr .reference exampleTarget
        [⟨1, true, false, some "8.8.4.4", some "dns.google", 0, 10, none, none, none, none,
          none⟩])).length = 3 ∧
      ∃ entries, entries.length = 1 ∧
        lines (render .reference "example.com" "TXT" DnsStatuses.ok
          (textAnswer "v=spf1 -all").answers 12) =
          questionLines "example.com" "TXT" ++ entries ++ [[], statusLine .reference "ok" 12] := by
  have haddress : ofString "8.8.4.4" =
      Runtime.reference.addressToString (.v4 (Octets.four 8 8 4 4)) := by decide
  have hhops : ∀ hop ∈ [(⟨1, true, false, some "8.8.4.4", some "dns.google", [], none⟩ :
      TracerouteHop)], ∀ text ∈ hop.address,
        ∃ address, text = Runtime.reference.addressToString address := by
    simpa using ⟨_, haddress⟩
  have hreport : ∀ hop ∈ [(⟨1, true, false, some "8.8.4.4", some "dns.google", 0, 10, none, none,
      none, none, none⟩ : MtrHop)], ∀ text ∈ hop.address,
        ∃ address, text = Runtime.reference.addressToString address := by
    simpa using ⟨_, haddress⟩
  have hstatus : statusOf "TXT" (textAnswer "v=spf1 -all") = .ok DnsStatuses.ok := by decide
  obtain ⟨htrace, hmtr, hanswer⟩ := entryLines_iff solid_addressToString_reference
    (runs_exampleTarget ⟨fun _ _ => pure [], fun _ => pure none⟩) hhops hreport
    resolveQueryName_example (by decide) hstatus 30 12
  exact ⟨htrace.mpr (by decide), hmtr.mpr (by decide), hanswer.mpr (by decide)⟩

end TextRenderer

end LookingGlass
