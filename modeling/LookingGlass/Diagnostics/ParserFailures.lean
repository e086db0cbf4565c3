import LookingGlass.Diagnostics.Parsers
import Mathlib.Data.List.ReduceOption

/-!
# What the parsers of `ping` and `traceroute` make of any output

A tool may print anything. A probe is to return numbers that are finite, or to fail with a
`LookingGlassException`. Two things get in the way: `int.Parse` and `double.Parse` throw for what
they do not accept, which neither parser handles, and what `double` accepts need not be finite.

`Clean` is the condition on an output and an exit code under which neither of the two happens.

## The condition

The condition speaks of the texts that the expressions have found. For `ping` these are the groups
of the summary, of each reply and of the statistics; for `traceroute` they are the number of each
hop and the tokens in front of `ms`. A text that is to be an integer must be one and fit into 32
bits, and a text that is to be a decimal must be a numeral. An expression finds more than that: `\d`
matches the digits of every script, and `[\d.]` any number of points.

Finiteness matters only where the exit code is one of success. With any other the runner refuses the
output, whatever was read of it.

## Main results

* `PingParser.clean_iff`, `TracerouteParser.clean_iff` — exactly then the output is read, and what
  is returned is finite
-/

namespace LookingGlass

open Utf16 Interaction

/-- A result that is finite, or a `LookingGlassException`. Everything else that a parser may raise
would be answered as an error of the server. -/
def Controlled {α : Type} (isFinite : α → Prop) (r : Except Exn α) : Prop :=
  (∃ value, r = .ok value ∧ isFinite value) ∨ ∃ ex, r = .error (.lookingGlass ex)

section Controlled

variable {α : Type} {isFinite : α → Prop} {value : α}

theorem controlled_ok_iff : Controlled isFinite (.ok value) ↔ isFinite value := by
  constructor
  · rintro (⟨_, heq, hv⟩ | ⟨_, heq⟩)
    · exact Except.ok.inj heq ▸ hv
    · exact absurd heq (by simp)
  · exact fun h => .inl ⟨value, rfl, h⟩

theorem controlled_error {ex : LookingGlassException} :
    Controlled isFinite (.error (.lookingGlass ex)) := .inr ⟨ex, rfl⟩

theorem not_controlled_error {e : Exn} (h : ∀ ex, e ≠ .lookingGlass ex) :
    ¬ Controlled isFinite (.error e) := by
  rintro (⟨_, heq, -⟩ | ⟨ex, heq⟩)
  · exact absurd heq (by simp)
  · exact h ex (Except.error.inj heq)

end Controlled

theorem forall_mem_reduceOption {α : Type} {P : α → Prop} {xs : List (Option α)} :
    (∀ value ∈ xs.reduceOption, P value) ↔ ∀ x ∈ xs, ∀ value ∈ x, P value := by
  simp only [List.reduceOption_mem_iff, Option.mem_def]
  exact ⟨fun h x hx value hvalue => h value (hvalue ▸ hx),
    fun h value hvalue => h _ hvalue value rfl⟩

/-! ### Numerals

The three kinds of texts, and what the readers make of them. -/

/-- A run of digits that `int.Parse` accepts. -/
def IsInteger (s : Str) : Prop := ∃ value, Numerals.parseInt s = .ok value

/-- A text that `double.Parse` accepts. -/
def IsDecimal (s : Str) : Prop := ∃ value, PingParser.number s = .ok value

/-- A text that `double.Parse` reads as a finite number, if it accepts it. Digits may be so many
that the number is out of range, and then it is infinite, and no exception is raised. -/
def IsFiniteDecimal (s : Str) : Prop :=
  ∀ value, PingParser.number s = .ok value → value.isFinite = true

theorem parseInt_ne_lookingGlass {s : Str} :
    Except.FailsOnly (fun e => ∀ ex, e ≠ .lookingGlass ex) (Numerals.parseInt s) := by
  unfold Numerals.parseInt
  split
  · simp
  · split <;> simp

theorem number_ne_lookingGlass {s : Str} :
    Except.FailsOnly (fun e => ∀ ex, e ≠ .lookingGlass ex) (PingParser.number s) := by
  unfold PingParser.number Numerals.parseDouble
  cases Numerals.tryParse true s <;> simp

/-! ### `ping`

Three expressions that search all of the output. Of the one for replies every match counts, wherever
it is. -/

def PingRaw.IsFinite (raw : PingRaw) : Prop :=
  raw.lossPercent.isFinite = true ∧
    (∀ value ∈ [raw.minMs, raw.avgMs, raw.maxMs, raw.stdDevMs].reduceOption,
      value.isFinite = true) ∧
      ∀ reply ∈ raw.replies, reply.timeMs.isFinite = true

namespace PingParser

open Pattern

/-- The texts of the statistics. -/
def rttTexts (groups : Option (Str × Str × Str × Option Str)) : List Str :=
  groups.elim [] fun groups => groups.1 :: groups.2.1 :: groups.2.2.1 :: groups.2.2.2.toList

/-- The texts that are read as integers. -/
def integers (output : Str) : List Str :=
  (summaryOf output).elim [] (fun groups => [groups.1, groups.2.1]) ++
    (findAll replyPattern output).flatMap fun groups => groups.1 :: groups.2.1.toList

/-- The texts that are read as decimals. -/
def decimals (output : Str) : List Str :=
  (summaryOf output).elim [] (fun groups => [groups.2.2]) ++
    (findAll replyPattern output).map (fun groups => groups.2.2) ++
      rttTexts (rttOf output)

/-- Whatever the summary and the other expressions find is a numeral, and if the exit code is one of
success, the decimals are finite. -/
def Clean (result : ProcessResult) : Prop :=
  (summaryOf result.stdOut).isSome = true →
    (∀ s ∈ integers result.stdOut, IsInteger s) ∧ (∀ s ∈ decimals result.stdOut, IsDecimal s) ∧
      (result.exitCode ≤ 1 → ∀ s ∈ decimals result.stdOut, IsFiniteDecimal s)

variable {output : Str}

theorem isFiniteDecimal_iff {s : Str} {value : Double} (h : number s = .ok value) :
    IsFiniteDecimal s ↔ value.isFinite = true :=
  ⟨fun hs => hs value h, fun hv _ h' => Except.ok.inj (h.symm.trans h') ▸ hv⟩

/-! The readers of one match, in terms of the numerals. -/

theorem exists_optionally_iff {α : Type} {read : Str → Except Exn α} {group : Option Str} :
    (∃ value, optionally read group = .ok value) ↔
      ∀ s ∈ group, ∃ value, read s = .ok value := by
  cases group with
  | none => exact iff_of_true ⟨none, rfl⟩ (by simp)
  | some s => simp [optionally, Except.bind_eq_ok, pure, Except.pure]

theorem exists_readReply_iff {groups : Str × Option Str × Str} :
    (∃ reply, readReply groups = .ok reply) ↔
      (∀ s ∈ groups.1 :: groups.2.1.toList, IsInteger s) ∧ IsDecimal groups.2.2 := by
  rw [List.forall_mem_cons]
  simp only [readReply, Except.bind_eq_ok, Option.mem_toList]
  constructor
  · rintro ⟨_, sequence, hsequence, ttl, httl, time, htime, -⟩
    exact ⟨⟨⟨sequence, hsequence⟩, exists_optionally_iff.mp ⟨ttl, httl⟩⟩, time, htime⟩
  · rintro ⟨⟨⟨sequence, hsequence⟩, httl⟩, time, htime⟩
    obtain ⟨ttl, httl⟩ := exists_optionally_iff.mpr httl
    exact ⟨⟨sequence, ttl, time⟩, sequence, hsequence, ttl, httl, time, htime, rfl⟩

theorem timeMs_of_readReply {groups : Str × Option Str × Str} {reply : PingReply}
    (h : readReply groups = .ok reply) : number groups.2.2 = .ok reply.timeMs := by
  simp only [readReply, Except.bind_eq_ok] at h
  obtain ⟨sequence, -, ttl, -, time, htime, hreply⟩ := h
  obtain rfl := Except.ok.inj hreply
  exact htime

theorem exists_readRtt_iff {groups : Option (Str × Str × Str × Option Str)} :
    (∃ stats, readRtt groups = .ok stats) ↔ ∀ s ∈ rttTexts groups, IsDecimal s := by
  cases groups with
  | none => exact iff_of_true ⟨_, rfl⟩ (by simp [rttTexts])
  | some groups =>
    obtain ⟨min, avg, max, dev⟩ := groups
    simp only [rttTexts, Option.elim_some, List.forall_mem_cons, Option.mem_toList, readRtt,
      Except.bind_eq_ok]
    constructor
    · rintro ⟨_, min', hmin, avg', havg, max', hmax, dev', hdev, -⟩
      exact ⟨⟨min', hmin⟩, ⟨avg', havg⟩, ⟨max', hmax⟩, exists_optionally_iff.mp ⟨dev', hdev⟩⟩
    · rintro ⟨⟨min', hmin⟩, ⟨avg', havg⟩, ⟨max', hmax⟩, hdev⟩
      obtain ⟨dev', hdev⟩ := exists_optionally_iff.mpr hdev
      exact ⟨_, min', hmin, avg', havg, max', hmax, dev', hdev, rfl⟩

theorem isFinite_of_readRtt {groups : Option (Str × Str × Str × Option Str)}
    {min avg max dev : Option Double} (h : readRtt groups = .ok (min, avg, max, dev)) :
    (∀ value ∈ [min, avg, max, dev].reduceOption, value.isFinite = true) ↔
      ∀ s ∈ rttTexts groups, IsFiniteDecimal s := by
  cases groups with
  | none =>
    obtain ⟨rfl, rfl, rfl, rfl⟩ : none = min ∧ none = avg ∧ none = max ∧ none = dev := by
      simpa [readRtt] using h
    exact iff_of_true (by simp [List.reduceOption]) (by simp [rttTexts])
  | some groups =>
    obtain ⟨minText, avgText, maxText, devText⟩ := groups
    simp only [readRtt, Except.bind_eq_ok] at h
    obtain ⟨min', hmin, avg', havg, max', hmax, dev', hdev, hend⟩ := h
    obtain ⟨rfl, rfl, rfl, rfl⟩ :
        some min' = min ∧ some avg' = avg ∧ some max' = max ∧ dev' = dev := by
      simpa [pure, Except.pure] using hend
    simp only [rttTexts, Option.elim_some, List.forall_mem_cons, Option.mem_toList,
      isFiniteDecimal_iff hmin, isFiniteDecimal_iff havg, isFiniteDecimal_iff hmax,
      List.reduceOption_cons_of_some]
    refine and_congr_right fun _ => and_congr_right fun _ => and_congr_right fun _ => ?_
    cases devText with
    | none =>
      obtain rfl : none = dev' := by simpa [optionally] using hdev
      simp [List.reduceOption]
    | some text =>
      simp only [optionally, Except.bind_eq_ok] at hdev
      obtain ⟨value, hvalue, hsome⟩ := hdev
      obtain rfl := Except.ok.inj hsome
      simp [List.reduceOption, isFiniteDecimal_iff hvalue]

/-! The parser. -/

theorem failsOnly_parse :
    Except.FailsOnly (fun e => ∀ ex, e ≠ .lookingGlass ex) (parse output) := by
  have hoptionally : ∀ {α : Type} {read : Str → Except Exn α} {group : Option Str},
      (∀ s, Except.FailsOnly (fun e => ∀ ex, e ≠ .lookingGlass ex) (read s)) →
        Except.FailsOnly (fun e => ∀ ex, e ≠ .lookingGlass ex) (optionally read group) := by
    intro α read group hread
    cases group with
    | none => simp [optionally]
    | some s => exact Except.failsOnly_bind.mpr ⟨hread s, fun _ _ => Except.failsOnly_pure _⟩
  have hreply : ∀ groups,
      Except.FailsOnly (fun e => ∀ ex, e ≠ .lookingGlass ex) (readReply groups) := by
    intro groups
    refine Except.failsOnly_bind.mpr ⟨parseInt_ne_lookingGlass, fun _ _ => ?_⟩
    refine Except.failsOnly_bind.mpr ⟨hoptionally fun _ => parseInt_ne_lookingGlass, fun _ _ => ?_⟩
    exact Except.failsOnly_bind.mpr ⟨number_ne_lookingGlass, fun _ _ => Except.failsOnly_pure _⟩
  have hrtt : ∀ groups,
      Except.FailsOnly (fun e => ∀ ex, e ≠ .lookingGlass ex) (readRtt groups) := by
    intro groups
    cases groups with
    | none => simp [readRtt]
    | some groups =>
      simp only [readRtt, Except.failsOnly_bind, Except.failsOnly_pure, implies_true, and_true]
      exact ⟨number_ne_lookingGlass, fun _ _ => ⟨number_ne_lookingGlass, fun _ _ =>
        ⟨number_ne_lookingGlass, fun _ _ => hoptionally fun _ => number_ne_lookingGlass⟩⟩⟩
  unfold parse
  cases search summaryPattern output with
  | none => exact Except.failsOnly_pure _
  | some found =>
    simp only [Except.failsOnly_bind, Except.failsOnly_pure, implies_true, and_true]
    refine ⟨Except.failsOnly_mapM.mpr fun _ groups _ _ _ => hreply groups, fun _ _ => ?_⟩
    exact ⟨hrtt _, fun _ _ => ⟨parseInt_ne_lookingGlass, fun _ _ =>
      ⟨parseInt_ne_lookingGlass, fun _ _ => number_ne_lookingGlass⟩⟩⟩

/-- An output with a summary is read if every numeral of it is one. -/
theorem exists_parse_iff {groups : Str × Str × Str} (h : summaryOf output = some groups) :
    (∃ parsed, parse output = .ok parsed) ↔
      (∀ s ∈ integers output, IsInteger s) ∧ ∀ s ∈ decimals output, IsDecimal s := by
  obtain ⟨transmitted, received, loss⟩ := groups
  have hreplies : (∃ replies, (findAll replyPattern output).mapM readReply = .ok replies) ↔
      (∀ s ∈ (findAll replyPattern output).flatMap (fun groups => groups.1 :: groups.2.1.toList),
        IsInteger s) ∧
      ∀ s ∈ (findAll replyPattern output).map (fun groups => groups.2.2), IsDecimal s := by
    rw [Except.exists_mapM_eq_ok_iff, List.forall_mem_map, List.forall_mem_flatMap, ← forall₂_and]
    exact forall₂_congr fun groups _ => exists_readReply_iff
  rw [integers, decimals, h, Option.elim_some, Option.elim_some, List.forall_mem_append,
    List.forall_mem_append, List.forall_mem_append, List.forall_mem_cons, List.forall_mem_singleton,
    List.forall_mem_singleton, ← exists_readRtt_iff]
  constructor
  · rintro ⟨parsed, hparse⟩
    obtain ⟨replies, hread, min, avg, max, dev, hrtt, t, ht, r, hr, l, hl, -⟩ :=
      (parse_eq_ok_iff h).mp hparse
    obtain ⟨hints, hdecs⟩ := hreplies.mp ⟨replies, hread⟩
    exact ⟨⟨⟨⟨t, ht⟩, ⟨r, hr⟩⟩, hints⟩, ⟨⟨l, hl⟩, hdecs⟩, _, hrtt⟩
  · rintro ⟨⟨⟨⟨t, ht⟩, ⟨r, hr⟩⟩, hints⟩, ⟨⟨l, hl⟩, hdecs⟩, ⟨min, avg, max, dev⟩, hrtt⟩
    obtain ⟨replies, hread⟩ := hreplies.mpr ⟨hints, hdecs⟩
    exact ⟨_, (parse_eq_ok_iff h).mpr
      ⟨replies, hread, min, avg, max, dev, hrtt, t, ht, r, hr, l, hl, rfl⟩⟩

/-- What is read is finite if every decimal of the output is. -/
theorem isFinite_of_parse {groups : Str × Str × Str} {parsed : Option PingRaw}
    (h : summaryOf output = some groups) (hparse : parse output = .ok parsed) :
    ∃ raw, parsed = some raw ∧ (raw.IsFinite ↔ ∀ s ∈ decimals output, IsFiniteDecimal s) := by
  obtain ⟨transmitted, received, loss⟩ := groups
  obtain ⟨replies, hread, min, avg, max, dev, hrtt, t, ht, r, hr, l, hl, rfl⟩ :=
    (parse_eq_ok_iff h).mp hparse
  have hreplies : (∀ reply ∈ replies, reply.timeMs.isFinite = true) ↔
      ∀ s ∈ (findAll replyPattern output).map (fun groups => groups.2.2), IsFiniteDecimal s := by
    have hall := forall₂_of_mapM_eq_ok hread
    rw [List.forall_mem_map]
    clear hread hparse
    generalize findAll replyPattern output = found at hall ⊢
    induction hall with
    | nil => simp
    | cons hfirst _ ih =>
      rw [List.forall_mem_cons, List.forall_mem_cons,
        isFiniteDecimal_iff (timeMs_of_readReply hfirst)]
      exact and_congr_right fun _ => ih
  refine ⟨_, rfl, ?_⟩
  rw [PingRaw.IsFinite, decimals, h, Option.elim_some, List.forall_mem_append,
    List.forall_mem_append, List.forall_mem_singleton, isFiniteDecimal_iff hl, hreplies,
    isFinite_of_readRtt hrtt]
  tauto

theorem clean_iff {result : ProcessResult} :
    Clean result ↔ ∃ parsed, parse result.stdOut = .ok parsed ∧
      (result.exitCode ≤ 1 → ∀ raw ∈ parsed, raw.IsFinite) := by
  rw [Clean]
  cases hsummary : summaryOf result.stdOut with
  | none => exact iff_of_true (by simp) ⟨none, parse_of_none hsummary, by simp⟩
  | some groups =>
    rw [Option.isSome_some, imp_iff_right rfl]
    constructor
    · rintro ⟨hints, hdecs, hfinite⟩
      obtain ⟨parsed, hparse⟩ := (exists_parse_iff hsummary).mpr ⟨hints, hdecs⟩
      obtain ⟨raw, rfl, hraw⟩ := isFinite_of_parse hsummary hparse
      exact ⟨some raw, hparse, fun hexit _ heq => Option.some.inj heq ▸ hraw.mpr (hfinite hexit)⟩
    · rintro ⟨parsed, hparse, hfinite⟩
      obtain ⟨hints, hdecs⟩ := (exists_parse_iff hsummary).mp ⟨parsed, hparse⟩
      obtain ⟨raw, rfl, hraw⟩ := isFinite_of_parse hsummary hparse
      exact ⟨hints, hdecs, fun hexit => hraw.mp (hfinite hexit raw rfl)⟩

end PingParser

/-! ### `traceroute`

Line by line; a line that is not of the form is passed over. -/

def TraceHopRaw.IsFinite (hop : TraceHopRaw) : Prop :=
  ∀ value ∈ hop.rttMs.reduceOption, value.isFinite = true

namespace TracerouteParser

open Pattern

/-- The number and the tokens of a line, if it is the line of a hop. -/
def hopLine (line : Str) : Option (Str × List Str) :=
  (hopPattern (line.rdropWhile (· == 0x0d))).head?.map fun way => (way.1.1, tokens way.1.2)

/-- The numbers among the tokens that stand in front of `ms`. -/
def times : List Str → List Double
  | [] | [_] => []
  | token :: next :: rest =>
    (if token.head? ≠ some (ofChar '!') ∧ next = "ms" then (Numerals.tryParse false token).toList
      else []) ++ times (next :: rest)

/-- The number of every hop is an integer, and if the exit code is zero, its times are finite. -/
def Clean (result : ProcessResult) : Prop :=
  (∀ line ∈ split 0x0a result.stdOut, ∀ hop ∈ hopLine line, IsInteger hop.1) ∧
    (result.exitCode = 0 → ∀ line ∈ split 0x0a result.stdOut, ∀ hop ∈ hopLine line,
      ∀ value ∈ times hop.2, value.isFinite = true)

theorem tryParse_ms : Numerals.tryParse false "ms" = none := by decide +kernel

theorem tryParse_star : Numerals.tryParse false "*" = none := by decide +kernel

theorem times_ms_cons (rest : List Str) : times ("ms" :: rest) = times rest := by
  cases rest with
  | nil => rfl
  | cons next rest =>
    rw [times, tryParse_ms, Option.toList_none, ite_self, List.nil_append]

/-- **The times of a line are the numbers in front of `ms`.** -/
theorem reduceOption_readTokens (rt : Runtime) (address : Option IPAddress)
    (rtts : List (Option Double)) (tokens : List Str) :
    (readTokens rt address rtts tokens).2.reduceOption = rtts.reduceOption ++ times tokens := by
  have hreduce : ∀ (rtts : List (Option Double)) value,
      (rtts ++ [value]).reduceOption = rtts.reduceOption ++ value.toList :=
    fun rtts value => by rw [List.reduceOption_append, List.reduceOption_singleton]
  induction address, rtts, tokens using readTokens.induct rt with
  | case1 address rtts => rw [readTokens, times, List.append_nil]
  | case2 address rtts => rw [readTokens, if_pos rfl, hreduce, times]; rfl
  | case3 address rtts token hstar hmark =>
    rw [readTokens, if_neg hstar, if_pos hmark, times, List.append_nil]
  | case4 address rtts token hstar hmark =>
    rw [readTokens, if_neg hstar, if_neg hmark, times, List.append_nil]
  | case5 address rtts next rest ih =>
    rw [readTokens_star, ih, hreduce, times, tryParse_star, Option.toList_none, ite_self]
    simp
  | case6 address rtts token next rest hstar hmark ih =>
    rw [readTokens_mark hstar hmark, ih, times, if_neg fun h => h.1 hmark, List.nil_append]
  | case7 address rtts token rest hstar hmark rtt hparse ih =>
    rw [readTokens_time hstar hmark hparse, ih, hreduce, times, if_pos ⟨hmark, rfl⟩, hparse,
      times_ms_cons, List.append_assoc]
  | case8 address rtts token next rest hstar hmark rtt hparse hnext ih =>
    rw [readTokens_note hstar hmark (.inr (by simpa using hnext)), ih, times,
      if_neg fun h => hnext h.2, List.nil_append]
  | case9 address rtts token next rest hstar hmark hparse ih =>
    rw [readTokens_note hstar hmark (.inl hparse), ih, times, hparse, Option.toList_none, ite_self,
      List.nil_append]

theorem readLine_eq (rt : Runtime) (line : Str) :
    readLine rt line = match hopLine line with
      | none => .ok none
      | some (hop, tokens) => do
        let hop ← Numerals.parseInt hop
        let (address, rtts) := readTokens rt none [] tokens
        return if rtts.length > 0 ∨ address.isSome then some ⟨hop, address, rtts⟩ else none := by
  unfold readLine hopLine
  cases (hopPattern (line.rdropWhile (· == 0x0d))).head? <;> rfl

theorem exists_readLine_iff {rt : Runtime} {line : Str} :
    (∃ hop, readLine rt line = .ok hop) ↔ ∀ hop ∈ hopLine line, IsInteger hop.1 := by
  rw [readLine_eq]
  cases hopLine line with
  | none => exact iff_of_true ⟨none, rfl⟩ (by simp)
  | some found =>
    simp only [Except.bind_eq_ok, Option.mem_some_iff, forall_eq']
    constructor
    · rintro ⟨_, hop, hhop, -⟩
      exact ⟨hop, hhop⟩
    · rintro ⟨hop, hhop⟩
      exact ⟨_, hop, hhop, rfl⟩

theorem isFinite_of_readLine {rt : Runtime} {line : Str} {found : Option TraceHopRaw}
    (h : readLine rt line = .ok found) :
    (∀ hop ∈ found, hop.IsFinite) ↔
      ∀ hop ∈ hopLine line, ∀ value ∈ times hop.2, value.isFinite = true := by
  rw [readLine_eq] at h
  cases hline : hopLine line with
  | none =>
    rw [hline] at h
    obtain rfl := Except.ok.inj h
    simp
  | some read =>
    obtain ⟨hopText, tokens⟩ := read
    rw [hline] at h
    obtain ⟨hop, -, hend⟩ := Except.bind_eq_ok.mp h
    obtain rfl := Except.ok.inj hend
    have htimes := reduceOption_readTokens rt none [] tokens
    rw [List.reduceOption_nil, List.nil_append] at htimes
    simp only [Option.mem_some_iff, forall_eq', ← htimes]
    -- a line without times and address is left out, and has no times
    split
    · simp only [Option.mem_some_iff, forall_eq', TraceHopRaw.IsFinite]
    · next hempty =>
      have hnil : (readTokens rt none [] tokens).2 = [] :=
        List.eq_nil_of_length_eq_zero (Nat.eq_zero_of_not_pos fun hpos => hempty (.inl hpos))
      simp [hnil]

theorem failsOnly_parse {rt : Runtime} {output : Str} :
    Except.FailsOnly (fun e => ∀ ex, e ≠ .lookingGlass ex) (parse rt output) := by
  refine Except.failsOnly_bind.mpr ⟨Except.failsOnly_mapM.mpr fun _ line _ _ _ => ?_,
    fun _ _ => Except.failsOnly_pure _⟩
  rw [readLine_eq]
  cases hopLine line with
  | none => exact Except.failsOnly_ok _
  | some found =>
    exact Except.failsOnly_bind.mpr ⟨parseInt_ne_lookingGlass, fun _ _ => Except.failsOnly_pure _⟩

theorem exists_parse_iff {rt : Runtime} {output : Str} :
    (∃ hops, parse rt output = .ok hops) ↔
      ∀ line ∈ split 0x0a output, ∀ hop ∈ hopLine line, IsInteger hop.1 := by
  rw [← forall₂_congr fun line _ => @exists_readLine_iff rt line, ← Except.exists_mapM_eq_ok_iff]
  simp only [parse, Except.bind_eq_ok]
  exact ⟨fun ⟨_, hops, hread, _⟩ => ⟨hops, hread⟩, fun ⟨hops, hread⟩ => ⟨_, hops, hread, rfl⟩⟩

theorem isFinite_of_parse {rt : Runtime} {output : Str} {hops : List TraceHopRaw}
    (h : parse rt output = .ok hops) :
    (∀ hop ∈ hops, hop.IsFinite) ↔ ∀ line ∈ split 0x0a output, ∀ hop ∈ hopLine line,
      ∀ value ∈ times hop.2, value.isFinite = true := by
  obtain ⟨read, hread, hend⟩ := Except.bind_eq_ok.mp h
  obtain rfl := Except.ok.inj hend
  have hall := forall₂_of_mapM_eq_ok hread
  clear h hend hread
  generalize split 0x0a output = lines at hall ⊢
  induction hall with
  | nil => simp [List.reduceOption]
  | @cons line found lines read hfirst _ ih =>
    have hcons : (∀ hop ∈ (found :: read).reduceOption, hop.IsFinite) ↔
        (∀ hop ∈ found, hop.IsFinite) ∧ ∀ hop ∈ read.reduceOption, hop.IsFinite := by
      simp only [List.reduceOption_mem_iff, List.mem_cons, or_imp, forall_and, Option.mem_def,
        eq_comm (a := found)]
    rw [hcons, List.forall_mem_cons, isFinite_of_readLine hfirst]
    exact and_congr_right fun _ => ih

theorem clean_iff {rt : Runtime} {result : ProcessResult} :
    Clean result ↔ ∃ hops, parse rt result.stdOut = .ok hops ∧
      (result.exitCode = 0 → ∀ hop ∈ hops, hop.IsFinite) := by
  rw [Clean, ← @exists_parse_iff rt]
  constructor
  · rintro ⟨⟨hops, hparse⟩, hfinite⟩
    exact ⟨hops, hparse, fun hexit => (isFinite_of_parse hparse).mpr (hfinite hexit)⟩
  · rintro ⟨hops, hparse, hfinite⟩
    exact ⟨⟨hops, hparse⟩, fun hexit => (isFinite_of_parse hparse).mp (hfinite hexit)⟩

end TracerouteParser

end LookingGlass
