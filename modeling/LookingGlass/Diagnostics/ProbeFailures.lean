import LookingGlass.Diagnostics.MtrFailures

/-!
# How a probe ends

A probe runs its tool, looks at the exit code and parses the output. With a result of the tool at
hand it ends in one way only; the question is for which results this way is a finite result or a
`LookingGlassException`.

## Clean results

A result is what the runner of processes returns: an exit code, two texts and a flag. For each tool
there is a condition on it, in the modules on its parser, and this is where the three conditions are
put to use. The exit code matters in two places. A probe of `ping` takes a code of one for success,
as the tool exits with it when nobody has answered; the others take zero only.

A parser is called before the code is looked at in some cases and after it in others, as the source
has it. So an output that cannot be read may be an exception even though the tool has failed.

## Main results

* `NativeProbeRunner.ends_controlled_iff` — for which outputs and exit codes a probe ends as it is
  meant to
-/

namespace LookingGlass

open Utf16 Interaction

namespace NativeProbeRunner

variable {rt : Runtime} {policy : DestinationPolicy} {settings : DiagnosticsOptions}
  {parseDocument : Str → Option Json} {target : IPAddress}

/-- The call of a tool that leaves a result. -/
def ran (settings : DiagnosticsOptions) (tool : Str) (arguments : List Str)
    (result : ProcessResult) :
    Event Work :=
  ⟨.runProcess tool arguments settings.maxOutputBytes, .ok result⟩

/-- With this result of the tool, the task ends, and in one way only, which has the property. -/
def Ends {α : Type} (settings : DiagnosticsOptions) (tool : Str) (arguments : List Str)
    (result : ProcessResult) (task : Task Work Exn α) (P : Except Exn α → Prop) : Prop :=
  ∃ r, (∀ r', Task.Runs task [ran settings tool arguments result] r' ↔ r' = r) ∧ P r

/-- An unblocked tool run that returns is one call. -/
theorem runs_runAsync_ok_iff {tool : Str} {arguments : List Str} {result : ProcessResult}
    {es : List (Event Work)} (hfree : policy.blocklist.isBlocked target = false) :
    Task.Runs (runAsync policy settings tool arguments target) es (.ok result) ↔
      es = [ran settings tool arguments result] := by
  unfold runAsync
  rw [if_neg (Bool.eq_false_iff.mp hfree), Task.runs_tryCatch]
  constructor
  · rintro (⟨a, hrun, heq⟩ | ⟨fst, e, snd, -, -, hcatch⟩)
    · obtain rfl := Except.ok.inj heq
      exact Work.runs_runAsync hrun
    · cases e <;> exact absurd (Task.runs_throw.mp hcatch).2 (by simp)
  · rintro rfl
    exact .inl ⟨result, Task.runs_call.mpr ⟨.ok result, rfl, rfl⟩, rfl⟩

/-- What follows the tool run starts with the result. -/
theorem runs_ran_iff {α : Type} {tool : Str} {arguments : List Str} {result : ProcessResult}
    {f : ProcessResult → Task Work Exn α} {r : Except Exn α}
    (hfree : policy.blocklist.isBlocked target = false) :
    Task.Runs (runAsync policy settings tool arguments target >>= f)
        [ran settings tool arguments result] r ↔ Task.Runs (f result) [] r := by
  rw [Task.runs_bind]
  constructor
  · rintro (⟨e, hrun, -⟩ | ⟨fst, a, snd, hsplit, hrun, hrest⟩)
    · exact absurd (hrun.unique ((runs_runAsync_ok_iff hfree).mpr rfl)) (by simp)
    · rw [(runs_runAsync_ok_iff hfree).mp hrun] at hsplit
      obtain ⟨hfirst, rfl⟩ := List.cons.inj hsplit
      cases hfirst
      exact hrest
  · exact fun hrest => .inr ⟨_, result, [], rfl, (runs_runAsync_ok_iff hfree).mpr rfl, hrest⟩

theorem exists_fail_eq (rt : Runtime) (result : ProcessResult) :
    ∃ ex, fail rt result = .lookingGlass ex := by
  unfold fail
  split
  · exact ⟨_, rfl⟩
  · exact ⟨_, rfl⟩

theorem ends_ping_iff (hfree : policy.blocklist.isBlocked target = false) (result : ProcessResult) :
    Ends settings settings.tools.ping
      (pingArguments settings target.addressFamily ++ [rt.addressToString target]) result
      (pingAsync rt policy settings (parsers rt parseDocument) target)
      fun r => Controlled PingRaw.IsFinite r ↔ PingParser.Clean result := by
  unfold Ends pingAsync
  simp only [runs_ran_iff hfree, Task.runs_ofExcept_bind, parsers, PingParser.clean_iff]
  obtain ⟨ex, hfail⟩ := exists_fail_eq rt result
  cases hparse : PingParser.parse result.stdOut with
  | error e =>
    refine ⟨.error e, by simp, iff_of_false (not_controlled_error ?_) (by simp)⟩
    exact PingParser.failsOnly_parse e hparse
  | ok parsed =>
    cases parsed with
    | none =>
      exact ⟨.error (fail rt result), by simp, iff_of_true (hfail ▸ controlled_error) (by simp)⟩
    | some raw =>
      by_cases hexit : result.exitCode > 1
      · refine ⟨.error (fail rt result), by simp [hexit], iff_of_true (hfail ▸ controlled_error) ?_⟩
        exact ⟨some raw, rfl, fun hle => absurd hexit (not_lt.mpr hle)⟩
      · refine ⟨.ok raw, by simp [hexit], ?_⟩
        rw [controlled_ok_iff]
        simp [not_lt.mp hexit]

theorem ends_traceroute_iff (hfree : policy.blocklist.isBlocked target = false)
    (result : ProcessResult) :
    Ends settings settings.tools.traceroute
      (tracerouteArguments settings target.addressFamily ++ [rt.addressToString target]) result
      (tracerouteAsync rt policy settings (parsers rt parseDocument) target)
      fun r => Controlled (fun hops => ∀ hop ∈ hops, TraceHopRaw.IsFinite hop) r ↔
        TracerouteParser.Clean result := by
  unfold Ends tracerouteAsync
  simp only [runs_ran_iff hfree, Task.runs_ofExcept_bind, parsers, @TracerouteParser.clean_iff rt]
  obtain ⟨ex, hfail⟩ := exists_fail_eq rt result
  cases hparse : TracerouteParser.parse rt result.stdOut with
  | error e =>
    refine ⟨.error e, by simp, iff_of_false (not_controlled_error ?_) (by simp)⟩
    exact TracerouteParser.failsOnly_parse e hparse
  | ok hops =>
    by_cases hexit : result.exitCode ≠ 0 ∨ hops.length = 0
    · refine ⟨.error (fail rt result), by simp [-List.length_eq_zero_iff, hexit],
        iff_of_true (hfail ▸ controlled_error) ?_⟩
      refine ⟨hops, rfl, fun hzero hop hmem => ?_⟩
      rcases hexit with hne | hempty
      · exact absurd hzero hne
      · exact absurd (List.eq_nil_of_length_eq_zero hempty ▸ hmem) (List.not_mem_nil)
    · refine ⟨.ok hops, by simp [-List.length_eq_zero_iff, hexit], ?_⟩
      rw [controlled_ok_iff]
      simp [not_not.mp (not_or.mp hexit).1]

theorem ends_mtr_iff (hfree : policy.blocklist.isBlocked target = false) (result : ProcessResult) :
    Ends settings settings.tools.mtr
      (mtrArguments settings target.addressFamily ++ [rt.addressToString target]) result
      (mtrAsync rt policy settings (parsers rt parseDocument) target)
      fun r => Controlled MtrRaw.IsFinite r ↔ MtrParser.Clean rt parseDocument result := by
  unfold Ends mtrAsync
  simp only [runs_ran_iff hfree, parsers, MtrParser.Clean]
  obtain ⟨ex, hfail⟩ := exists_fail_eq rt result
  by_cases hexit : result.exitCode ≠ 0
  · refine ⟨.error (fail rt result), by simp [hexit], iff_of_true (hfail ▸ controlled_error) ?_⟩
    exact fun hzero => absurd hzero hexit
  · refine ⟨MtrParser.parse rt parseDocument result.stdOut, by simp [hexit], ?_⟩
    rw [MtrParser.controlled_parse_iff, imp_iff_right (not_not.mp hexit)]

/-- **For a target that is not blocked, the three probes return finite numbers or throw a
`LookingGlassException`, whatever their tool leaves, if and only if what it leaves is clean.** -/
theorem ends_controlled_iff (rt : Runtime) (policy : DestinationPolicy)
    (settings : DiagnosticsOptions) (parseDocument : Str → Option Json) (target : IPAddress)
    (hfree : policy.blocklist.isBlocked target = false) (result : ProcessResult) :
    Ends settings settings.tools.ping
        (pingArguments settings target.addressFamily ++ [rt.addressToString target]) result
        (pingAsync rt policy settings (parsers rt parseDocument) target)
        (fun r => Controlled PingRaw.IsFinite r ↔ PingParser.Clean result) ∧
      Ends settings settings.tools.traceroute
        (tracerouteArguments settings target.addressFamily ++ [rt.addressToString target]) result
        (tracerouteAsync rt policy settings (parsers rt parseDocument) target)
        (fun r => Controlled (fun hops => ∀ hop ∈ hops, TraceHopRaw.IsFinite hop) r ↔
          TracerouteParser.Clean result) ∧
      Ends settings settings.tools.mtr
        (mtrArguments settings target.addressFamily ++ [rt.addressToString target]) result
        (mtrAsync rt policy settings (parsers rt parseDocument) target)
        (fun r => Controlled MtrRaw.IsFinite r ↔ MtrParser.Clean rt parseDocument result) :=
  ⟨ends_ping_iff hfree result, ends_traceroute_iff hfree result, ends_mtr_iff hfree result⟩

/-- An output of `ping` with a number of packets that is no `int`. -/
def manyPackets : ProcessResult :=
  ⟨0, "99999999999 packets transmitted, 1 received, 0% packet loss", "", false⟩

/-- The probe of a public address. -/
def pingPublic : Task Work Exn PingRaw :=
  pingAsync Runtime.reference (DestinationPolicy.new Runtime.reference none none) {}
    (parsers Runtime.reference fun _ => none) (.v4 (Octets.four 8 8 8 8))

theorem isBlocked_public : (DestinationPolicy.new Runtime.reference none none).blocklist.isBlocked
    (.v4 (Octets.four 8 8 8 8)) = false := by decide +kernel

theorem ends_controlled_iff_of_public :
    (DestinationPolicy.new Runtime.reference none none).blocklist.isBlocked
        (.v4 (Octets.four 8 8 8 8)) = false ∧
      Ends {} "/usr/bin/ping" (pingArguments {} .interNetwork ++ [ofString "8.8.8.8"]) manyPackets
        pingPublic
        fun r => Controlled PingRaw.IsFinite r ↔ PingParser.Clean manyPackets :=
  ⟨isBlocked_public, (ends_controlled_iff Runtime.reference
    (DestinationPolicy.new Runtime.reference none none) {} (fun _ => none)
    (.v4 (Octets.four 8 8 8 8)) isBlocked_public manyPackets).1⟩

/-- An `OverflowException` leaves the runner. -/
theorem overflow_escapes :
    Task.Runs pingPublic
        [ran {} "/usr/bin/ping" (pingArguments {} .interNetwork ++ [ofString "8.8.8.8"])
          manyPackets]
        (.error .other) ∧
      ¬ Controlled PingRaw.IsFinite (.error .other) := by
  have hparse : PingParser.parse manyPackets.stdOut = .error .other := by rfl
  refine ⟨(runs_ran_iff isBlocked_public).mpr ?_, not_controlled_error (by simp)⟩
  exact Task.runs_ofExcept_bind.mpr (.inl ⟨_, hparse, rfl, rfl⟩)

end NativeProbeRunner

end LookingGlass
