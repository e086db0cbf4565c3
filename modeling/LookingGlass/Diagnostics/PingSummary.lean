import LookingGlass.Diagnostics.PingTranscript

/-!
# Reading what `ping` prints

The other two expressions are to find the summary and the statistics of a transcript, and nothing in
the lines before them.

What keeps these apart are a few signs. The percent sign of the summary is the only one with a blank
behind it; an address may have one in front of its zone. The statistics are the only fields with a
slash behind their number.

## How a search is followed

A search goes through all of the text in front of what it finds, so it has to be shown that no match
begins there. The text in front is made of pieces that are not known, addresses and messages, and of
lines of which there may be any number. A match that begins in one piece may end in another one, so
each piece is passed over together with what follows it.

In the summary there may be counts of duplicates and of errors between the replies and the loss. The
expression skips them lazily, up to the first number with a percent sign behind it.

## Main results

* `PingParser.Transcript.search_rttPattern`, `search_summaryPattern` — what the two expressions find
* `PingParser.parse_transcript` — what is printed is what is read
-/

namespace LookingGlass

open Utf16 Numerals

namespace PingParser

open Pattern

/-! ### Statistics

A number behind `=` is a statistic if a slash follows it, and the fields of a reply have blanks
there. -/

theorem rttPattern_of_ne {c : Char16} {s : Str} (h : c ≠ ofChar '=') : rttPattern (c :: s) = [] :=
  literal_bind_of_ne h

/-- A number with a blank behind it is no first statistic. -/
theorem rttPattern_of_blank {x u : Str} (hne : x ≠ []) (hx : ∀ c ∈ x, isDigitOrPoint c = true)
    (hspace : ∀ c ∈ x, isSpace c = false) :
    rttPattern (ofChar '=' :: (x ++ ofChar ' ' :: u)) = [] := by
  refine eq_nil_of_forall fun a rest hmem => ?_
  simp only [rttPattern, mem_bind, mem_literal, mem_many, mem_many1] at hmem
  obtain ⟨_, _, hmid, blanks, _, ⟨rfl, hblanks⟩, min, _, ⟨rfl, -, hmin⟩, _, _, rfl, -⟩ := hmem
  have hread : x ++ ofChar ' ' :: u = blanks ++ (min ++ (ofString "/" ++ _)) :=
    (List.cons.inj hmid).2
  cases blanks with
  | nil =>
    have hstop : ∀ w : Str, (∀ c ∈ w, isDigitOrPoint c = true) →
        ∀ c ∈ w, (!isDigitOrPoint c) = false :=
      fun w hw c hc => by rw [hw c hc]; rfl
    obtain ⟨-, hsign, -⟩ := append_cons_inj (p := fun c => !isDigitOrPoint c) (hstop x hx)
      (hstop min hmin) (by decide) (by decide) hread
    exact absurd hsign (by decide)
  | cons b blanks =>
    obtain ⟨c, x, rfl⟩ := List.exists_cons_of_ne_nil hne
    obtain ⟨rfl, -⟩ := List.cons.inj hread
    exact absurd (hblanks c (List.mem_cons_self ..)) (by simp [hspace c (List.mem_cons_self ..)])

theorem passes_rttPattern {s t : Str} (h : ofChar '=' ∉ s) : Passes rttPattern s t :=
  passes_of_not_mem (fun _ _ => rttPattern_of_ne) h

theorem passes_rttPattern_field {name x u : Str} (hname : ofChar '=' ∉ name) (hne : x ≠ [])
    (hx : ∀ c ∈ x, isDigitOrPoint c = true) (hspace : ∀ c ∈ x, isSpace c = false) :
    Passes rttPattern (name ++ (ofString "=" ++ x)) (ofChar ' ' :: u) := by
  have hnumber : ofChar '=' ∉ x := fun hmem => absurd (hx _ hmem) (by decide)
  exact passes_append.mpr ⟨passes_rttPattern hname,
    passes_cons.mpr ⟨rttPattern_of_blank hne hx hspace, passes_rttPattern hnumber⟩⟩

theorem isDigitOrPoint_int (x : PlainInt) : ∀ c ∈ x.text, isDigitOrPoint c = true :=
  fun c hc => by rw [isDigitOrPoint, isDigitOfAny_int x c hc]; rfl

theorem passes_rttPattern_int {name u : Str} (hname : ofChar '=' ∉ name) (x : PlainInt) :
    Passes rttPattern (name ++ (ofString "=" ++ x.text)) (ofChar ' ' :: u) :=
  passes_rttPattern_field hname x.ne_nil (isDigitOrPoint_int x) (not_isSpace_int x)

theorem passes_rttPattern_line (line : Line) (t : Str) : Passes rttPattern line.text t := by
  have hname : ofChar '=' ∉ line.lead ++ ofString "icmp_seq" := by
    rw [List.mem_append, not_or]
    exact ⟨not_mem_of_isField (isField_lead line), by decide⟩
  have hsplit : line.text = line.lead ++ ofString "icmp_seq" ++ (ofString "=" ++ line.rest) := by
    rw [List.append_assoc]
    rfl
  rw [hsplit]
  cases line with
  | reply r =>
    have hmark : Passes rttPattern
        (ofString " ms" ++ (if r.duplicate then ofString " (DUP!)" else [])) t := by
      refine passes_rttPattern ?_
      cases r.duplicate <;> decide
    have htime : Passes rttPattern (ofString " time=" ++ r.time.text)
        (ofString " ms" ++ (if r.duplicate then ofString " (DUP!)" else []) ++ t) := by
      show Passes rttPattern (ofString " time" ++ (ofString "=" ++ r.time.text)) _
      exact passes_rttPattern_field (by decide) (plain_ne_nil r.time) (isDigitOrPoint_plain r.time)
        (not_isSpace_plain r.time)
    have hend := passes_append.mpr ⟨htime, hmark⟩
    have hfields : (Line.reply r).lead ++ ofString "icmp_seq" ++
      (ofString "=" ++ (Line.reply r).rest) =
        (Line.reply r).lead ++ ofString "icmp_seq" ++ (ofString "=" ++ r.sequence.text) ++
          ((r.ttl.elim [] fun ttl => ofString " ttl=" ++ ttl.text) ++
            (ofString " time=" ++ r.time.text ++
              (ofString " ms" ++ if r.duplicate then ofString " (DUP!)" else []))) := by
      simp only [Line.rest, Reply.fields, List.append_assoc]
    rw [hfields]
    cases r.ttl with
    | none => exact passes_append.mpr ⟨passes_rttPattern_int hname r.sequence, hend⟩
    | some ttl =>
      have httl : Passes rttPattern (ofString " ttl=" ++ ttl.text)
          (ofString " time=" ++ r.time.text ++
            (ofString " ms" ++ (if r.duplicate then ofString " (DUP!)" else [])) ++ t) := by
        show Passes rttPattern (ofString " ttl" ++ (ofString "=" ++ ttl.text)) _
        exact passes_rttPattern_int (by decide) ttl
      exact passes_append.mpr
        ⟨passes_rttPattern_int hname r.sequence, passes_append.mpr ⟨httl, hend⟩⟩
  | failure f =>
    have hmessage : Passes rttPattern (ofString " " ++ f.message.text) t := by
      refine passes_rttPattern ?_
      rw [List.mem_append, not_or]
      exact ⟨by decide, not_mem_of_isField f.message.not_field⟩
    rw [Line.rest, ← List.append_assoc (ofString "="), ← List.append_assoc]
    exact passes_append.mpr ⟨passes_rttPattern_int hname f.sequence, hmessage⟩

theorem passes_rttPattern_lines (lines : List Line) (t : Str) :
    Passes rttPattern (linesText lines) t := by
  induction lines with
  | nil => exact passes_nil
  | cons line lines ih =>
    have hbreak : Passes rttPattern [0x0a] (linesText lines ++ t) := passes_rttPattern (by decide)
    exact passes_append.mpr ⟨passes_append.mpr ⟨passes_rttPattern_line line _, hbreak⟩, ih⟩

/-- **The statistics are what is captured of their line.** -/
theorem head?_rttPattern (a b c d : Plain) (t : Str) :
    (rttPattern (ofString "= " ++ a.text ++ ofString "/" ++ b.text ++ ofString "/" ++ c.text ++
      ofString "/" ++ d.text ++ ofString " ms" ++ t)).head? =
        some ((a.text, b.text, c.text, some d.text), t) := by
  simp only [List.append_assoc]
  show (rttPattern (ofString "=" ++
    ([0x20] ++ (a.text ++ (ofString "/" ++ (b.text ++ (ofString "/" ++
    (c.text ++ (ofString "/" ++ (d.text ++ ([0x20] ++ (ofString "ms" ++ t)))))))))))).head? = _
  unfold rttPattern
  rw [literal_bind]
  refine head?_many_bind (by decide) ?_ ?_
  · obtain ⟨c, rest, htext, hc⟩ := a.exists_cons
    rw [htext]
    exact not_isSpace_of_isDigit hc
  refine head?_many1_bind (plain_ne_nil a) (isDigitOrPoint_plain a) (by rfl) ?_
  rw [literal_bind]
  refine head?_many1_bind (plain_ne_nil b) (isDigitOrPoint_plain b) (by rfl) ?_
  rw [literal_bind]
  refine head?_many1_bind (plain_ne_nil c) (isDigitOrPoint_plain c) (by rfl) ?_
  -- the fourth number is there, so the expression does not end with the third
  rw [optional_bind, List.head?_append, bind_assoc, literal_bind]
  refine (congrArg (Option.or · _) (head?_many1_bind (plain_ne_nil d) (isDigitOrPoint_plain d)
    (by rfl) (head?_many_bind (by decide) rfl ?_))).trans rfl
  rw [literal_bind]
  rfl

/-! ### The summary

The expression begins with a number, and there are numbers everywhere; what it takes to go on is the
text of a summary, and there is one of those. -/

/-- A number with a line break in front of it is no part of a number with blanks behind it. -/
theorem break_not_before_number {number blanks v r : Str} {x : PlainInt}
    (hnumber : ∀ c ∈ number, isDigitOfAny c = true) (hblanks : ∀ c ∈ blanks, isSpace c = true) :
    v ++ 0x0a :: (x.text ++ r) ≠ number ++ blanks := by
  intro hread
  obtain ⟨d, digits, hx⟩ := List.exists_cons_of_ne_nil x.ne_nil
  have hd : isSpace d = false := not_isSpace_int x d (hx ▸ List.mem_cons_self ..)
  have hblank : ∀ u, blanks ≠ u ++ 0x0a :: (x.text ++ r) := by
    rintro u rfl
    exact absurd (hblanks d (by simp [hx])) (by simp [hd])
  rcases List.append_eq_append_iff.mp hread with ⟨u, rfl, hu⟩ | ⟨u, -, hu⟩
  · cases u with
    | nil => exact hblank [] hu.symm
    | cons c u =>
      obtain ⟨rfl, -⟩ := List.cons.inj hu
      exact absurd (hnumber 0x0a (by simp)) (by decide)
  · exact hblank u hu

/-- The text of a summary, behind the end of an earlier line, is no part of a match that begins
there. -/
theorem summary_not_earlier {number blanks between message v z : Str}
    {transmitted received : PlainInt}
    (hnumber : ∀ c ∈ number, isDigitOfAny c = true) (hblanks : ∀ c ∈ blanks, isSpace c = true)
    (hcomma : ofChar ',' ∉ between) (hv : ofChar 'v' ∉ between) (hbreak : 0x0a ∉ message) :
    number ++ blanks ++ ofString "packets transmitted," ++ between ++
      (ofString "received" ++ message) ≠
      v ++ 0x0a :: (transmitted.text ++ ofString " packets transmitted, " ++ received.text ++
        ofString " received" ++ z) := by
  intro hread
  -- the line break is in front of the word `received` of the match
  have hword : 0x0a ∉ ofString "received" ++ message := by
    rw [List.mem_append, not_or]
    exact ⟨by decide, hbreak⟩
  obtain ⟨front, hfront, hrest⟩ := exists_append_of_not_mem hword hread
  -- and this is the word `received` of the summary, since there is no other `v`
  have hnov : ofChar 'v' ∉ number ++ blanks ++ ofString "packets transmitted," ++ between := by
    simp only [List.mem_append, not_or]
    exact ⟨⟨⟨fun hmem => absurd (hnumber _ hmem) (by decide),
      fun hmem => absurd (hblanks _ hmem) (by decide)⟩, by decide⟩, hv⟩
  have hnovFront : ∀ c ∈ front ++ ofString "recei", (c == ofChar 'v') = false := by
    rw [List.forall_mem_append]
    refine ⟨fun c hc => beq_false_of_ne fun heq => hnov ?_, by decide⟩
    rw [hfront, ← heq]
    exact List.mem_append_right _ (List.mem_cons_of_mem _ hc)
  have hnovSummary : ∀ c ∈ transmitted.text ++ ofString " packets transmitted, " ++ received.text ++
      ofString " recei", (c == ofChar 'v') = false := by
    have hint : ∀ x : PlainInt, ∀ c ∈ x.text, (c == ofChar 'v') = false := by
      intro x c hc
      refine beq_false_of_ne ?_
      rintro rfl
      exact absurd (x.isDigit_text _ hc) (by decide)
    simp only [List.forall_mem_append]
    exact ⟨⟨⟨hint transmitted, by decide⟩, hint received⟩, by decide⟩
  have hletter : front ++ ofString "recei" ++ ofChar 'v' :: (ofString "ed" ++ message) =
      transmitted.text ++ ofString " packets transmitted, " ++ received.text ++ ofString " recei" ++
        ofChar 'v' :: (ofString "ed" ++ z) := by
    simp only [List.append_assoc] at hrest ⊢
    exact hrest
  obtain ⟨hword, -⟩ := append_cons_inj hnovFront hnovSummary (by decide) (by decide) hletter
  have hsame : front = transmitted.text ++ ofString " packets transmitted, " ++ received.text ++
      ofString " " := by
    have hcut : front ++ ofString "recei" = transmitted.text ++ ofString " packets transmitted, " ++
        received.text ++ ofString " " ++ ofString "recei" := by
      rw [hword, List.append_assoc _ (ofString " ")]
      rfl
    exact List.append_cancel_right hcut
  -- so the commas are the same too, and the numbers in front of them
  subst hsame
  have hcommaNumber : ofChar ',' ∉ number ++ blanks ++ ofString "packets transmitted" := by
    simp only [List.mem_append, not_or]
    exact ⟨⟨fun hmem => absurd (hnumber _ hmem) (by decide),
      fun hmem => absurd (hblanks _ hmem) (by decide)⟩, by decide⟩
  have hcommas : v ++ 0x0a :: (transmitted.text ++ ofString " packets transmitted") ++
      ofChar ',' :: (ofString " " ++ received.text ++ ofString " ") =
        number ++ blanks ++ ofString "packets transmitted" ++ ofChar ',' :: between := by
    have hsummary : ofString " packets transmitted, " =
        ofString " packets transmitted" ++ ofChar ',' :: ofString " " := by decide
    have hmatch : ofString "packets transmitted," =
        ofString "packets transmitted" ++ [ofChar ','] := by decide
    rw [hsummary, hmatch] at hfront
    simp only [List.append_assoc, List.cons_append, List.nil_append] at hfront ⊢
    exact hfront.symm
  obtain ⟨hnumbers, -⟩ := append_cons_unique hcommaNumber hcomma hcommas
  have hcut : v ++ 0x0a :: (transmitted.text ++ ofString " ") ++ ofString "packets transmitted" =
      number ++ blanks ++ ofString "packets transmitted" := by
    have hblank : ofString " packets transmitted" =
      ofString " " ++ ofString "packets transmitted" := by
      decide
    rw [← hnumbers, hblank]
    simp only [List.append_assoc, List.cons_append]
  exact break_not_before_number hnumber hblanks (List.append_cancel_right hcut)

namespace Transcript

theorem free_extras (t : Transcript) : ∀ c ∈ t.extras, isSign c = false := by
  have hoption : ∀ (n : Option PlainInt) {v w : Str}, (∀ c ∈ v, isSign c = false) →
      (∀ c ∈ w, isSign c = false) →
        ∀ c ∈ (n.elim [] fun n => v ++ n.text ++ w), isSign c = false := by
    intro n v w hv hw
    cases n with
    | none => simp
    | some n =>
      exact List.forall_mem_append.mpr ⟨List.forall_mem_append.mpr ⟨hv, free_int n⟩, hw⟩
  simp only [extras, List.forall_mem_append]
  exact ⟨⟨hoption _ (by decide) (by decide), hoption _ (by decide) (by decide)⟩, by decide⟩

theorem free_counts (t : Transcript) : ∀ c ∈ t.counts, isSign c = false := by
  simp only [counts, List.forall_mem_append]
  exact ⟨⟨⟨⟨⟨free_int t.transmitted, by decide⟩, free_int t.received⟩, by decide⟩, t.free_extras⟩,
    free_plain t.loss⟩

theorem free_remainder (t : Transcript) : ∀ c ∈ t.remainder, isSign c = false := by
  simp only [remainder, List.forall_mem_append]
  exact ⟨⟨by decide, free_int t.time⟩, by decide⟩

theorem isField_rule (t : Transcript) : ∀ c ∈ t.rule, isField c = false := by
  simp only [rule, List.forall_mem_append]
  exact ⟨⟨by decide, t.host.not_field⟩, by decide⟩

theorem isField_header (t : Transcript) :
    ∀ c ∈ ofString "PING " ++ t.header.text ++ [0x0a], isField c = false := by
  simp only [List.forall_mem_append]
  exact ⟨⟨by decide, t.header.not_field⟩, by decide⟩

/-- What stands behind the lines. -/
def closing (t : Transcript) : Str :=
  t.rule ++ (t.counts ++ (ofString "%" ++ (t.remainder ++ t.ending)))

theorem text_eq_closing (t : Transcript) :
    t.text = ofString "PING " ++ t.header.text ++ [0x0a] ++ (linesText t.lines ++ t.closing) := by
  simp only [text, opening, closing, List.append_assoc]

theorem isField_summary (t : Transcript) :
    ∀ c ∈ t.rule ++ (t.counts ++ (ofString "%" ++ t.remainder)), isField c = false := by
  simp only [List.forall_mem_append]
  exact ⟨t.isField_rule, isField_of_free t.free_counts, by decide, isField_of_free t.free_remainder⟩

theorem not_mem_breaks {d : Char16} (hd : d ≠ 0x0a) (n : ℕ) :
    d ∉ List.replicate n (0x0a : Char16) :=
  fun hmem => hd (List.eq_of_mem_replicate hmem)

/-- The only field behind the lines is that of the statistics. -/
theorem calm_closing (t : Transcript) : Calm t.closing := by
  cases hstats : t.statistics with
  | none =>
    left
    have heq : t.closing = t.rule ++ (t.counts ++ (ofString "%" ++ t.remainder)) ++
        List.replicate t.breaks 0x0a := by
      simp only [closing, ending, hstats, Option.elim_none, List.nil_append, List.append_assoc]
    rw [heq]
    exact List.forall_mem_append.mpr ⟨t.isField_summary,
      isField_eq_false (not_mem_breaks (by decide) _) (not_mem_breaks (by decide) _)⟩
  | some s =>
    right
    refine ⟨t.rule ++ (t.counts ++ (ofString "%" ++ t.remainder)) ++
      (0x0a :: ofString "rtt min/avg/max/mdev"), ofString " " ++ s.min.text ++ ofString "/" ++
        s.avg.text ++ ofString "/" ++ s.max.text ++ ofString "/" ++ s.mdev.text ++ ofString " ms" ++
          (s.pipe.elim [] fun n => ofString ", pipe " ++ n.text) ++ List.replicate t.breaks 0x0a,
      ?_, ?_, ?_⟩
    · have hname : ofString "rtt min/avg/max/mdev " =
          ofString "rtt min/avg/max/mdev" ++ ofString " " := by decide
      have hsign : ofString "= " = ofString "=" ++ ofString " " := by decide
      have hblank : ofString " =" = ofString " " ++ ofString "=" := by decide
      simp only [closing, ending, hstats, Option.elim_some, Statistics.text, hname, hsign, hblank,
        List.append_assoc, List.cons_append]
    · exact List.forall_mem_append.mpr ⟨t.isField_summary, by decide⟩
    · have hpipe : ofChar '=' ∉ (s.pipe.elim [] fun n => ofString ", pipe " ++ n.text) := by
        cases s.pipe with
        | none => simp
        | some n =>
          rw [Option.elim_some, List.mem_append, not_or]
          exact ⟨by decide, not_mem_of_free (by decide) (free_int n)⟩
      have hnumber : ∀ x : Plain, ofChar '=' ∉ x.text :=
        fun x => not_mem_of_free (by decide) (free_plain x)
      simp only [List.mem_append, not_or]
      exact ⟨⟨⟨⟨⟨⟨⟨⟨⟨⟨by decide, hnumber _⟩, by decide⟩, hnumber _⟩, by decide⟩,
        hnumber _⟩, by decide⟩, hnumber _⟩, by decide⟩, hpipe⟩, not_mem_breaks (by decide) _⟩

/-- **The replies of a transcript are what the first expression finds.** -/
theorem findAll_replyPattern (t : Transcript) :
    findAll replyPattern t.text = t.lines.filterMap Line.groups := by
  have hlength : ∀ lines, lines.length ≤ (linesText lines).length := by
    intro lines
    induction lines with
    | nil => exact Nat.le_refl 0
    | cons line lines ih =>
      rw [linesText, List.flatMap_cons, List.length_append, List.length_append, List.length_cons]
      have := ih
      rw [linesText] at this
      simp only [List.length_cons, List.length_nil]
      omega
  have hlines : t.lines.length ≤ t.text.length + 1 := by
    have := hlength t.lines
    rw [text_eq_closing]
    simp only [List.length_append]
    omega
  rw [findAll]
  generalize t.text.length + 1 = n at hlines ⊢
  rw [text_eq_closing]
  exact findUpTo_lines t.isField_header t.calm_closing hlines

/-- The transcript up to the statistics. -/
def body (t : Transcript) : Str := t.opening ++ (t.counts ++ (ofString "%" ++ t.remainder))

theorem text_eq_body (t : Transcript) : t.text = t.body ++ t.ending := by
  simp only [text, body, List.append_assoc]

theorem passes_rttPattern_body (t : Transcript) (u : Str) : Passes rttPattern t.body u := by
  have hheader : Passes rttPattern (ofString "PING " ++ t.header.text ++ [0x0a])
      (linesText t.lines ++ (t.rule ++ (t.counts ++ (ofString "%" ++ t.remainder))) ++ u) :=
    passes_rttPattern (not_mem_of_isField t.isField_header)
  have hsummary : Passes rttPattern (t.rule ++ (t.counts ++ (ofString "%" ++ t.remainder))) u :=
    passes_rttPattern (not_mem_of_isField t.isField_summary)
  have heq : t.body = ofString "PING " ++ t.header.text ++ [0x0a] ++ (linesText t.lines ++
      (t.rule ++ (t.counts ++ (ofString "%" ++ t.remainder)))) := by
    simp only [body, opening, List.append_assoc]
  rw [heq]
  exact passes_append.mpr ⟨hheader,
    passes_append.mpr ⟨passes_rttPattern_lines t.lines _, hsummary⟩⟩

/-- **The statistics of a transcript are what the third expression finds.** -/
theorem search_rttPattern (t : Transcript) :
    (search rttPattern t.text).map (·.1) =
      t.statistics.map fun s => (s.min.text, s.avg.text, s.max.text, some s.mdev.text) := by
  rw [text_eq_body]
  cases hstats : t.statistics with
  | none =>
    have hnone : search rttPattern (t.body ++ t.ending) = none := by
      refine search_eq_none (passes_append.mpr
        ⟨t.passes_rttPattern_body _, passes_rttPattern ?_⟩) rfl
      rw [ending, hstats, Option.elim_none, List.nil_append]
      exact not_mem_breaks (by decide) _
    rw [hnone]
    rfl
  | some s =>
    have hname : Passes rttPattern (0x0a :: ofString "rtt min/avg/max/mdev ")
        (ofString "= " ++ s.min.text ++ ofString "/" ++ s.avg.text ++ ofString "/" ++ s.max.text ++
          ofString "/" ++ s.mdev.text ++ ofString " ms" ++
            ((s.pipe.elim [] fun n => ofString ", pipe " ++ n.text) ++
              List.replicate t.breaks 0x0a)) :=
      passes_rttPattern (by decide)
    have heq : t.ending = 0x0a :: ofString "rtt min/avg/max/mdev " ++
        (ofString "= " ++ s.min.text ++ ofString "/" ++ s.avg.text ++ ofString "/" ++ s.max.text ++
          ofString "/" ++ s.mdev.text ++ ofString " ms" ++
            ((s.pipe.elim [] fun n => ofString ", pipe " ++ n.text) ++
              List.replicate t.breaks 0x0a)) := by
      simp only [ending, hstats, Option.elim_some, Statistics.text, List.append_assoc,
        List.cons_append]
    rw [search_append (t.passes_rttPattern_body _), heq, search_append hname,
      search_of_head? (head?_rttPattern s.min s.avg s.max s.mdev _)]
    rfl

/-! The summary. -/

theorem percent_not_mem_statistics (s : Statistics) : ofChar '%' ∉ s.text := by
  have hnumber : ∀ x : Plain, ofChar '%' ∉ x.text :=
    fun x => not_mem_of_free (by decide) (free_plain x)
  have hpipe : ofChar '%' ∉ (s.pipe.elim [] fun n => ofString ", pipe " ++ n.text) := by
    cases s.pipe with
    | none => simp
    | some n =>
      rw [Option.elim_some, List.mem_append, not_or]
      exact ⟨by decide, not_mem_of_free (by decide) (free_int n)⟩
  simp only [Statistics.text, List.mem_append, not_or]
  exact ⟨by decide, ⟨⟨⟨⟨⟨⟨⟨⟨by decide, hnumber _⟩, by decide⟩, hnumber _⟩, by decide⟩, hnumber _⟩,
    by decide⟩, hnumber _⟩, by decide⟩, hpipe⟩

theorem scoped_line (line : Line) : Scoped line.text := by
  have hname : Scoped (ofString "icmp_seq=") := scoped_of_not_mem (by decide)
  cases line with
  | reply r =>
    have httl : Scoped (r.ttl.elim [] fun ttl => ofString " ttl=" ++ ttl.text) := by
      cases r.ttl with
      | none => exact scoped_of_not_mem (by simp)
      | some ttl =>
        exact scoped_append (scoped_of_not_mem (by decide)) (scoped_of_free (free_int ttl))
    have hmark : Scoped (if r.duplicate then ofString " (DUP!)" else []) := by
      cases r.duplicate <;> exact scoped_of_not_mem (by decide)
    have htime : Scoped (ofString " time=" ++ r.time.text ++ ofString " ms") :=
      scoped_append
        (scoped_append (scoped_of_not_mem (by decide)) (scoped_of_free (free_plain r.time)))
        (scoped_of_not_mem (by decide))
    have hlead : Scoped (Line.reply r).lead :=
      scoped_append (scoped_append (scoped_append (scoped_of_free (free_int r.bytes))
        (scoped_of_not_mem (by decide))) r.address.percent) (scoped_of_not_mem (by decide))
    exact scoped_append hlead (scoped_append hname (scoped_append (scoped_append
      (scoped_append (scoped_of_free (free_int r.sequence)) httl) htime) hmark))
  | failure f =>
    have hlead : Scoped (Line.failure f).lead :=
      scoped_append (scoped_append (scoped_of_not_mem (by decide)) f.address.percent)
        (scoped_of_not_mem (by decide))
    exact scoped_append hlead
      (scoped_append hname (scoped_append (scoped_of_free (free_int f.sequence))
      (scoped_append (scoped_of_not_mem (by decide)) f.message.percent)))

theorem scoped_linesText (lines : List Line) : Scoped (linesText lines) := by
  induction lines with
  | nil => exact scoped_of_not_mem (by simp [linesText])
  | cons line lines ih =>
    exact scoped_append (scoped_append (scoped_line line) (scoped_of_not_mem (by decide))) ih

theorem scoped_opening (t : Transcript) : Scoped t.opening := by
  have hheader : Scoped (ofString "PING " ++ t.header.text ++ [0x0a]) :=
    scoped_append (scoped_append (scoped_of_not_mem (by decide)) t.header.percent)
      (scoped_of_not_mem (by decide))
  have hrule : Scoped t.rule :=
    scoped_append (scoped_append (scoped_of_not_mem (by decide)) t.host.percent)
      (scoped_of_not_mem (by decide))
  exact scoped_append hheader (scoped_append (scoped_linesText t.lines) hrule)

/-- A percent sign with white space behind it is the last one, if there is none of them before. -/
theorem eq_of_percent {m front tail u : Str} (hfront : Scoped front) (hu : ofChar '%' ∉ u)
    (htail : ∃ c ∈ tail.head?, isSpace c = true)
    (h : m ++ ofChar '%' :: tail = front ++ ofChar '%' :: u) : m = front := by
  obtain ⟨c, hc, hspace⟩ := htail
  rcases List.append_eq_append_iff.mp h with ⟨w, rfl, hw⟩ | ⟨w, rfl, hw⟩
  · cases w with
    | nil => exact (List.append_nil m).symm
    | cons d w =>
      obtain ⟨rfl, rfl⟩ := List.cons.inj hw
      -- the sign of the match has something else behind it in front of the last one
      obtain ⟨e, he, hword⟩ := hfront m w rfl
      have hsame : (w.append (ofChar '%' :: u)).head? = some e := by
        show (w ++ ofChar '%' :: u).head? = some e
        rw [List.head?_append, Option.mem_def.mp he]
        rfl
      obtain rfl := Option.some.inj (hsame.symm.trans (Option.mem_def.mp hc))
      exact absurd hspace (by simp [hword])
  · cases w with
    | nil => exact List.append_nil front
    | cons d w =>
      obtain ⟨-, rfl⟩ := List.cons.inj hw
      exact absurd (List.mem_append_right w (List.mem_cons_self ..)) hu

/-- The opening ends with a line break, and so does every part of its end. -/
theorem exists_break_of_opening {t : Transcript} {before after : Str} {c : Char16}
    (h : t.opening = before ++ c :: after) : ∃ v, c :: after = v ++ [0x0a] := by
  have hrule : t.opening = ofString "PING " ++ t.header.text ++ [0x0a] ++ (linesText t.lines ++
      (ofString "\n--- " ++ t.host.text ++ ofString " ping statistics ---")) ++ [0x0a] := by
    simp only [opening, rule, List.append_assoc]
    rfl
  refine ⟨(c :: after).dropLast, ?_⟩
  have hlast : (c :: after).getLast? = some 0x0a := by
    have hsame := congrArg List.getLast? (h.symm.trans hrule)
    rwa [List.getLast?_append_of_ne_nil _ (List.cons_ne_nil c after), List.getLast?_append] at hsame
  exact (List.dropLast_append_getLast? 0x0a hlast).symm

/-- **No match of the second expression begins in front of the summary.** -/
theorem passes_summaryPattern (t : Transcript) {u : Str} (hu : ofChar '%' ∉ u) :
    Passes summaryPattern t.opening (t.counts ++ (ofString "%" ++ u)) := by
  intro before c after hsplit
  obtain ⟨v, hv⟩ := exists_break_of_opening hsplit
  have hfront : Scoped (v ++ [0x0a] ++ t.counts) := by
    refine scoped_append (fun p q hpq => ?_) (scoped_of_free t.free_counts)
    refine t.scoped_opening (before ++ p) q ?_
    rw [hsplit, hv, hpq, List.append_assoc]
  rw [hv]
  refine eq_nil_of_forall fun a rest hmem => ?_
  simp only [summaryPattern, mem_bind, mem_literal, mem_many1, mem_lazyMany, mem_optional] at hmem
  obtain ⟨number, _, ⟨hread, -, hnumber⟩, blanks, _, ⟨rfl, -, hblanks⟩, _, _, rfl, blanks₁, _,
    ⟨rfl, -, hblanks₁⟩, replies, _, ⟨rfl, -, hreplies⟩, blanks₂, mid, ⟨rfl, -, hblanks₂⟩,
    found, mid', hfound, _, _, rfl, any, _, ⟨rfl, hany⟩, loss, _, ⟨rfl, -, hloss⟩, _, tail, rfl,
    gap, end', ⟨htail, hgap, hspaces⟩, -⟩ := hmem
  obtain ⟨packets, rfl, hcomma, hletter⟩ : ∃ packets, mid = packets ++ (ofString "received" ++
      (any ++ (loss ++ (ofString "%" ++ tail)))) ∧ ofChar ',' ∉ packets ∧ ofChar 'v' ∉ packets := by
    rcases hfound with ⟨-, rfl⟩ | ⟨blanks₃, -, _, _, rfl, rfl, -, hblanks₃⟩
    · exact ⟨[], rfl, List.not_mem_nil, List.not_mem_nil⟩
    · refine ⟨ofString "packets" ++ blanks₃, (List.append_assoc ..).symm, ?_, ?_⟩ <;>
        rw [List.mem_append, not_or]
      · exact ⟨by decide, fun hmem => absurd (hblanks₃ _ hmem) (by decide)⟩
      · exact ⟨by decide, fun hmem => absurd (hblanks₃ _ hmem) (by decide)⟩
  have hbetween : ∀ d, isSpace d = false → isDigitOfAny d = false → d ∉ packets →
      d ∉ blanks₁ ++ replies ++ blanks₂ ++ packets := by
    intro d hspace hdigit hd
    simp only [List.mem_append, not_or]
    exact ⟨⟨⟨fun hmem => absurd (hblanks₁ d hmem) (by simp [hspace]),
      fun hmem => absurd (hreplies d hmem) (by simp [hdigit])⟩,
      fun hmem => absurd (hblanks₂ d hmem) (by simp [hspace])⟩, hd⟩
  have hbreak : 0x0a ∉ any ++ loss := by
    rw [List.mem_append, not_or]
    exact ⟨fun hmem => absurd (hany _ hmem) (by decide),
      fun hmem => absurd (hloss _ hmem) (by decide)⟩
  have hmatch : number ++ blanks ++ ofString "packets transmitted," ++
      (blanks₁ ++ replies ++ blanks₂ ++ packets) ++ (ofString "received" ++ (any ++ loss)) ++
        ofChar '%' :: tail = v ++ [0x0a] ++ t.counts ++ ofChar '%' :: u := by
    have hsign : ofString "%" = [ofChar '%'] := by decide
    simp only [hsign, List.append_assoc, List.cons_append, List.nil_append] at hread ⊢
    exact hread.symm
  have hspace : ∃ c ∈ tail.head?, isSpace c = true := by
    obtain ⟨c, gap, rfl⟩ := List.exists_cons_of_ne_nil hgap
    exact ⟨c, by rw [htail]; rfl, hspaces c (List.mem_cons_self ..)⟩
  have hsame := eq_of_percent hfront hu hspace hmatch
  have hcounts : v ++ [0x0a] ++ t.counts = v ++ 0x0a :: (t.transmitted.text ++
      ofString " packets transmitted, " ++ t.received.text ++ ofString " received" ++
        (t.extras ++ t.loss.text)) := by
    rw [counts, List.append_assoc _ t.extras, List.append_assoc v]
    rfl
  exact summary_not_earlier hnumber hblanks (hbetween _ (by decide) (by decide) hcomma)
    (hbetween _ (by decide) (by decide) hletter) hbreak (hsame.trans hcounts)

/-- Inside of what stands in front of the loss, no number ends in a percent sign. -/
theorem loss_not_earlier {v w : Str} {c : Char16} {t : Transcript} {u : Str}
    {f : Str → Pattern Char16 (Str × Str × Str)} (h : t.extras = v ++ c :: w) :
    (many1 isDigitOrPoint >>= fun loss => literal (ofString "%") >>= fun _ => f loss)
      (c :: w ++ (t.loss.text ++ (ofString "%" ++ u))) = [] := by
  have hblank : ofChar ' ' ∈ c :: w := by
    have hlast : t.extras.getLast? = some (ofChar ' ') := by
      rw [extras, List.getLast?_append]
      rfl
    rw [h, List.getLast?_append_of_ne_nil _ (List.cons_ne_nil c w)] at hlast
    exact List.mem_of_getLast? hlast
  have hpercent : ofChar '%' ∉ c :: w ++ t.loss.text := by
    rw [List.mem_append, not_or]
    refine ⟨fun hmem => ?_, not_mem_of_free (by decide) (free_plain t.loss)⟩
    exact not_mem_of_free (by decide) t.free_extras (h ▸ List.mem_append_right v hmem)
  refine eq_nil_of_forall fun a rest hmem => ?_
  simp only [mem_bind, mem_many1, mem_literal] at hmem
  obtain ⟨loss, _, ⟨hread, -, hloss⟩, _, tail, rfl, -⟩ := hmem
  have hmatch : c :: w ++ t.loss.text ++ ofChar '%' :: u = loss ++ ofChar '%' :: tail := by
    rw [List.append_assoc]
    exact hread
  have hlossPercent : ofChar '%' ∉ loss := fun hmem => absurd (hloss _ hmem) (by decide)
  obtain ⟨hsame, -⟩ := append_cons_inj
    (p := (· == ofChar '%')) (fun x hx => beq_false_of_ne fun heq => hpercent (heq ▸ hx))
    (fun x hx => beq_false_of_ne fun heq => hlossPercent (heq ▸ hx)) (by decide) (by decide) hmatch
  exact absurd (hloss _ (hsame ▸ List.mem_append_left _ hblank)) (by decide)

/-- **The summary is what the second expression finds.** -/
theorem head?_summaryPattern (t : Transcript) (u : Str) :
    (summaryPattern (t.counts ++ (ofString "%" ++ (t.remainder ++ u)))).head? =
      some ((t.transmitted.text, t.received.text, t.loss.text),
        ofString ", time " ++ t.time.text ++ ofString "ms" ++ u) := by
  have htransmitted : ofString " packets transmitted, " =
      [0x20] ++ (ofString "packets transmitted," ++ [0x20]) := by decide
  have hreceived : ofString " received" = [0x20] ++ ofString "received" := by decide
  have hloss : ofString " packet loss, time " =
      [0x20] ++ (ofString "packet loss" ++ ofString ", time ") :=
    by decide
  simp only [counts, remainder, htransmitted, hreceived, hloss, List.append_assoc]
  unfold summaryPattern
  refine head?_many1_bind t.transmitted.ne_nil (isDigitOfAny_int _) rfl ?_
  refine head?_many1_bind (by decide) (by decide) rfl ?_
  rw [literal_bind]
  refine head?_many1_bind (by decide) (by decide) ?_ ?_
  · obtain ⟨d, digits, htext⟩ := List.exists_cons_of_ne_nil t.received.ne_nil
    rw [htext]
    exact not_isSpace_int t.received d (htext ▸ List.mem_cons_self ..)
  refine head?_many1_bind t.received.ne_nil (isDigitOfAny_int _) rfl ?_
  refine head?_many1_bind (by decide) (by decide) rfl ?_
  rw [optional_bind, bind_of_eq_nil (bind_of_eq_nil rfl), List.nil_append, literal_bind]
  have hbreak : ∀ c ∈ t.extras, isNoLineBreak c = true := by
    intro c hc
    refine bne_iff_ne.mpr fun heq => ?_
    exact not_mem_of_free (by decide) t.free_extras (heq ▸ hc)
  obtain ⟨more, hmore⟩ := lazyMany_bind hbreak fun v c w hsplit => loss_not_earlier hsplit
  rw [hmore, List.head?_append, Option.or_eq_some_iff]
  left
  refine head?_many1_bind (plain_ne_nil t.loss) (isDigitOrPoint_plain t.loss) (by rfl) ?_
  rw [literal_bind]
  refine head?_many1_bind (by decide) (by decide) rfl ?_
  rw [literal_bind]
  rfl

theorem search_summaryPattern (t : Transcript) :
    (search summaryPattern t.text).map (·.1) =
      some (t.transmitted.text, t.received.text, t.loss.text) := by
  have hending : ofChar '%' ∉ t.ending := by
    rw [ending, List.mem_append, not_or]
    refine ⟨?_, not_mem_breaks (by decide) t.breaks⟩
    cases t.statistics with
    | none => simp
    | some s => exact List.not_mem_cons_of_ne_of_not_mem (by decide) (percent_not_mem_statistics s)
  have hpercent : ofChar '%' ∉ t.remainder ++ t.ending := by
    rw [List.mem_append, not_or]
    exact ⟨not_mem_of_free (by decide) t.free_remainder, hending⟩
  rw [text, search_append (t.passes_summaryPattern hpercent),
    search_of_head? (t.head?_summaryPattern t.ending)]
  rfl

end Transcript

theorem readReply_plain (r : Reply) :
    readReply (r.sequence.text, r.ttl.map (·.text), r.time.text) =
      .ok ⟨r.sequence.value, r.ttl.map (·.value), r.time.value⟩ := by
  rw [readReply, parseInt_plain, number, parseDouble_plain]
  cases r.ttl with
  | none => rfl
  | some ttl =>
    rw [Option.map_some, Option.map_some, optionally, parseInt_plain]
    rfl

theorem mapM_readReply (lines : List Line) :
    (lines.filterMap Line.groups).mapM readReply = .ok (Transcript.replies lines) := by
  induction lines with
  | nil => rfl
  | cons line lines ih =>
    cases line with
    | reply r =>
      show List.mapM readReply ((_, _, _) :: lines.filterMap Line.groups) = _
      rw [List.mapM_cons, readReply_plain r, ih]
      rfl
    | failure f => exact ih

theorem readRtt_plain (s : Option Statistics) :
    readRtt (s.map fun s => (s.min.text, s.avg.text, s.max.text, some s.mdev.text)) =
      .ok (s.map (·.min.value), s.map (·.avg.value), s.map (·.max.value),
        s.map (·.mdev.value)) := by
  cases s with
  | none => rfl
  | some s =>
    simp only [Option.map_some, readRtt, optionally, number, parseDouble_plain]
    rfl

/-- **What is printed is what is read.** -/
theorem parse_transcript (t : Transcript) : parse t.text = .ok (some t.raw) := by
  have hreplies : (findAll replyPattern t.text).mapM readReply =
      .ok (Transcript.replies t.lines) := by
    rw [t.findAll_replyPattern, mapM_readReply]
  have hrtt : readRtt (rttOf t.text) =
      .ok (t.raw.minMs, t.raw.avgMs, t.raw.maxMs, t.raw.stdDevMs) := by
    rw [rttOf, t.search_rttPattern, readRtt_plain]
    rfl
  exact (parse_eq_ok_iff t.search_summaryPattern).mpr ⟨_, hreplies, _, _, _, _, hrtt, _,
    parseInt_plain t.transmitted, _, parseInt_plain t.received, _, parseDouble_plain t.loss, rfl⟩

/-- Text without signs as a piece of a line. -/
def Prose.ofFree (text : Str) (h : ∀ c ∈ text, isSign c = false) : Prose :=
  ⟨text, isField_of_free h, scoped_of_free h⟩

example : linesText [.reply ⟨.ofNat 64 (by decide), .ofFree "10.0.0.1" (by decide),
      .ofNat 1 (by decide), some (.ofNat 57 (by decide)),
      ⟨"11", "2", by decide, by decide, by decide⟩,
      false⟩,
    .failure ⟨.ofFree "10.0.0.9" (by decide), .ofNat 2 (by decide),
      .ofFree "Destination Host Unreachable" (by decide)⟩] =
    ofString "64 bytes from 10.0.0.1: icmp_seq=1 ttl=57 time=11.2 ms\n" ++
      ofString "From 10.0.0.9 icmp_seq=2 Destination Host Unreachable\n" := by decide +kernel

end PingParser

end LookingGlass
