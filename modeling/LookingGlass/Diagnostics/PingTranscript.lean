import LookingGlass.Diagnostics.Parsers

/-!
# The transcripts of `ping`

A transcript has a header, a line for each reply and each error in the order in which they arrived,
a summary and, if there were replies, their statistics. Three expressions search all of it; this is
about the first of them, which finds the replies.

A reply has its fields behind `=`, and the text of an error has neither `=` nor `<`. So the first of
these signs after the number of an error is that of a later line, and the name in front of it is not
`time`.

## What may stand in a transcript

The pieces that the tool takes from elsewhere are the name of the host, the addresses of those who
answer, and the texts of errors. `Prose` is a text of which two things are known: it has no sign of
a field, and each percent sign in it has something behind it, as the one in front of a zone has. The
numbers are written in plain digits. Otherwise a transcript is arbitrary: replies may be missing,
come twice, or come out of order, and errors may stand between them.

A transcript is data, and its text is a function of it. So what is to be read of a text is known
from the transcript, and that the two agree is a round trip.

## Main results

* `PingParser.findUpTo_lines` — the replies are found one after the other, and nothing between them
-/

namespace LookingGlass

open Utf16 Numerals

namespace PingParser

open Pattern

/-! ### Transcripts

The data, and next to each kind of data how it is printed. -/

/-- The signs behind the name of a field. -/
def isField (c : Char16) : Bool := c == ofChar '=' || c == ofChar '<'

/-- Every percent sign has something behind it that is no white space. -/
def Scoped (s : Str) : Prop :=
  ∀ before after, s = before ++ ofChar '%' :: after → ∃ c ∈ after.head?, isSpace c = false

/-- A piece of a line without fields: an address, or what the system says about an error. -/
structure Prose where
  text : Str
  not_field : ∀ c ∈ text, isField c = false
  percent : Scoped text

structure Reply where
  bytes : PlainInt
  address : Prose
  sequence : PlainInt
  ttl : Option PlainInt
  time : Plain
  duplicate : Bool

structure Failure where
  address : Prose
  sequence : PlainInt
  message : Prose

inductive Line
  | reply (reply : Reply)
  | failure (failure : Failure)

structure Statistics where
  min : Plain
  avg : Plain
  max : Plain
  mdev : Plain
  pipe : Option PlainInt

/-- Everything that a run of `ping` reports, in the order in which it is printed. -/
structure Transcript where
  header : Prose
  lines : List Line
  host : Prose
  transmitted : PlainInt
  received : PlainInt
  duplicates : Option PlainInt
  errors : Option PlainInt
  loss : Plain
  time : PlainInt
  statistics : Option Statistics
  /-- How many line breaks there are at the end. -/
  breaks : ℕ

/-- The fields of a reply, behind the name of the first one. -/
def Reply.fields (reply : Reply) : Str :=
  reply.sequence.text ++ (reply.ttl.elim [] fun ttl => ofString " ttl=" ++ ttl.text) ++
    (ofString " time=" ++ reply.time.text ++ ofString " ms")

/-- A line up to its sequence number. -/
def Line.lead : Line → Str
  | reply r => r.bytes.text ++ ofString " bytes from " ++ r.address.text ++ ofString ": "
  | failure f => ofString "From " ++ f.address.text ++ ofString " "

/-- A line from its sequence number on. -/
def Line.rest : Line → Str
  | reply r => r.fields ++ if r.duplicate then ofString " (DUP!)" else []
  | failure f => f.sequence.text ++ (ofString " " ++ f.message.text)

def Line.text (line : Line) : Str := line.lead ++ (ofString "icmp_seq=" ++ line.rest)

/-- The lines, each with its line break. -/
def linesText (lines : List Line) : Str := lines.flatMap fun line => line.text ++ [0x0a]

namespace Transcript

/-- What stands between the number of replies and the loss. -/
def extras (t : Transcript) : Str :=
  (t.duplicates.elim [] fun n => ofString ", +" ++ n.text ++ ofString " duplicates") ++
    (t.errors.elim [] fun n => ofString ", +" ++ n.text ++ ofString " errors") ++ ofString ", "

/-- The summary up to its percent sign. -/
def counts (t : Transcript) : Str :=
  t.transmitted.text ++ ofString " packets transmitted, " ++ t.received.text ++
    ofString " received" ++ t.extras ++ t.loss.text

/-- The summary behind its percent sign. -/
def remainder (t : Transcript) : Str :=
    ofString " packet loss, time " ++ t.time.text ++ ofString "ms"

end Transcript

def Statistics.text (s : Statistics) : Str :=
  ofString "rtt min/avg/max/mdev " ++ (ofString "= " ++ s.min.text ++ ofString "/" ++ s.avg.text ++
    ofString "/" ++ s.max.text ++ ofString "/" ++ s.mdev.text ++ ofString " ms" ++
      (s.pipe.elim [] fun n => ofString ", pipe " ++ n.text))

namespace Transcript

/-- What stands between the lines and the summary. -/
def rule (t : Transcript) : Str :=
  ofString "\n--- " ++ t.host.text ++ ofString " ping statistics ---\n"

/-- What stands in front of the summary. -/
def opening (t : Transcript) : Str :=
  ofString "PING " ++ t.header.text ++ [0x0a] ++ (linesText t.lines ++ t.rule)

/-- What stands behind the summary. -/
def ending (t : Transcript) : Str :=
  (t.statistics.elim [] fun s => 0x0a :: s.text) ++ List.replicate t.breaks 0x0a

def text (t : Transcript) : Str :=
  t.opening ++ (t.counts ++ (ofString "%" ++ (t.remainder ++ t.ending)))

def replies (lines : List Line) : List PingReply :=
  lines.filterMap fun
    | .reply r => some ⟨r.sequence.value, r.ttl.map (·.value), r.time.value⟩
    | .failure _ => none

/-- What is to be read. -/
def raw (t : Transcript) : PingRaw where
  transmitted := t.transmitted.value
  received := t.received.value
  lossPercent := t.loss.value
  minMs := t.statistics.map (·.min.value)
  avgMs := t.statistics.map (·.avg.value)
  maxMs := t.statistics.map (·.max.value)
  stdDevMs := t.statistics.map (·.mdev.value)
  replies := replies t.lines

end Transcript

/-! ### Signs

A search is stopped by a sign. What has none is passed over. -/

/-- The signs that no number has. -/
def isSign (c : Char16) : Bool := isField c || c == 0x0a || c == ofChar '%'

theorem isSign_of_isDigit {c : Char16} (h : isDigit c = true) : isSign c = false := by
  simp only [isSign, isField, Bool.or_eq_false_iff, beq_eq_false_iff_ne]
  refine ⟨⟨⟨?_, ?_⟩, ?_⟩, ?_⟩ <;> (rintro rfl; exact absurd h (by decide))

theorem free_int (x : PlainInt) : ∀ c ∈ x.text, isSign c = false :=
  fun c hc => isSign_of_isDigit (x.isDigit_text c hc)

theorem free_plain (x : Plain) : ∀ c ∈ x.text, isSign c = false := by
  intro c hc
  rcases Plain.eq_or_isDigit_of_mem hc with rfl | hdigit
  · decide
  · exact isSign_of_isDigit hdigit

theorem not_mem_of_free {d : Char16} {s : Str} (hd : isSign d = true)
    (h : ∀ c ∈ s, isSign c = false) :
    d ∉ s := fun hmem => absurd (h d hmem) (by simp [hd])

theorem isField_of_free {s : Str} (h : ∀ c ∈ s, isSign c = false) : ∀ c ∈ s, isField c = false := by
  intro c hc
  have hsign := h c hc
  simp only [isSign, Bool.or_eq_false_iff] at hsign
  exact hsign.1.1

theorem not_mem_of_isField {s : Str} (hs : ∀ c ∈ s, isField c = false) : ofChar '=' ∉ s :=
  fun hmem => absurd (hs _ hmem) (by decide)

theorem isField_eq_false {s : Str} (heq : ofChar '=' ∉ s) (hlt : ofChar '<' ∉ s) :
    ∀ c ∈ s, isField c = false := by
  intro c hc
  rw [isField, Bool.or_eq_false_iff, beq_eq_false_iff_ne, beq_eq_false_iff_ne]
  exact ⟨fun h => heq (h ▸ hc), fun h => hlt (h ▸ hc)⟩

theorem isField_lead (line : Line) : ∀ c ∈ line.lead, isField c = false := by
  cases line with
  | reply r =>
    simp only [Line.lead, List.forall_mem_append]
    exact ⟨⟨⟨isField_of_free (free_int r.bytes), by decide⟩, r.address.not_field⟩, by decide⟩
  | failure f =>
    simp only [Line.lead, List.forall_mem_append]
    exact ⟨⟨by decide, f.address.not_field⟩, by decide⟩

theorem scoped_of_not_mem {s : Str} (h : ofChar '%' ∉ s) : Scoped s := by
  rintro before after rfl
  exact absurd (List.mem_append_right before (List.mem_cons_self ..)) h

theorem scoped_of_free {s : Str} (h : ∀ c ∈ s, isSign c = false) : Scoped s :=
  scoped_of_not_mem (not_mem_of_free (by decide) h)

theorem scoped_append {s t : Str} (hs : Scoped s) (ht : Scoped t) : Scoped (s ++ t) := by
  intro before after h
  rcases List.append_eq_append_iff.mp h with ⟨u, -, hu⟩ | ⟨u, hu, hafter⟩
  · exact ht u after hu
  · cases u with
    | nil => exact ht [] after hafter.symm
    | cons d u =>
      obtain ⟨rfl, rfl⟩ := List.cons.inj hafter
      obtain ⟨c, hc, hspace⟩ := hs before u hu
      refine ⟨c, ?_, hspace⟩
      show c ∈ (u ++ t).head?
      rw [List.head?_append, Option.mem_def.mp hc]
      rfl

/-- The first field of a text, if it has one, is not called `time` or `ttl`. -/
def NoField (u : Str) : Prop :=
  ∀ v d z, u = v ++ d :: z → (∀ c ∈ v, isField c = false) → isField d = true →
    v.getLast? ≠ some (ofChar 'e') ∧ v.getLast? ≠ some (ofChar 'l')

theorem noField_append_cons {x z : Str} {d : Char16} (hx : ∀ c ∈ x, isField c = false)
    (hd : isField d = true)
    (hlast : x.getLast? ≠ some (ofChar 'e') ∧ x.getLast? ≠ some (ofChar 'l')) :
    NoField (x ++ d :: z) := by
  intro v e z' heq hv he
  obtain ⟨rfl, -⟩ := append_cons_inj hx hv hd he heq
  exact hlast

theorem noField_of_forall {u : Str} (hu : ∀ c ∈ u, isField c = false) : NoField u := by
  rintro v d z rfl - hd
  exact absurd (hu d (by simp)) (by simp [hd])

/-- No match begins at the number of an error. -/
theorem replyPattern_of_noField {u : Str} (h : NoField u) :
    replyPattern (ofString "icmp_seq=" ++ u) = [] := by
  have hdigit : ∀ {w : Str}, (∀ c ∈ w, isDigitOfAny c = true) → ∀ c ∈ w, isField c = false :=
    fun hw => isField_eq_false (fun hmem => absurd (hw _ hmem) (by decide))
      fun hmem => absurd (hw _ hmem) (by decide)
  have hspace : ∀ {w : Str}, (∀ c ∈ w, isSpace c = true) → ∀ c ∈ w, isField c = false :=
    fun hw => isField_eq_false (fun hmem => absurd (hw _ hmem) (by decide))
      fun hmem => absurd (hw _ hmem) (by decide)
  refine eq_nil_of_forall fun a rest hmem => ?_
  simp only [replyPattern, mem_bind, mem_literal, mem_many1, mem_optional, mem_satisfy,
    List.append_cancel_left_eq] at hmem
  obtain ⟨_, mid, rfl, number, _, ⟨rfl, -, hnumber⟩, ttl, mid, httl, hrest⟩ := hmem
  have hfree : ∀ {blanks name : Str}, (∀ c ∈ blanks, isSpace c = true) →
      (∀ c ∈ name, isField c = false) → ∀ c ∈ number ++ (blanks ++ name), isField c = false :=
    fun hblanks hname => List.forall_mem_append.mpr
      ⟨hdigit hnumber, List.forall_mem_append.mpr ⟨hspace hblanks, hname⟩⟩
  rcases httl with ⟨-, rfl⟩ | ⟨_, -, blanks, _, ⟨rfl, -, hblanks⟩, _, tail, rfl, -⟩
  · obtain ⟨blanks, _, ⟨rfl, -, hblanks⟩, _, _, rfl, sign, rest, ⟨rfl, hsign⟩, -⟩ := hrest
    refine (h (number ++ (blanks ++ ofString "time")) sign rest (by simp)
      (hfree hblanks (by decide)) hsign).1 ?_
    rw [List.getLast?_append, List.getLast?_append]
    rfl
  · refine (h (number ++ (blanks ++ ofString "ttl")) (ofChar '=') tail ?_
      (hfree hblanks (by decide)) (by decide)).2 ?_
    · rw [List.append_assoc, List.append_assoc]
      rfl
    · rw [List.getLast?_append, List.getLast?_append]
      rfl

/-- What an expression for replies captures of a line. -/
def Line.groups : Line → Option (Str × Option Str × Str)
  | reply r => some (r.sequence.text, r.ttl.map (·.text), r.time.text)
  | failure _ => none

theorem isDigitOfAny_int (x : PlainInt) : ∀ c ∈ x.text, isDigitOfAny c = true :=
  fun c hc => isDigitOfAny_of_isDigit (x.isDigit_text c hc)

theorem isDigitOrPoint_plain (x : Plain) : ∀ c ∈ x.text, isDigitOrPoint c = true := by
  intro c hc
  rw [isDigitOrPoint, Bool.or_eq_true, beq_iff_eq]
  exact (Plain.eq_or_isDigit_of_mem hc).symm.imp isDigitOfAny_of_isDigit id

theorem plain_ne_nil (x : Plain) : x.text ≠ [] := by
  obtain ⟨c, rest, htext, -⟩ := x.exists_cons
  rw [htext]
  exact List.cons_ne_nil c rest

/-- The part of the expression for replies that is optional. -/
def ttlPattern : Pattern Char16 Str := do
  let _ ← many1 isSpace
  literal (ofString "ttl=")
  many1 isDigitOfAny

/-- The part that follows it. -/
def timePattern (number : Str) (ttl : Option Str) : Pattern Char16 (Str × Option Str × Str) := do
  let _ ← many1 isSpace
  literal (ofString "time")
  let _ ← satisfy fun c => c == ofChar '=' || c == ofChar '<'
  let time ← many1 isDigitOrPoint
  let _ ← many isSpace
  literal (ofString "ms")
  return (number, ttl, time)

theorem replyPattern_eq : replyPattern = literal (ofString "icmp_seq=") >>= fun _ =>
    many1 isDigitOfAny >>= fun number => optional ttlPattern >>= timePattern number := rfl

theorem head?_timePattern (number : Str) (ttl : Option Str) (time : Plain) (t : Str) :
    (timePattern number ttl (ofString " time=" ++ time.text ++ ofString " ms" ++ t)).head? =
      some ((number, ttl, time.text), t) := by
  rw [List.append_assoc, List.append_assoc]
  show ((many1 isSpace >>= _) ([0x20] ++ (ofString "time" ++
    ofChar '=' :: (time.text ++ ([0x20] ++ (ofString "ms" ++ t)))))).head? = _
  refine head?_many1_bind (by decide) (by decide) rfl ?_
  rw [literal_bind, satisfy_bind (by decide)]
  refine head?_many1_bind (plain_ne_nil time) (isDigitOrPoint_plain time) (by rfl) ?_
  refine head?_many_bind (by decide) rfl ?_
  rw [literal_bind]
  rfl

/-- There is no `ttl` in front of the time. -/
theorem ttlPattern_eq_nil (t : Str) : ttlPattern (ofString " time=" ++ t) = [] := by
  show (many1 isSpace >>= _) ([0x20] ++ (ofString "time=" ++ t)) = []
  rw [many1_bind (by decide) (by decide) rfl]
  · rfl
  · intro v s hs
    cases s with
    | nil => rfl
    | cons c s =>
      refine literal_bind_of_ne ?_
      rintro rfl
      exact Bool.false_ne_true hs

/-- The `ttl` is found where it stands, whatever comes after it. -/
theorem head?_ttlPattern_bind {β : Type} {f : Str → Pattern Char16 β} {way : β × Str}
    (ttl : PlainInt)
    {t : Str} (ht : t.head?.any isDigitOfAny = false) (hf : (f ttl.text t).head? = some way) :
    ((ttlPattern >>= f) (ofString " ttl=" ++ ttl.text ++ t)).head? = some way := by
  rw [ttlPattern, bind_assoc, List.append_assoc]
  show ((many1 isSpace >>= _) ([0x20] ++ (ofString "ttl=" ++ (ttl.text ++ t)))).head? = _
  refine head?_many1_bind (by decide) (by decide) rfl ?_
  rw [bind_assoc, literal_bind]
  exact head?_many1_bind ttl.ne_nil (isDigitOfAny_int ttl) ht hf

/-- **The fields of a reply are what is captured of it.** -/
theorem head?_replyPattern (r : Reply) (t : Str) :
    (replyPattern (ofString "icmp_seq=" ++ (r.fields ++ t))).head? =
      some ((r.sequence.text, r.ttl.map (·.text), r.time.text), t) := by
  rw [replyPattern_eq, literal_bind, Reply.fields, List.append_assoc, List.append_assoc]
  refine head?_many1_bind r.sequence.ne_nil (isDigitOfAny_int r.sequence) ?_ ?_
  · cases r.ttl <;> rfl
  rw [optional_bind]
  have htime := fun ttl => head?_timePattern r.sequence.text ttl r.time t
  cases r.ttl with
  | none =>
    rw [Option.elim_none, List.nil_append]
    have hnone : ttlPattern (ofString " time=" ++ r.time.text ++ ofString " ms" ++ t) = [] := by
      rw [List.append_assoc, List.append_assoc]
      exact ttlPattern_eq_nil _
    rw [bind_of_eq_nil hnone]
    exact htime none
  | some ttl =>
    have hsome := @head?_ttlPattern_bind _ (fun value => timePattern r.sequence.text (some value)) _
      ttl _ rfl (htime (some ttl.text))
    rw [Option.elim_some, List.head?_append, hsome]
    rfl

/-! All replies. -/

/-- A text with no field, or with one that has a blank in front of its sign. The statistics at the
end are of the second kind, and a search that looks for fields finds none in them. -/
def Calm (tail : Str) : Prop :=
  (∀ c ∈ tail, isField c = false) ∨ ∃ calm z, tail = calm ++ (ofString " =" ++ z) ∧
    (∀ c ∈ calm, isField c = false) ∧ ofChar '=' ∉ z

theorem linesText_cons (line : Line) (lines : List Line) (t : Str) :
    linesText (line :: lines) ++ t =
      line.lead ++ (ofString "icmp_seq=" ++ (line.rest ++ 0x0a :: (linesText lines ++ t))) := by
  simp only [linesText, List.flatMap_cons, Line.text, List.append_assoc, List.cons_append,
    List.nil_append]

/-- Wherever a text goes on with further lines, the next field is a sequence number. -/
theorem noField_lines {s tail : Str} {lines : List Line} (hs : ∀ c ∈ s, isField c = false)
    (htail : Calm tail) : NoField (s ++ (linesText lines ++ tail)) := by
  cases lines with
  | nil =>
    rcases htail with hall | ⟨calm, z, rfl, hcalm, -⟩
    · exact noField_of_forall (List.forall_mem_append.mpr ⟨hs, hall⟩)
    · have hx : ∀ c ∈ s ++ (calm ++ ofString " "), isField c = false :=
        List.forall_mem_append.mpr ⟨hs, List.forall_mem_append.mpr ⟨hcalm, by decide⟩⟩
      have hblank : (s ++ (calm ++ ofString " ")).getLast? = some (ofChar ' ') := by
        rw [List.getLast?_append, List.getLast?_append]
        rfl
      have heq : s ++ (linesText [] ++ (calm ++ (ofString " =" ++ z))) =
          s ++ (calm ++ ofString " ") ++ ofChar '=' :: z := by
        rw [List.append_assoc, List.append_assoc]
        rfl
      rw [heq]
      exact noField_append_cons hx (by decide) (hblank ▸ by decide)
  | cons line lines =>
    have hx : ∀ c ∈ s ++ (line.lead ++ ofString "icmp_seq"), isField c = false :=
      List.forall_mem_append.mpr ⟨hs, List.forall_mem_append.mpr ⟨isField_lead line, by decide⟩⟩
    have hname : (s ++ (line.lead ++ ofString "icmp_seq")).getLast? = some (ofChar 'q') := by
      rw [List.getLast?_append, List.getLast?_append]
      rfl
    have heq : s ++ (linesText (line :: lines) ++ tail) = s ++ (line.lead ++ ofString "icmp_seq") ++
        ofChar '=' :: (line.rest ++ 0x0a :: (linesText lines ++ tail)) := by
      rw [linesText_cons, List.append_assoc, List.append_assoc]
      rfl
    rw [heq]
    exact noField_append_cons hx (by decide) (hname ▸ by decide)

theorem replyPattern_of_ne {c : Char16} {s : Str} (h : c ≠ ofChar 'i') :
    replyPattern (c :: s) = [] := literal_bind_of_ne h

/-- The search for replies passes over a text without fields in front of a sequence number, or of
anything else that does not go on with its name. -/
theorem passes_replyPattern {s t : Str} (hs : ofChar '=' ∉ s)
    (ht : ∀ c ∈ t.head?, c ∉ (ofString "icmp_seq=").tail) : Passes replyPattern s t :=
  passes_literal_bind (by decide) hs ht

theorem search_replyPattern_of_calm {s tail : Str} (hs : ∀ c ∈ s, isField c = false)
    (htail : Calm tail) : search replyPattern (s ++ tail) = none := by
  refine search_eq_none ?_ rfl
  rcases htail with hall | ⟨calm, z, rfl, hcalm, hz⟩
  · exact passes_replyPattern (not_mem_of_isField (List.forall_mem_append.mpr ⟨hs, hall⟩)) (by simp)
  · have hblank : Passes replyPattern (s ++ calm) (ofString " =" ++ z ++ []) := by
      refine passes_replyPattern ?_ ?_
      · exact not_mem_of_isField (List.forall_mem_append.mpr ⟨hs, hcalm⟩)
      · rintro c hc
        obtain rfl := Option.some.inj hc
        decide
    have hsign : Passes replyPattern (ofString " =") (z ++ []) :=
      passes_of_not_mem (fun _ _ => replyPattern_of_ne) (by decide)
    rw [← List.append_assoc]
    exact passes_append.mpr ⟨hblank, passes_append.mpr ⟨hsign, passes_replyPattern hz (by simp)⟩⟩

/-- **The replies are found one after the other, and nothing between them.** -/
theorem findUpTo_lines {s tail : Str} {lines : List Line} {n : ℕ} (hs : ∀ c ∈ s, isField c = false)
    (htail : Calm tail) (hn : lines.length ≤ n) :
    findUpTo replyPattern n (s ++ (linesText lines ++ tail)) = lines.filterMap Line.groups := by
  induction lines generalizing s n with
  | nil =>
    cases n with
    | zero => rfl
    | succ n =>
      have hnone : search replyPattern (s ++ (linesText [] ++ tail)) = none :=
        search_replyPattern_of_calm hs htail
      rw [findUpTo, hnone]
      rfl
  | cons line lines ih =>
    have hlead : Passes replyPattern (s ++ line.lead)
        (ofString "icmp_seq=" ++ (line.rest ++ 0x0a :: (linesText lines ++ tail))) := by
      refine passes_replyPattern ?_ ?_
      · exact not_mem_of_isField (List.forall_mem_append.mpr ⟨hs, isField_lead line⟩)
      · rintro c hc
        obtain rfl := Option.some.inj hc
        decide
    rw [linesText_cons, ← List.append_assoc, findUpTo_append hlead]
    rw [List.length_cons] at hn
    cases line with
    | reply r =>
      obtain ⟨n, rfl⟩ : ∃ m, n = m + 1 := ⟨n - 1, by omega⟩
      have hmark : ∀ c ∈ (if r.duplicate then ofString " (DUP!)" else []) ++ [0x0a],
          isField c = false := by
        cases r.duplicate <;> decide
      have hnext := ih hmark (Nat.le_of_succ_le_succ hn)
      rw [Line.rest, List.append_assoc, findUpTo_of_head? (head?_replyPattern r _)]
      rw [List.append_assoc, List.singleton_append] at hnext
      rw [hnext]
      rfl
    | failure f =>
      have hrest : ∀ c ∈ f.sequence.text ++ (ofString " " ++ f.message.text) ++ [0x0a],
          isField c = false :=
        List.forall_mem_append.mpr
          ⟨List.forall_mem_append.mpr ⟨isField_of_free (free_int f.sequence),
          List.forall_mem_append.mpr ⟨by decide, f.message.not_field⟩⟩, by decide⟩
      have hlater := @noField_lines _ _ lines hrest htail
      have hnext := ih hrest (Nat.le_of_succ_le hn)
      rw [List.append_assoc, List.singleton_append] at hlater hnext
      have hpass : Passes replyPattern (ofString "icmp_seq=")
          ((Line.failure f).rest ++ 0x0a :: (linesText lines ++ tail)) :=
        passes_cons.mpr ⟨replyPattern_of_noField hlater,
          passes_of_not_mem (fun _ _ => replyPattern_of_ne) (by decide)⟩
      rw [findUpTo_append hpass, Line.rest, hnext]
      rfl

end PingParser

end LookingGlass
