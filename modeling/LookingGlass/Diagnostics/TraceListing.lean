import LookingGlass.Diagnostics.Parsers
import Mathlib.Data.List.ReduceOption

/-!
# Reading what `traceroute` prints

A listing has a header and one line for each hop. On the line of a hop stand its number and then,
for each probe, a star if it was lost; otherwise the address, unless it is the one that answered
last, the time with its unit, and an annotation if there is one. Blanks separate the tokens.

The loop over the tokens looks one token ahead, and it drops what it cannot place. So what it has
read at any point of a line has to be what was printed up to there: the invariant is about a whole
run of probes, with the address that answered last on the printer's side and the first one on the
reader's.

## Who has answered

The address is printed when it changes. So a hop whose probes were answered by two routers has two
addresses on its line, and the reader keeps the first: a hop has one address in the result. If two
routers take turns, there is an address in front of each time. A lost probe in between does not
count as a change.

The annotations are dropped. What distinguishes an annotation from an address is its exclamation
mark, and what distinguishes an address is that the runtime can read it, for which a point or a
colon has to be in it. Of the runtime no more is assumed than that it reads the addresses of the
listing as they are printed there.

## Main results

* `TracerouteParser.parse_listing` — the hops that are printed are the hops that are read
-/

namespace LookingGlass

open Utf16

namespace TracerouteParser

open Pattern

/-! ### Listings

What the tool may print, as data: any number of hops, with any number of probes, of which any may be
lost. -/

/-- A note about an answer, like `!H`. -/
structure Flag where
  text : Str
  mark : text.head? = some (ofChar '!')
  not_space : ∀ c ∈ text, isSpace c = false

/-- An answer to a probe: who has answered, after what time, and possibly with an annotation. -/
structure Answer where
  address : IPAddress
  rtt : Numerals.Plain
  flag : Option Flag

/-- A hop with its probes, `none` for a lost one. -/
structure Hop where
  number : Numerals.PlainInt
  probes : List (Option Answer)
  probes_ne_nil : probes ≠ []

/-- What is to be read of a hop: every time in order, and the address of the first answer. -/
def Hop.raw (hop : Hop) : TraceHopRaw where
  hop := hop.number.value
  address := hop.probes.reduceOption.head?.map (·.address)
  rttMs := hop.probes.map fun probe => probe.map (·.rtt.value)

section Printing

variable (printAddress : IPAddress → Str)

def Answer.tokens (previous : Option IPAddress) (answer : Answer) : List Str :=
  (if previous = some answer.address then [] else [printAddress answer.address]) ++
    answer.rtt.text :: ofString "ms" :: (answer.flag.map (·.text)).toList

/-- The tokens of the probes, behind an answer of the previous address. -/
def probeTokens : Option IPAddress → List (Option Answer) → List Str
  | _, [] => []
  | previous, none :: probes => ofString "*" :: probeTokens previous probes
  | previous, some answer :: probes =>
    answer.tokens printAddress previous ++ probeTokens (some answer.address) probes

/-- A text with these tokens, each behind one blank or more. -/
inductive Spaced : List Str → Str → Prop
  | nil : Spaced [] []
  | cons (blanks : ℕ) (token : Str) {tokens : List Str} {text : Str} (h : Spaced tokens text) :
    Spaced (token :: tokens) (List.replicate (blanks + 1) 0x20 ++ (token ++ text))

/-- A line of a hop. -/
def IsHopLine (hop : Hop) (line : Str) : Prop :=
  ∃ indent text, Spaced (probeTokens printAddress none hop.probes) text ∧
    line = List.replicate indent 0x20 ++ (hop.number.text ++ text)

/-- A header, and under it the lines of the hops. -/
def IsListing (hops : List Hop) (output : Str) : Prop :=
  ∃ target lines stop, 0x0a ∉ target ∧ List.Forall₂ (IsHopLine printAddress) hops lines ∧
    (stop = [] ∨ stop = [0x0a]) ∧
      output = ofString "traceroute to " ++ target ++ (lines.flatMap (0x0a :: ·) ++ stop)

/-- The text of an address is a token with a point or a colon, which `IPAddress.TryParse` reads.
Nothing is assumed about texts of addresses that are not in the listing. -/
structure Prints (rt : Runtime) (address : IPAddress) : Prop where
  tryParseAddress : rt.tryParseAddress (printAddress address) = some address
  separated : ofChar '.' ∈ printAddress address ∨ ofChar ':' ∈ printAddress address
  not_mark : (printAddress address).head? ≠ some (ofChar '!')
  not_space : ∀ c ∈ printAddress address, isSpace c = false

end Printing

/-! ### The tokens of a hop

The loop over the tokens, from any point of a line on. The address that has been noted is arbitrary,
except that once there was an answer there is one. -/

section Tokens

variable {rt : Runtime} {printAddress : IPAddress → Str} {address previous : Option IPAddress}
  {rtts : List (Option Double)} {rest : List Str}

theorem note_of_prints {a : IPAddress} (h : Prints printAddress rt a) :
    note rt address (printAddress a) = address.or (some a) := by
  have hsign : ((printAddress a).contains (ofChar '.') || (printAddress a).contains (ofChar ':')) =
      true := by
    rw [Bool.or_eq_true, List.contains_iff_mem, List.contains_iff_mem]
    exact h.separated
  rw [note, if_pos hsign, h.tryParseAddress]

theorem ne_star_of_prints {a : IPAddress} (h : Prints printAddress rt a) :
    printAddress a ≠ "*" := by
  intro hstar
  have := h.separated
  rw [hstar] at this
  exact absurd this (by decide)

/-- A time begins with a digit. -/
theorem rtt_text_ne (x : Numerals.Plain) : x.text ≠ "*" ∧ x.text ≠ ofString "ms" ∧
    x.text.head? ≠ some (ofChar '!') := by
  obtain ⟨c, rest, htext, hc⟩ := x.exists_cons
  rw [htext]
  refine ⟨?_, ?_, ?_⟩
  · rintro h
    obtain ⟨rfl, -⟩ := List.cons.inj h
    exact absurd hc (by decide)
  · rintro h
    obtain ⟨rfl, -⟩ := List.cons.inj h
    exact absurd hc (by decide)
  · rintro h
    obtain rfl := Option.some.inj h
    exact absurd hc (by decide)

theorem ne_star_of_mark {token : Str} (h : token.head? = some (ofChar '!')) : token ≠ "*" := by
  rintro rfl
  exact absurd h (by decide)

/-- The time of an answer and its annotation. -/
theorem readTokens_rtt (answer : Answer) :
    readTokens rt address rtts
        (answer.rtt.text :: ofString "ms" :: ((answer.flag.map (·.text)).toList ++ rest)) =
      readTokens rt address (rtts ++ [some answer.rtt.value]) rest := by
  obtain ⟨hstar, -, hmark⟩ := rtt_text_ne answer.rtt
  rw [readTokens_time hstar hmark (Numerals.tryParse_plain false answer.rtt)]
  cases answer.flag with
  | none => rfl
  | some flag => exact readTokens_mark (ne_star_of_mark flag.mark) flag.mark

theorem readTokens_answer {answer : Answer} (h : Prints printAddress rt answer.address)
    (hprevious : previous.isSome = true → address.isSome = true) :
    readTokens rt address rtts (answer.tokens printAddress previous ++ rest) =
      readTokens rt (address.or (some answer.address)) (rtts ++ [some answer.rtt.value]) rest := by
  rw [Answer.tokens, List.append_assoc, List.cons_append, List.cons_append]
  split
  · next heq =>
    -- the address is not printed, but then one has been read before
    obtain ⟨a, rfl⟩ := Option.isSome_iff_exists.mp (hprevious (by rw [heq]; rfl))
    exact readTokens_rtt answer
  · rw [List.singleton_append, readTokens_note (ne_star_of_prints h) h.not_mark, note_of_prints h,
      readTokens_rtt]
    exact .inr fun heq => (rtt_text_ne answer.rtt).2.1 (Option.some.inj heq)

/-- **What is read of a run of probes, wherever it stands on the line.** -/
theorem readTokens_probes {probes : List (Option Answer)}
    (h : ∀ answer ∈ probes.reduceOption, Prints printAddress rt answer.address)
    (hprevious : previous.isSome = true → address.isSome = true) :
    readTokens rt address rtts (probeTokens printAddress previous probes) =
      (address.or (probes.reduceOption.head?.map (·.address)),
        rtts ++ probes.map fun probe => probe.map (·.rtt.value)) := by
  induction probes generalizing previous address rtts with
  | nil => simp [probeTokens, readTokens]
  | cons probe probes ih =>
    cases probe with
    | none =>
      rw [List.reduceOption_cons_of_none] at h ⊢
      rw [probeTokens, readTokens_star, ih h hprevious, List.append_assoc]
      rfl
    | some answer =>
      rw [List.reduceOption_cons_of_some] at h ⊢
      obtain ⟨hfirst, hrest⟩ := List.forall_mem_cons.mp h
      rw [probeTokens, readTokens_answer hfirst hprevious, ih hrest fun _ => by simp]
      cases address <;> simp

end Tokens

/-! ### The line of a hop

Splitting gives back the tokens of which a line is made, since none of them is empty or has white
space in it. -/

section Lines

variable {rt : Runtime} {printAddress : IPAddress → Str}

theorem isSpace_of_mem_replicate {n : ℕ} {c : Char16} (h : c ∈ List.replicate n (0x20 : Char16)) :
    isSpace c = true := by
  rw [List.eq_of_mem_replicate h]
  decide

theorem tokens_blank (text : Str) : tokens (0x20 :: text) = tokens text := by
  have hsplit : split 0x20 (0x20 :: text) = [] :: split 0x20 text :=
    List.splitOn_append_cons_self_of_not_mem (List.not_mem_nil) text
  rw [tokens, hsplit, List.filter_cons_of_neg (by simp), tokens]

theorem tokens_blanks (n : ℕ) (text : Str) :
    tokens (List.replicate n 0x20 ++ text) = tokens text := by
  induction n with
  | zero => rfl
  | succ n ih => rw [List.replicate_succ, List.cons_append, tokens_blank, ih]

/-- A token ends where the text ends, or at a blank. -/
theorem tokens_append {token text : Str} (hne : token ≠ []) (htoken : (0x20 : Char16) ∉ token)
    (htext : text = [] ∨ text.head? = some 0x20) :
    tokens (token ++ text) = token :: tokens text := by
  have hkeep : ∀ pieces, List.filter (· ≠ []) (token :: pieces) = token :: pieces.filter (· ≠ []) :=
    fun pieces => List.filter_cons_of_pos (by simpa using hne)
  rcases htext with rfl | hblank
  · rw [List.append_nil, tokens, split, List.splitOn_eq_singleton htoken, hkeep]
    rfl
  · obtain ⟨text, rfl⟩ := List.head?_eq_some_iff.mp hblank
    rw [tokens_blank, tokens, split, List.splitOn_append_cons_self_of_not_mem htoken,
      hkeep, tokens]

theorem Spaced.head? {ts : List Str} {text : Str} (h : Spaced ts text) :
    text = [] ∨ text.head? = some 0x20 := by
  cases h with
  | nil => exact .inl rfl
  | cons => exact .inr rfl

/-- The tokens of a text are those it was made of. -/
theorem tokens_of_spaced {ts : List Str} {text : Str} (h : Spaced ts text)
    (hts : ∀ token ∈ ts, token ≠ [] ∧ ∀ c ∈ token, isSpace c = false) : tokens text = ts := by
  induction h with
  | nil => rfl
  | cons blanks token hrest ih =>
    obtain ⟨⟨hne, hspace⟩, hts⟩ := List.forall_mem_cons.mp hts
    have hblank : (0x20 : Char16) ∉ token := fun hmem => absurd (hspace _ hmem) (by decide)
    rw [tokens_blanks, tokens_append hne hblank hrest.head?, ih hts]

/-- The tokens of a hop are words. -/
theorem word_of_mem_probeTokens {previous : Option IPAddress} {probes : List (Option Answer)}
    {token : Str} (h : ∀ answer ∈ probes.reduceOption, Prints printAddress rt answer.address)
    (hmem : token ∈ probeTokens printAddress previous probes) :
    token ≠ [] ∧ ∀ c ∈ token, isSpace c = false := by
  induction probes generalizing previous with
  | nil => exact absurd hmem (List.not_mem_nil)
  | cons probe probes ih =>
    cases probe with
    | none =>
      rcases List.mem_cons.mp hmem with rfl | hmem
      · exact ⟨by decide, by decide⟩
      · exact ih (List.reduceOption_cons_of_none probes ▸ h) hmem
    | some answer =>
      rw [List.reduceOption_cons_of_some] at h
      obtain ⟨hfirst, hrest⟩ := List.forall_mem_cons.mp h
      rcases List.mem_append.mp hmem with hmem | hmem
      · rw [Answer.tokens, List.mem_append, List.mem_cons, List.mem_cons] at hmem
        rcases hmem with hmem | rfl | rfl | hmem
        · split at hmem
          · exact absurd hmem (List.not_mem_nil)
          · rw [List.mem_singleton.mp hmem]
            refine ⟨fun hnil => ?_, hfirst.not_space⟩
            have := hfirst.separated
            rw [hnil] at this
            exact absurd this (by simp)
        · obtain ⟨c, rest, htext, -⟩ := answer.rtt.exists_cons
          exact ⟨by rw [htext]; exact List.cons_ne_nil _ _, not_isSpace_plain answer.rtt⟩
        · exact ⟨by decide, by decide⟩
        · obtain ⟨flag, -, rfl⟩ := Option.map_eq_some_iff.mp (Option.mem_toList.mp hmem)
          refine ⟨fun hnil => ?_, flag.not_space⟩
          exact absurd (hnil ▸ flag.mark) (by simp)
      · exact ih hrest hmem

/-- A text with words as its tokens has no white space but blanks. -/
theorem eq_blank_of_mem_spaced {ts : List Str} {text : Str} (h : Spaced ts text)
    (hts : ∀ token ∈ ts, token ≠ [] ∧ ∀ c ∈ token, isSpace c = false) :
    ∀ c ∈ text, c = 0x20 ∨ isSpace c = false := by
  induction h with
  | nil => exact fun c hc => absurd hc (List.not_mem_nil)
  | cons blanks token hrest ih =>
    obtain ⟨⟨-, hspace⟩, hts⟩ := List.forall_mem_cons.mp hts
    intro c hc
    rcases List.mem_append.mp hc with hc | hc
    · exact .inl (List.eq_of_mem_replicate hc)
    · exact (List.mem_append.mp hc).elim (fun hc => .inr (hspace c hc)) (ih hts c)

theorem not_mem_hopLine {hop : Hop} {line : Str}
    (h : ∀ answer ∈ hop.probes.reduceOption, Prints printAddress rt answer.address)
    (hline : IsHopLine printAddress hop line) : 0x0a ∉ line ∧ 0x0d ∉ line := by
  obtain ⟨indent, text, htext, rfl⟩ := hline
  have hall : ∀ c ∈ List.replicate indent 0x20 ++ (hop.number.text ++ text),
      c = 0x20 ∨ isSpace c = false := by
    intro c hc
    rcases List.mem_append.mp hc with hc | hc
    · exact .inl (List.eq_of_mem_replicate hc)
    · exact (List.mem_append.mp hc).elim
        (fun hc => .inr (not_isSpace_int hop.number c hc))
        (eq_blank_of_mem_spaced htext (fun _ => word_of_mem_probeTokens h) c)
  exact ⟨fun hmem => absurd (hall _ hmem) (by decide), fun hmem => absurd (hall _ hmem) (by decide)⟩

/-- The expression finds the number and what stands behind the blanks after it. -/
theorem head?_hopPattern {number token text : Str} {indent blanks : ℕ} (hne : number ≠ [])
    (hnumber : ∀ c ∈ number, isDigit c = true) (htoken : token.head?.any isSpace = false)
    (hbreak : ∀ c ∈ token ++ text, isNoLineBreak c = true) (hword : token ≠ []) :
    (hopPattern (List.replicate indent 0x20 ++
        (number ++ (List.replicate (blanks + 1) 0x20 ++ (token ++ text))))).head? =
      some ((number, token ++ text), []) := by
  obtain ⟨c, number', rfl⟩ := List.exists_cons_of_ne_nil hne
  obtain ⟨d, token', rfl⟩ := List.exists_cons_of_ne_nil hword
  unfold hopPattern
  refine head?_many_bind (fun c => isSpace_of_mem_replicate) ?_ ?_
  · exact not_isSpace_of_isDigit (hnumber c (List.mem_cons_self ..))
  refine head?_many1_bind hne (fun c hc => isDigitOfAny_of_isDigit (hnumber c hc)) (by rfl) ?_
  refine head?_many1_bind (by simp) (fun c => isSpace_of_mem_replicate) htoken ?_
  have hend : ((many isNoLineBreak >>= fun rest => endOfText 0x0a >>= fun _ =>
      pure (c :: number', rest)) (d :: token' ++ text ++ [])).head? =
        some ((c :: number', d :: token' ++ text), []) := head?_many_bind hbreak rfl rfl
  rwa [List.append_nil] at hend

theorem readLine_of_match {line rest : Str} {number : Numerals.PlainInt} (hreturn : 0x0d ∉ line)
    (hmatch : (hopPattern line).head? = some ((number.text, rest), [])) :
    readLine rt line = .ok
      (if (readTokens rt none [] (tokens rest)).2.length > 0 ∨
          (readTokens rt none [] (tokens rest)).1.isSome then
        some ⟨number.value, (readTokens rt none [] (tokens rest)).1,
          (readTokens rt none [] (tokens rest)).2⟩
      else none) := by
  have htrim : line.rdropWhile (· == 0x0d) = line :=
    List.rdropWhile_eq_self_iff.mpr fun hne hlast =>
      hreturn (beq_iff_eq.mp hlast ▸ List.getLast_mem hne)
  rw [readLine, htrim, hmatch]
  show (Numerals.parseInt number.text >>= _) = _
  rw [Numerals.parseInt_plain]
  rfl

/-- **The line of a hop is read as the hop.** -/
theorem readLine_hopLine {hop : Hop} {line : Str}
    (h : ∀ answer ∈ hop.probes.reduceOption, Prints printAddress rt answer.address)
    (hline : IsHopLine printAddress hop line) : readLine rt line = .ok (some hop.raw) := by
  obtain ⟨hbreak, hreturn⟩ := not_mem_hopLine h hline
  obtain ⟨indent, text, htext, rfl⟩ := hline
  have hwords : ∀ token ∈ probeTokens printAddress none hop.probes,
      token ≠ [] ∧ ∀ c ∈ token, isSpace c = false := fun _ => word_of_mem_probeTokens h
  have hread : readTokens rt none [] (probeTokens printAddress none hop.probes) =
      (hop.raw.address, hop.raw.rttMs) := readTokens_probes h (by simp)
  have hpositive : hop.raw.rttMs.length > 0 := by
    rw [Hop.raw, List.length_map]
    exact List.length_pos_iff.mpr hop.probes_ne_nil
  generalize probeTokens printAddress none hop.probes = ts at htext hwords hread
  cases htext with
  | nil => exact absurd (congrArg Prod.snd hread) (List.ne_nil_of_length_pos hpositive).symm
  | @cons blanks token ts text hrest =>
    obtain ⟨⟨hword, hspace⟩, hts⟩ := List.forall_mem_cons.mp hwords
    have hblank : (0x20 : Char16) ∉ token := fun hmem => absurd (hspace _ hmem) (by decide)
    have htokens : tokens (token ++ text) = token :: ts := by
      rw [tokens_append hword hblank hrest.head?, tokens_of_spaced hrest hts]
    have hfirst : token.head?.any isSpace = false := by
      cases token with
      | nil => rfl
      | cons c token => exact hspace c (List.mem_cons_self ..)
    have hnobreak : ∀ c ∈ token ++ text, isNoLineBreak c = true := by
      intro c hc
      refine bne_iff_ne.mpr fun heq => hbreak ?_
      exact heq ▸ List.mem_append_right _ (List.mem_append_right _ (List.mem_append_right _ hc))
    rw [readLine_of_match hreturn (head?_hopPattern hop.number.ne_nil hop.number.isDigit_text hfirst
      hnobreak hword), htokens, hread, if_pos (.inl hpositive)]
    rfl

/-! ### The listing

The header is no line of a hop, and neither is the empty line that may stand at the end. -/

/-- A line that begins with neither a digit nor white space is no line of a hop. -/
theorem readLine_of_head {c : Char16} {line : Str} (hspace : isSpace c = false)
    (hdigit : isDigitOfAny c = false) : readLine rt (c :: line) = .ok none := by
  have hnil : hopPattern ((c :: line).rdropWhile (· == 0x0d)) = [] := by
    refine eq_nil_of_forall fun a rest hmem => ?_
    obtain ⟨cut, hcut⟩ := List.rdropWhile_prefix (· == (0x0d : Char16)) (c :: line)
    simp only [hopPattern, mem_bind, mem_many, mem_many1] at hmem
    obtain ⟨indent, _, ⟨hline, hindent⟩, number, _, ⟨rfl, hne, hnumber⟩, -⟩ := hmem
    rw [hline] at hcut
    cases indent with
    | nil =>
      obtain ⟨d, number, rfl⟩ := List.exists_cons_of_ne_nil hne
      obtain ⟨rfl, -⟩ := List.cons.inj hcut
      exact absurd (hnumber d (List.mem_cons_self ..)) (by simp [hdigit])
    | cons d indent =>
      obtain ⟨rfl, -⟩ := List.cons.inj hcut
      exact absurd (hindent d (List.mem_cons_self ..)) (by simp [hspace])
  rw [readLine, hnil]
  rfl

theorem split_lines {first : Str} {lines : List Str} {stop : Str} (hfirst : 0x0a ∉ first)
    (hlines : ∀ line ∈ lines, 0x0a ∉ line) (hstop : stop = [] ∨ stop = [0x0a]) :
    split 0x0a (first ++ (lines.flatMap (0x0a :: ·) ++ stop)) =
      first :: lines ++ (if stop = [] then [] else [[]]) := by
  induction lines generalizing first with
  | nil =>
    rw [List.flatMap_nil, List.nil_append]
    rcases hstop with rfl | rfl
    · rw [List.append_nil, split, List.splitOn_eq_singleton hfirst, if_pos rfl, List.append_nil]
    · rw [split, List.splitOn_append_cons_self_of_not_mem hfirst, if_neg (by simp)]
      rfl
  | cons line lines ih =>
    obtain ⟨hline, hlines⟩ := List.forall_mem_cons.mp hlines
    rw [List.flatMap_cons, List.append_assoc, List.cons_append, split,
      List.splitOn_append_cons_self_of_not_mem hfirst]
    exact congrArg _ (ih hline hlines)

/-- The lines of the hops have no line break inside and are read one by one. -/
theorem mapM_hopLines {hops : List Hop} {lines : List Str}
    (h : ∀ hop ∈ hops, ∀ answer ∈ hop.probes.reduceOption, Prints printAddress rt answer.address)
    (hlines : List.Forall₂ (IsHopLine printAddress) hops lines) :
    (∀ line ∈ lines, 0x0a ∉ line) ∧
      lines.mapM (readLine rt) = .ok (hops.map fun hop => some hop.raw) := by
  induction hlines with
  | nil => exact ⟨by simp, rfl⟩
  | cons hline _ ih =>
    obtain ⟨hfirst, hrest⟩ := List.forall_mem_cons.mp h
    obtain ⟨hbreak, hread⟩ := ih hrest
    refine ⟨List.forall_mem_cons.mpr ⟨(not_mem_hopLine hfirst hline).1, hbreak⟩, ?_⟩
    rw [List.mapM_cons, readLine_hopLine hfirst hline, hread]
    rfl

/-- **The hops that are printed are the hops that are read.** -/
theorem parse_listing (rt : Runtime) (printAddress : IPAddress → Str) (hops : List Hop)
    (h : ∀ hop ∈ hops, ∀ answer ∈ hop.probes.reduceOption, Prints printAddress rt answer.address)
    (output : Str) (houtput : IsListing printAddress hops output) :
    parse rt output = .ok (hops.map Hop.raw) := by
  obtain ⟨target, lines, stop, htarget, hlines, hstop, rfl⟩ := houtput
  obtain ⟨hbreak, hread⟩ := mapM_hopLines h hlines
  have hheader : readLine rt (ofString "traceroute to " ++ target) = .ok none :=
    readLine_of_head (c := ofChar 't') (by decide) (by decide)
  have hfirst : 0x0a ∉ ofString "traceroute to " ++ target := by
    rw [List.mem_append, not_or]
    exact ⟨by decide, htarget⟩
  have hreduce : (hops.map fun hop => some hop.raw).reduceOption = hops.map Hop.raw := by
    rw [List.reduceOption, List.filterMap_map]
    exact congrFun List.filterMap_eq_map hops
  rw [parse, split_lines hfirst hbreak hstop, List.cons_append, List.mapM_cons, hheader,
    List.mapM_append, hread]
  -- behind a line break at the end there is one more line, without text
  split
  · show Except.ok (none :: ((hops.map fun hop => some hop.raw) ++ [])).reduceOption = _
    rw [List.append_nil, List.reduceOption_cons_of_none, hreduce]
  · show Except.ok (none :: ((hops.map fun hop => some hop.raw) ++ [none])).reduceOption = _
    rw [List.reduceOption_cons_of_none, List.reduceOption_append, hreduce]
    rw [List.reduceOption_singleton, Option.toList_none, List.append_nil]

end Lines

/-- A hop with a router that reports a host it cannot reach, a lost probe and the target. -/
def mixedHop : Hop where
  number := .ofNat 4 (by decide)
  probes := [some ⟨.v4 (Octets.four 10 0 0 1), ⟨"6", "1", by decide, by decide, by decide⟩,
    some ⟨"!H", by decide, by decide⟩⟩, none,
    some ⟨.v4 (Octets.four 8 8 8 8), ⟨"11", "25", by decide, by decide, by decide⟩, none⟩]
  probes_ne_nil := List.cons_ne_nil _ _

theorem parse_listing_of_mixed :
    parse Runtime.reference
        "traceroute to 8.8.8.8, 30 hops max\n 4  10.0.0.1  6.1 ms !H  * 8.8.8.8  11.25 ms\n" =
      .ok [⟨4, some (.v4 (Octets.four 10 0 0 1)), [some (.nearest (61 / 10)), none,
        some (.nearest (1125 / 100))]⟩] := by
  have hprints : ∀ hop ∈ [mixedHop], ∀ answer ∈ hop.probes.reduceOption,
      Prints Runtime.reference.addressToString Runtime.reference answer.address := by
    intro hop hhop answer hanswer
    obtain rfl := List.mem_singleton.mp hhop
    rcases List.mem_cons.mp hanswer with rfl | hanswer
    · exact ⟨by decide +kernel, by decide +kernel, by decide +kernel, by decide +kernel⟩
    · obtain rfl := List.mem_singleton.mp hanswer
      exact ⟨by decide +kernel, by decide +kernel, by decide +kernel, by decide +kernel⟩
  have hlisting : IsListing Runtime.reference.addressToString [mixedHop]
      "traceroute to 8.8.8.8, 30 hops max\n 4  10.0.0.1  6.1 ms !H  * 8.8.8.8  11.25 ms\n" := by
    refine ⟨"8.8.8.8, 30 hops max", [" 4  10.0.0.1  6.1 ms !H  * 8.8.8.8  11.25 ms"],
      "\n", by decide,
      .cons ⟨1, "  10.0.0.1  6.1 ms !H  * 8.8.8.8  11.25 ms", ?_, by decide +kernel⟩ .nil, .inr rfl,
      by decide +kernel⟩
    exact .cons 1 _ (.cons 1 _ (.cons 0 _ (.cons 0 _ (.cons 1 _ (.cons 0 _ (.cons 1 _
      (.cons 0 _ .nil)))))))
  exact parse_listing Runtime.reference Runtime.reference.addressToString
    [mixedHop] hprints _ hlisting

end TracerouteParser

end LookingGlass
