import LookingGlass.Diagnostics.TextRenderer

/-!
# The line ends of a rendered text

A renderer appends its lines one by one, each with a line feed behind it. The text is then made
uniform: whatever Unicode takes for the end of a line becomes a line feed, a carriage return and a
line feed together becoming one. White space at the end is removed.

So a line that was appended is not one line of the text as soon as a line end is among its
characters, and the pieces it falls into are `shown`. There is one exception. A carriage return at
the very end of a line meets the line feed that was appended behind it, and is gone.

## Why this is worth a module

The content of a line may come from outside: the text of a DNS record, the name of a host. The
renderers append it as it is. Whether somebody can make a rendered text have more lines than were
appended, and so make a line that looks like one of the tool, is a question about the characters of
the content, and `length_lines_normalise_iff` answers it for any list of lines.

## Main results

* `TextRenderer.lines_normalise` — the lines of a text, as the pieces of those that were appended
* `TextRenderer.length_lines_normalise_iff` — when there are as many of them as were appended
-/

namespace LookingGlass

open Utf16

namespace TextRenderer

/-- What `string.ReplaceLineEndings` takes for the end of a line. -/
def lineEnds : List Char16 := [0x0a, 0x0c, 0x0d, 0x85, 0x2028, 0x2029]

/-- No character of the text ends a line. -/
def OnOneLine (s : Str) : Prop := ∀ c ∈ s, c ∉ lineEnds

instance (s : Str) : Decidable (OnOneLine s) :=
  inferInstanceAs (Decidable (∀ c ∈ s, c ∉ lineEnds))

/-- The text without a carriage return at its end. -/
def dropReturn (s : Str) : Str := if s.getLast? = some 0x0d then s.dropLast else s

/-- The lines of a text with uniform line ends. -/
def lines (text : Str) : List Str := split 0x0a text

/-- The lines that are seen of one that was appended. -/
def shown (line : Str) : List Str := lines (replaceLineEndings (dropReturn line))

variable {s t : Str} {c : Char16}

/-! ### Replacing line ends

A carriage return and a line feed that stand together are one end of a line. This is the only place
where two characters have to be looked at. -/

theorem replaceLineEndings_cons_of_notMem (h : c ∉ lineEnds) (s : Str) :
    replaceLineEndings (c :: s) = c :: replaceLineEndings s := by
  have hreturn : c ≠ 0x0d := by
    rintro rfl
    exact h (by decide)
  cases s with
  | nil => exact if_neg h
  | cons d s =>
    have hpair : ¬(c = 0x0d ∧ d = 0x0a) := fun heq => hreturn heq.1
    rw [replaceLineEndings, if_neg hpair]
    exact if_neg h

theorem replaceLineEndings_cons_of_mem (h : c ∈ lineEnds)
    (hpair : c = 0x0d → s.head? ≠ some 0x0a) :
    replaceLineEndings (c :: s) = 0x0a :: replaceLineEndings s := by
  cases s with
  | nil => exact if_pos h
  | cons d s =>
    have hpair : ¬(c = 0x0d ∧ d = 0x0a) := by
      rintro ⟨rfl, rfl⟩
      exact hpair rfl rfl
    rw [replaceLineEndings, if_neg hpair]
    exact if_pos h

/-- Line ends are replaced piece by piece, where no pair of carriage return and line feed is torn
apart. -/
theorem replaceLineEndings_append (h : s.getLast? = some 0x0d → t.head? ≠ some 0x0a) :
    replaceLineEndings (s ++ t) = replaceLineEndings s ++ replaceLineEndings t := by
  induction s using replaceLineEndings.induct with
  | case1 => rfl
  | case2 c hc =>
    rw [List.singleton_append, replaceLineEndings_cons_of_mem hc, replaceLineEndings, if_pos hc,
      List.singleton_append]
    rintro rfl
    exact h rfl
  | case3 c hc =>
    rw [List.singleton_append, replaceLineEndings_cons_of_notMem hc, replaceLineEndings, if_neg hc,
      List.singleton_append]
  | case4 c d s hpair ih =>
    have hrest : s.getLast? = some 0x0d → t.head? ≠ some 0x0a := by
      intro hlast
      refine h ?_
      rw [List.getLast?_cons, List.getLast?_cons, hlast]
      rfl
    obtain ⟨rfl, rfl⟩ := hpair
    rw [List.cons_append, List.cons_append, replaceLineEndings, replaceLineEndings,
      if_pos ⟨rfl, rfl⟩, if_pos ⟨rfl, rfl⟩, ih hrest, List.cons_append]
  | case5 c d s hpair hc ih =>
    have hnot : c = 0x0d → (d :: s).head? ≠ some 0x0a := by
      intro hreturn hfeed
      exact hpair ⟨hreturn, Option.some.inj hfeed⟩
    rw [List.getLast?_cons_cons] at h
    calc replaceLineEndings (c :: (d :: (s ++ t)))
        = 0x0a :: replaceLineEndings (d :: s ++ t) := replaceLineEndings_cons_of_mem hc hnot
      _ = 0x0a :: replaceLineEndings (d :: s) ++ replaceLineEndings t := by
        rw [ih h, List.cons_append]
      _ = replaceLineEndings (c :: d :: s) ++ replaceLineEndings t := by
        rw [replaceLineEndings_cons_of_mem hc hnot]
  | case6 c d s hpair hc ih =>
    rw [List.cons_append, replaceLineEndings_cons_of_notMem hc,
      replaceLineEndings_cons_of_notMem hc, ih, List.cons_append]
    rwa [List.getLast?_cons_cons] at h

/-- Nothing new comes in but line feeds. -/
theorem eq_or_mem_of_mem_replaceLineEndings (h : c ∈ replaceLineEndings s) : c = 0x0a ∨ c ∈ s := by
  induction s using replaceLineEndings.induct with
  | case1 => exact absurd h (by simp [replaceLineEndings])
  | case2 d hd => simp_all [replaceLineEndings]
  | case3 d hd => simp_all [replaceLineEndings]
  | case4 d e s hpair ih =>
    rw [replaceLineEndings, if_pos hpair] at h
    rcases List.mem_cons.mp h with rfl | h
    · exact .inl rfl
    · exact (ih h).imp_right fun hmem => List.mem_cons_of_mem _ (List.mem_cons_of_mem _ hmem)
  | case5 d e s hpair hd ih =>
    rw [replaceLineEndings, if_neg hpair, if_pos hd] at h
    rcases List.mem_cons.mp h with rfl | h
    · exact .inl rfl
    · exact (ih h).imp_right (List.mem_cons_of_mem _)
  | case6 d e s hpair hd ih =>
    rw [replaceLineEndings_cons_of_notMem hd] at h
    rcases List.mem_cons.mp h with rfl | h
    · exact .inr (List.mem_cons_self ..)
    · exact (ih h).imp_right (List.mem_cons_of_mem _)

/-- There is a line feed in the uniform text for whatever ended a line. -/
theorem feed_notMem_replaceLineEndings_iff : 0x0a ∉ replaceLineEndings s ↔ OnOneLine s := by
  induction s using replaceLineEndings.induct with
  | case1 => simp [replaceLineEndings, OnOneLine]
  | case2 c hc =>
    rw [replaceLineEndings, if_pos hc]
    exact iff_of_false (by simp) fun h => h c (by simp) hc
  | case3 c hc =>
    rw [replaceLineEndings, if_neg hc]
    refine iff_of_true (fun hmem => hc ?_) (List.forall_mem_singleton.mpr hc)
    rw [← List.mem_singleton.mp hmem]
    decide
  | case4 c d s hpair ih =>
    rw [replaceLineEndings, if_pos hpair]
    obtain ⟨rfl, rfl⟩ := hpair
    exact iff_of_false (by simp) fun h => h 0x0d (by simp) (by decide)
  | case5 c d s hpair hc ih =>
    rw [replaceLineEndings, if_neg hpair, if_pos hc]
    exact iff_of_false (by simp) fun h => h c (by simp) hc
  | case6 c d s hpair hc ih =>
    rw [replaceLineEndings_cons_of_notMem hc, List.mem_cons, not_or, ih]
    have hne : 0x0a ≠ c := by
      rintro rfl
      exact hc (by decide)
    simp only [OnOneLine, List.forall_mem_cons, hne, not_false_eq_true, true_and]
    exact (and_iff_right hc).symm

theorem replaceLineEndings_of_onOneLine (h : OnOneLine s) : replaceLineEndings s = s := by
  induction s with
  | nil => rfl
  | cons c s ih =>
    obtain ⟨hc, hs⟩ := List.forall_mem_cons.mp h
    rw [replaceLineEndings_cons_of_notMem hc, ih hs]

/-! ### Counting lines

A text has one line more than it has line feeds. -/

theorem lines_append_feed (s t : Str) : lines (s ++ 0x0a :: t) = lines s ++ lines t :=
  List.splitOn_append_cons_self ..

theorem length_lines_pos (s : Str) : 1 ≤ (lines s).length :=
  List.length_pos_of_ne_nil (List.splitOn_ne_nil _ _)

theorem length_lines_eq_one_iff : (lines s).length = 1 ↔ 0x0a ∉ s := by
  constructor
  · intro hone hfeed
    obtain ⟨before, after, rfl⟩ := List.append_of_mem hfeed
    rw [lines_append_feed, List.length_append] at hone
    have hbefore := length_lines_pos before
    have hafter := length_lines_pos after
    omega
  · intro h
    rw [lines, split, List.splitOn_eq_singleton h, List.length_singleton]

theorem length_shown_pos (line : Str) : 1 ≤ (shown line).length :=
  length_lines_pos _

theorem length_shown_eq_one_iff {line : Str} :
    (shown line).length = 1 ↔ OnOneLine (dropReturn line) := by
  rw [shown, length_lines_eq_one_iff, feed_notMem_replaceLineEndings_iff]

/-! ### The lines of a text

Appending a line feed to each line makes the pieces independent of each other, except for a carriage
return right in front of it. -/

/-- The text without the white space at its end. -/
def trimEnd (s : Str) : Str := s.rdropWhile Runtime.isWhiteSpace

theorem dropReturn_append (h : s.getLast? ≠ some 0x0d) :
    dropReturn (s ++ t) = s ++ dropReturn t := by
  cases t with
  | nil =>
    rw [List.append_nil, dropReturn, if_neg h, dropReturn, if_neg (by simp), List.append_nil]
  | cons c t =>
    rw [dropReturn, List.getLast?_append_of_ne_nil _ (List.cons_ne_nil c t), dropReturn]
    split
    · exact List.dropLast_append_of_ne_nil (List.cons_ne_nil c t)
    · rfl

/-- The line feed that is appended takes a carriage return in front of it along. -/
theorem replaceLineEndings_concat_feed (line : Str) :
    replaceLineEndings (line ++ [0x0a]) = replaceLineEndings (dropReturn line) ++ [0x0a] := by
  rw [dropReturn]
  split
  · next hreturn =>
    obtain ⟨init, rfl⟩ := List.getLast?_eq_some_iff.mp hreturn
    rw [List.dropLast_concat, List.append_assoc, replaceLineEndings_append (by simp)]
    rfl
  · next hreturn =>
    rw [replaceLineEndings_append (fun h => absurd h hreturn)]
    rfl

/-- Every line that was appended is made uniform on its own. -/
theorem replaceLineEndings_flatten (ls : List Str) (rest : Str) :
    replaceLineEndings ((ls.map (· ++ [0x0a])).flatten ++ rest) =
      (ls.map fun line => replaceLineEndings (dropReturn line) ++ [0x0a]).flatten ++
        replaceLineEndings rest := by
  induction ls with
  | nil => rfl
  | cons line ls ih =>
    rw [List.map_cons, List.flatten_cons, List.append_assoc, replaceLineEndings_append (by simp),
      ih, replaceLineEndings_concat_feed, List.map_cons, List.flatten_cons,
      List.append_assoc _ _ (replaceLineEndings rest)]

theorem lines_flatten (ls : List Str) (rest : Str) :
    lines ((ls.map fun line => replaceLineEndings (dropReturn line) ++ [0x0a]).flatten ++ rest) =
      ls.flatMap shown ++ lines rest := by
  induction ls with
  | nil => rfl
  | cons line ls ih =>
    rw [List.map_cons, List.flatten_cons, List.append_assoc, List.append_assoc,
      List.singleton_append, lines_append_feed, ih, List.flatMap_cons, List.append_assoc, shown]

/-- White space at the end of a text is removed, whatever is in front of it. -/
theorem trimEnd_append_of_white (h : ∀ c ∈ t, Runtime.isWhiteSpace c = true) :
    trimEnd (s ++ t) = trimEnd s := by
  induction t using List.reverseRecOn with
  | nil => rw [List.append_nil]
  | append_singleton t c ih =>
    rw [← List.append_assoc, trimEnd, List.rdropWhile_concat_pos _ _ _ (h c (by simp))]
    exact ih fun d hd => h d (List.mem_append_left _ hd)

theorem white_of_mem_lineEnds (h : c ∈ lineEnds) : Runtime.isWhiteSpace c = true := by
  simp only [lineEnds, List.mem_cons, List.not_mem_nil, or_false] at h
  rcases h with rfl | rfl | rfl | rfl | rfl | rfl <;> decide

/-- What is left of a text ends in a character that is no white space. -/
theorem exists_trimEnd_eq (h : trimEnd s ≠ []) :
    ∃ init c blank, trimEnd s = init ++ [c] ∧ s = init ++ [c] ++ blank ∧
      Runtime.isWhiteSpace c = false ∧ ∀ d ∈ blank, Runtime.isWhiteSpace d = true := by
  refine ⟨(trimEnd s).dropLast, (trimEnd s).getLast h, s.rtakeWhile Runtime.isWhiteSpace, ?_, ?_,
    ?_, fun d hd => List.mem_rtakeWhile_imp hd⟩
  · exact (List.dropLast_append_getLast h).symm
  · rw [List.dropLast_append_getLast]
    exact List.rdropWhile_append_rtakeWhile.symm
  · exact Bool.eq_false_iff.mpr (List.rdropWhile_last_not _ _ h)

/-- **The lines of a text** are the pieces of the lines that were appended, those of the last one
without the white space at its end. -/
theorem lines_normalise (ls : List Str) {last : Str} (h : trimEnd last ≠ []) :
    lines (normalise (ls ++ [last])) =
      ls.flatMap shown ++ lines (replaceLineEndings (trimEnd last)) := by
  obtain ⟨init, c, blank, htrim, hlast, hc, hblank⟩ := exists_trimEnd_eq h
  have hkept : c ∉ lineEnds := by
    intro hmem
    rw [white_of_mem_lineEnds hmem] at hc
    exact absurd hc (by simp)
  have hreturn : (init ++ [c]).getLast? = some 0x0d → (blank ++ [0x0a]).head? ≠ some 0x0a := by
    rw [List.getLast?_concat]
    rintro heq
    rw [Option.some.inj heq] at hkept
    exact absurd (by decide) hkept
  have hwhite : ∀ d ∈ replaceLineEndings (blank ++ [0x0a]), Runtime.isWhiteSpace d = true := by
    intro d hd
    rcases eq_or_mem_of_mem_replaceLineEndings hd with rfl | hd
    · decide
    rcases List.mem_append.mp hd with hd | hd
    · exact hblank d hd
    · rw [List.mem_singleton.mp hd]
      decide
  have hsolid : replaceLineEndings (init ++ [c]) = replaceLineEndings init ++ [c] := by
    rw [replaceLineEndings_append, replaceLineEndings_cons_of_notMem hkept]
    · rfl
    · intro _ hfeed
      rw [Option.some.inj hfeed] at hkept
      exact absurd (by decide) hkept
  have hnormalise : normalise (ls ++ [last]) =
      (ls.map fun line => replaceLineEndings (dropReturn line) ++ [0x0a]).flatten ++
        replaceLineEndings (trimEnd last) := by
    calc normalise (ls ++ [last])
        = trimEnd (replaceLineEndings ((ls.map (· ++ [0x0a])).flatten ++ (last ++ [0x0a]))) := by
          rw [normalise, List.map_append, List.flatten_append]
          simp [trimEnd]
      _ = trimEnd ((ls.map fun line => replaceLineEndings (dropReturn line) ++ [0x0a]).flatten ++
            (replaceLineEndings init ++ [c]) ++ replaceLineEndings (blank ++ [0x0a])) := by
          rw [replaceLineEndings_flatten, hlast, List.append_assoc _ blank,
            replaceLineEndings_append hreturn, hsolid, List.append_assoc _ (_ ++ [c])]
      _ = _ := by
          rw [trimEnd_append_of_white hwhite, ← List.append_assoc, trimEnd,
            List.rdropWhile_concat_neg _ _ _ (by rw [hc]; exact Bool.false_ne_true), htrim, hsolid,
            List.append_assoc]
  rw [hnormalise, lines_flatten]

theorem length_flatMap_shown (ls : List Str) :
    ls.length ≤ (ls.flatMap shown).length ∧
      ((ls.flatMap shown).length = ls.length ↔ ∀ line ∈ ls, OnOneLine (dropReturn line)) := by
  induction ls with
  | nil => simp
  | cons line ls ih =>
    obtain ⟨hle, hiff⟩ := ih
    have hpos := length_shown_pos line
    rw [List.flatMap_cons, List.length_append, List.length_cons, List.forall_mem_cons, ← hiff,
      ← length_shown_eq_one_iff]
    omega

theorem lines_of_onOneLine (h : OnOneLine s) : lines s = [s] :=
  List.splitOn_eq_singleton fun hfeed => h _ hfeed (by decide)

/-- Lines without a line end are seen as they are. -/
theorem flatMap_shown_of_onOneLine {ls : List Str} (h : ∀ line ∈ ls, OnOneLine line) :
    ls.flatMap shown = ls := by
  induction ls with
  | nil => rfl
  | cons line ls ih =>
    obtain ⟨hline, hrest⟩ := List.forall_mem_cons.mp h
    have hreturn : dropReturn line = line := by
      refine if_neg fun hlast => ?_
      exact hline _ (List.mem_of_getLast? hlast) (by decide)
    rw [List.flatMap_cons, ih hrest, shown, hreturn, replaceLineEndings_of_onOneLine hline,
      lines_of_onOneLine hline, List.singleton_append]

/-! ### Lines that end in something to see

The white space at the end of a text is removed, so its last line must not be white space, or lines
in front of it would go as well. -/

/-- Behind the last line end of the text, if it has one, there is something to see. So a line end
that is appended to it is a line end of its own, and is not taken together with another one. -/
def Closed (s : Str) : Prop :=
  ∃ init c rest, s = init ++ c :: rest ∧ Runtime.isWhiteSpace c = false ∧ OnOneLine rest

/-- A text without white space, and so without a line end. Most of what a renderer prints by itself
is of this kind. -/
def Solid (s : Str) : Prop := ∀ c ∈ s, Runtime.isWhiteSpace c = false

instance (s : Str) : Decidable (Solid s) :=
  inferInstanceAs (Decidable (∀ c ∈ s, Runtime.isWhiteSpace c = false))

theorem onOneLine_append : OnOneLine (s ++ t) ↔ OnOneLine s ∧ OnOneLine t :=
  List.forall_mem_append

theorem forall_mem_concat {p : Char16 → Prop} {parts : List Str} :
    (∀ c ∈ concat parts, p c) ↔ ∀ part ∈ parts, ∀ c ∈ part, p c := by
  induction parts with
  | nil => simp
  | cons part parts ih =>
    rw [List.forall_mem_cons, ← ih, ← List.forall_mem_append, concat, List.flatten_cons]

theorem forall_mem_join {p : Char16 → Prop} {separator : Str} (h : ∀ c ∈ separator, p c)
    {parts : List Str} :
    (∀ c ∈ join separator parts, p c) ↔ ∀ part ∈ parts, ∀ c ∈ part, p c := by
  induction parts with
  | nil => simp
  | cons part parts ih =>
    rw [List.forall_mem_cons, ← ih]
    by_cases hparts : parts = []
    · subst hparts
      simp
    · rw [join, List.intercalate_cons_of_ne_nil hparts, List.forall_mem_append,
        List.forall_mem_append]
      exact and_congr_left fun _ => and_iff_left h

theorem onOneLine_concat {parts : List Str} :
    OnOneLine (concat parts) ↔ ∀ part ∈ parts, OnOneLine part :=
  forall_mem_concat

theorem onOneLine_join {separator : Str} (h : OnOneLine separator) {parts : List Str} :
    OnOneLine (join separator parts) ↔ ∀ part ∈ parts, OnOneLine part :=
  forall_mem_join h

theorem onOneLine_replicate (h : c ∉ lineEnds) (n : ℕ) : OnOneLine (List.replicate n c) := by
  intro d hd
  rwa [List.eq_of_mem_replicate hd]

theorem onOneLine_padLeft {width : ℕ} : OnOneLine (padLeft width s) ↔ OnOneLine s := by
  rw [padLeft, onOneLine_append]
  exact and_iff_right (onOneLine_replicate (by decide) _)

theorem onOneLine_padRight {width : ℕ} : OnOneLine (padRight width s) ↔ OnOneLine s := by
  rw [padRight, onOneLine_append]
  exact and_iff_left (onOneLine_replicate (by decide) _)

theorem Solid.onOneLine (h : Solid s) : OnOneLine s := by
  intro c hc hmem
  have hsolid := h c hc
  rw [white_of_mem_lineEnds hmem] at hsolid
  exact absurd hsolid (by simp)

theorem OnOneLine.closed (h : OnOneLine s) (hc : c ∈ s) (hsolid : Runtime.isWhiteSpace c = false) :
    Closed s := by
  obtain ⟨init, rest, rfl⟩ := List.append_of_mem hc
  exact ⟨init, c, rest, rfl, hsolid, fun d hd => h d (by simp [hd])⟩

theorem Solid.closed (h : Solid s) (hne : s ≠ []) : Closed s :=
  h.onOneLine.closed (List.head_mem hne) (h _ (List.head_mem hne))

namespace Closed

theorem append_left (h : Closed s) (before : Str) : Closed (before ++ s) := by
  obtain ⟨init, c, rest, rfl, hc, hrest⟩ := h
  exact ⟨before ++ init, c, rest, (List.append_assoc ..).symm, hc, hrest⟩

theorem append_right (h : Closed s) (ht : OnOneLine t) : Closed (s ++ t) := by
  obtain ⟨init, c, rest, rfl, hc, hrest⟩ := h
  refine ⟨init, c, rest ++ t, ?_, hc, onOneLine_append.mpr ⟨hrest, ht⟩⟩
  rw [List.append_assoc, List.cons_append]

theorem trimEnd_eq {init rest : Str} (hc : Runtime.isWhiteSpace c = false) :
    trimEnd (init ++ c :: rest) = init ++ c :: trimEnd rest := by
  induction rest using List.reverseRecOn with
  | nil => exact List.rdropWhile_concat_neg _ _ _ (by rw [hc]; exact Bool.false_ne_true)
  | append_singleton rest d ih =>
    have hcons : init ++ c :: (rest ++ [d]) = init ++ c :: rest ++ [d] := by simp
    rw [trimEnd] at ih
    rw [hcons, trimEnd, trimEnd, List.rdropWhile_concat, List.rdropWhile_concat, ih]
    split <;> simp [trimEnd]

theorem trimEnd_ne_nil (h : Closed s) : trimEnd s ≠ [] := by
  obtain ⟨init, c, rest, rfl, hc, -⟩ := h
  rw [trimEnd_eq hc]
  simp

theorem onOneLine_trimEnd (h : Closed s) : OnOneLine (trimEnd s) ↔ OnOneLine s := by
  obtain ⟨init, c, rest, rfl, hc, hrest⟩ := h
  have htrim : OnOneLine (trimEnd rest) := fun d hd =>
    hrest d ((List.rdropWhile_prefix _ _).subset hd)
  have hcons (tail : Str) (htail : OnOneLine tail) : OnOneLine (c :: tail) ↔ c ∉ lineEnds :=
    List.forall_mem_cons.trans (and_iff_left htail)
  rw [trimEnd_eq hc, onOneLine_append, onOneLine_append, hcons _ htrim, hcons _ hrest]

theorem dropReturn_eq (h : Closed s) : dropReturn s = s := by
  obtain ⟨init, c, rest, rfl, hc, hrest⟩ := h
  refine if_neg fun hlast => ?_
  rw [List.getLast?_append_of_ne_nil _ (List.cons_ne_nil c rest)] at hlast
  rcases List.mem_cons.mp (List.mem_of_getLast? hlast) with heq | hmem
  · rw [← heq] at hc
    exact absurd hc (by decide)
  · exact hrest _ hmem (by decide)

end Closed

/-- **As many lines as were appended**, if and only if there is no line end in any of them. -/
theorem length_lines_normalise_iff {ls : List Str} (hne : ls ≠ []) (h : ∀ line ∈ ls, Closed line) :
    (lines (normalise ls)).length = ls.length ↔ ∀ line ∈ ls, OnOneLine line := by
  obtain ⟨init, last, rfl⟩ := (List.eq_nil_or_concat' ls).resolve_left hne
  have hlast : Closed last := h last (by simp)
  have hinit : (∀ line ∈ init, OnOneLine (dropReturn line)) ↔ ∀ line ∈ init, OnOneLine line := by
    refine forall₂_congr fun line hline => ?_
    rw [(h line (List.mem_append_left _ hline)).dropReturn_eq]
  obtain ⟨hle, hiff⟩ := length_flatMap_shown init
  have hpos := length_lines_pos (replaceLineEndings (trimEnd last))
  have hone : (lines (replaceLineEndings (trimEnd last))).length = 1 ↔ OnOneLine last := by
    rw [length_lines_eq_one_iff, feed_notMem_replaceLineEndings_iff, hlast.onOneLine_trimEnd]
  rw [lines_normalise init hlast.trimEnd_ne_nil, List.length_append, List.length_append,
    List.length_singleton, List.forall_mem_append, List.forall_mem_singleton, ← hone, ← hinit,
    ← hiff]
  omega

end TextRenderer

end LookingGlass
