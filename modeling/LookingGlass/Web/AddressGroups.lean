import LookingGlass.Web.Addresses

/-!
# IPv6 addresses in the browser

`parseIPv6` looks for `::` and for the last colon, cuts a dotted quad off the end, and splits what
is left twice. What it accepts by all this are the forms of RFC 4291: groups of one to four hex
digits, one run of zero groups written as `::`, and a dotted quad in place of the last two groups.

`Denotes` says that in terms of the groups. The positions in the text are gone from it, so most of
the work is to see that the first occurrence of `::` can only be the last one between two lists of
groups.

## The two descriptions

The parser works from positions: those of the last colon and of the first `::`. An address is made
of pieces: a list of groups, or two lists with `::` between them, and perhaps a quad at the end.
Both come together where a text is cut at its last colon. What is behind it is a quad or the last
group, or nothing, and what is in front of it is again made of pieces.

A quad stands for two groups, so there are eight groups with it and six pieces. `::` stands for at
least one group: where both lists together have eight groups already it is refused, which is what
the sign of `missing` decides.

What the browser does not read, the service may. A scope behind a percent sign is such a form, and
the runtime has others; nothing is said of these here.

## Main results

* `Validation.parseIPv6_eq_some_iff` — the browser reads exactly the forms of RFC 4291, and reads
  them right
-/

namespace LookingGlass

open Utf16 AddressText Occurrences

namespace Validation

/-! ### The parser

As it is written, with the three places where a text is cut: the last colon, the dotted quad, and
`::`. -/

/-- `/^[0-9a-fA-F]{1,4}$/` -/
def isGroupText (part : Str) : Bool :=
  1 ≤ part.length && part.length ≤ 4 && part.all DestinationPolicy.isHexDigit

/-- A character of an address: `[0-9a-fA-F:.]`. -/
def isAddressChar (c : Char16) : Bool :=
  DestinationPolicy.isHexDigit c || c == ofChar ':' || c == ofChar '.'

def toGroups (segment : Str) : Option (List ℕ) :=
  if segment = [] then some []
  else (split ':' segment).mapM fun part => if isGroupText part then some (hexValue part) else none

/-- The groups of a text from which a dotted quad at the end has been removed, before its two
groups. -/
def groupsBefore (text : Str) (tail : List ℕ) : Option (List ℕ) :=
  if (indexOf "::" text).isSome then
    let (left, right) := cut "::" text
    match toGroups left, toGroups right with
    | some head, some rest =>
      -- the number of missing groups, which is to be at least one
      let missing : ℤ := 8 - head.length - rest.length - tail.length
      if missing < 1 then none
      else some (head ++ List.replicate missing.toNat 0 ++ rest ++ tail)
    | _, _ => none
  else (toGroups text).map (· ++ tail)

def parseIPv6 (input : Str) : Option (List ℕ) :=
  if input = [] ∨ ¬ input.all isAddressChar ∨ ¬ input.contains (ofChar ':') then none
  else if indexOf "::" input ≠ lastIndexOf "::" input then none
  else
    -- the position after the last colon
    let after := ((lastIndexOf ":" input).map (· + 1)).getD 0
    let lastPart := input.drop after
    let groups :=
      if lastPart.contains (ofChar '.') then
        (parseIPv4 lastPart).bind fun v4 =>
          let tail := [v4.getD 0 0 <<< 8 ||| v4.getD 1 0, v4.getD 2 0 <<< 8 ||| v4.getD 3 0]
          let text := input.take after
          let text :=
            if (ofString ":").isSuffixOf text && !(ofString "::").isSuffixOf text then text.dropLast
            else text
          if text = [] then none else groupsBefore text tail
      else groupsBefore input []
    groups.filter fun groups => groups.length == 8

/-! ### The forms of RFC 4291

The same addresses by how they are put together. `hexValue` is all that is said about the digits of
a group. -/

/-- One group: one to four hex digits, of either case. Zeros in front are allowed, so a number below
`2 ^ 16` may have up to four spellings but for the case. -/
structure IsGroup (t : Str) : Prop where
  length_pos : 1 ≤ t.length
  length_le : t.length ≤ 4
  chars : ∀ c ∈ t, DestinationPolicy.isHexDigit c = true

/-- What may stand at the end, with its groups: nothing, or a dotted quad. -/
inductive Ending : List Str → List ℕ → Prop
  | none : Ending [] []
  | quad (a b c d : UInt8) :
    Ending [dottedQuad a b c d] [256 * a.toNat + b.toNat, 256 * c.toNat + d.toNat]

/-- The text `s` is an IPv6 address with these groups. The constructors are the two forms that there
are, each with an end that may be a dotted quad. -/
inductive Denotes : Str → List ℕ → Prop
  | full {ts q : List Str} {tail : List ℕ} (hts : ∀ t ∈ ts, IsGroup t) (hq : Ending q tail)
      (hlen : ts.length + tail.length = 8) :
    Denotes (join ":" (ts ++ q)) (ts.map hexValue ++ tail)
  | compressed {ls rs q : List Str} {tail : List ℕ} (hls : ∀ t ∈ ls, IsGroup t)
      (hrs : ∀ t ∈ rs, IsGroup t) (hq : Ending q tail)
      (hlen : ls.length + rs.length + tail.length < 8) :
    Denotes (join ":" ls ++ ofString "::" ++ join ":" (rs ++ q))
      (ls.map hexValue ++ List.replicate (8 - ls.length - rs.length - tail.length) 0 ++
        rs.map hexValue ++ tail)

example : parseIPv6 "2001:db8::192.0.2.33" =
    some [0x2001, 0xdb8, 0, 0, 0, 0, 0xc000, 0x221] := by decide

/-! ### Groups and quads are pieces

A piece is not empty and has no colon in it, so a list of pieces can be read back from the text that
joins it. -/

theorem isGroupText_iff {t : Str} : isGroupText t = true ↔ IsGroup t := by
  rw [isGroupText, Bool.and_eq_true, Bool.and_eq_true, decide_eq_true_eq, decide_eq_true_eq,
    List.all_eq_true]
  exact ⟨fun h => ⟨h.1.1, h.1.2, h.2⟩, fun h => ⟨⟨h.length_pos, h.length_le⟩, h.chars⟩⟩

theorem IsGroup.isPiece {t : Str} (h : IsGroup t) : IsPiece t := by
  refine ⟨List.length_pos_iff.mp h.length_pos, fun hcolon => ?_⟩
  exact absurd (h.chars _ hcolon) (by decide)

theorem Ending.isPiece {ts q : List Str} {tail : List ℕ} (hts : ∀ t ∈ ts, IsGroup t)
    (hq : Ending q tail) : ∀ t ∈ ts ++ q, IsPiece t := by
  intro t ht
  rcases List.mem_append.mp ht with ht | ht
  · exact (hts t ht).isPiece
  · cases hq with
    | none => exact absurd ht List.not_mem_nil
    | quad a b c d => exact List.mem_singleton.mp ht ▸ isPiece_dottedQuad a b c d

/-! ### Lists of groups

The text in front of the quad, or the whole text where there is none, by the groups in it. -/

theorem mapM_guard_eq_some_iff {α β : Type} {p : α → Bool} {g : α → β} {as : List α} {bs : List β} :
    (as.mapM fun a => if p a then some (g a) else none) = some bs ↔
      (∀ a ∈ as, p a = true) ∧ bs = as.map g := by
  induction as generalizing bs with
  | nil => exact ⟨fun h => ⟨by simp, (Option.some.inj h).symm⟩, fun h => congrArg some h.2.symm⟩
  | cons a as ih =>
    rw [List.mapM_cons, List.forall_mem_cons]
    by_cases ha : p a = true
    · simp only [ha, if_true, Option.bind_eq_bind, Option.bind_some, Option.bind_eq_some_iff, ih,
        Option.pure_def, Option.some.injEq, true_and, List.map_cons]
      constructor
      · rintro ⟨_, ⟨has, rfl⟩, rfl⟩
        exact ⟨has, rfl⟩
      · rintro ⟨has, rfl⟩
        exact ⟨_, ⟨has, rfl⟩, rfl⟩
    · simp [ha]

theorem toGroups_eq_some_iff {s : Str} {gs : List ℕ} : toGroups s = some gs ↔
    ∃ ts, (∀ t ∈ ts, IsGroup t) ∧ s = join ":" ts ∧ gs = ts.map hexValue := by
  unfold toGroups
  constructor
  · intro h
    split at h
    · next hnil => exact ⟨[], by simp, hnil, (Option.some.inj h).symm⟩
    · obtain ⟨hgroups, rfl⟩ := mapM_guard_eq_some_iff.mp h
      refine ⟨split ':' s, fun t ht => isGroupText_iff.mp (hgroups t ht), ?_, rfl⟩
      exact (List.intercalate_splitOn _).symm
  · rintro ⟨ts, hts, rfl, rfl⟩
    have hpieces : ∀ t ∈ ts, IsPiece t := fun t ht => (hts t ht).isPiece
    by_cases hne : ts = []
    · subst hne
      rfl
    · have hsplit := split_join hpieces hne
      rw [if_neg, hsplit, mapM_guard_eq_some_iff]
      · exact ⟨fun t ht => isGroupText_iff.mpr (hts t ht), rfl⟩
      · exact join_ne_nil hpieces hne

/-- What the groups before an ending are, where `::` occurs at most once. -/
theorem groupsBefore_eq_some_iff {text : Str} {tail gs : List ℕ}
    (h : AtMostOnce (ofString "::") text) : groupsBefore text tail = some gs ↔
      (∃ ts, (∀ t ∈ ts, IsGroup t) ∧ text = join ":" ts ∧ gs = ts.map hexValue ++ tail) ∨
      ∃ ls rs, (∀ t ∈ ls, IsGroup t) ∧ (∀ t ∈ rs, IsGroup t) ∧
        text = join ":" ls ++ ofString "::" ++ join ":" rs ∧
        ls.length + rs.length + tail.length < 8 ∧
        gs = ls.map hexValue ++ List.replicate (8 - ls.length - rs.length - tail.length) 0 ++
          rs.map hexValue ++ tail := by
  unfold groupsBefore
  constructor
  · intro hgs
    split at hgs
    · next hdouble =>
      right
      obtain ⟨i, hi⟩ := Option.isSome_iff_exists.mp hdouble
      obtain ⟨l, r, htext, -⟩ := mem_occurrences.mp (List.mem_of_mem_head? hi)
      rw [cut_of_unique h (by decide) htext] at hgs
      dsimp only at hgs
      cases hhead : toGroups l with
      | none => simp [hhead] at hgs
      | some head =>
      cases hrest : toGroups r with
      | none => simp [hhead, hrest] at hgs
      | some rest =>
      obtain ⟨ls, hls, rfl, rfl⟩ := toGroups_eq_some_iff.mp hhead
      obtain ⟨rs, hrs, rfl, rfl⟩ := toGroups_eq_some_iff.mp hrest
      rw [hhead, hrest] at hgs
      dsimp only at hgs
      simp only [List.length_map] at hgs
      split at hgs
      · exact absurd hgs (by simp)
      · next hmissing =>
        refine ⟨ls, rs, hls, hrs, htext, by omega, ?_⟩
        have hcount : (8 - (ls.length : ℤ) - rs.length - tail.length).toNat =
            8 - ls.length - rs.length - tail.length := by omega
        rw [← Option.some.inj hgs, hcount]
    · left
      obtain ⟨head, hhead, rfl⟩ := Option.map_eq_some_iff.mp hgs
      obtain ⟨ts, hts, rfl, rfl⟩ := toGroups_eq_some_iff.mp hhead
      exact ⟨ts, hts, rfl, rfl⟩
  · rintro (⟨ts, hts, rfl, rfl⟩ | ⟨ls, rs, hls, hrs, rfl, hlen, rfl⟩)
    · have hnone : indexOf (ofString "::") (join ":" ts) = none :=
        indexOf_eq_none_iff.mpr (join_ne_double fun t ht => (hts t ht).isPiece)
      rw [hnone, if_neg (by simp), toGroups_eq_some_iff.mpr ⟨ts, hts, rfl, rfl⟩, Option.map_some]
    · rw [indexOf_of_unique h rfl, Option.isSome_some, if_pos rfl, cut_of_unique h (by decide) rfl]
      dsimp only
      rw [toGroups_eq_some_iff.mpr ⟨ls, hls, rfl, rfl⟩,
        toGroups_eq_some_iff.mpr ⟨rs, hrs, rfl, rfl⟩]
      dsimp only
      simp only [List.length_map]
      have hmissing : (8 - (ls.length : ℤ) - rs.length - tail.length).toNat =
          8 - ls.length - rs.length - tail.length := by omega
      rw [if_neg (by omega), hmissing]

/-! ### The last colon

The text is cut there, and what is behind the colon decides between a quad and a group. -/

/-- The text before a dotted quad: without the colon in front of it, unless that is the second one
of `::`. -/
def textBefore (x : Str) : Str := if x.getLast? = some (ofChar ':') then x ++ [ofChar ':'] else x

theorem dropLast_eq_textBefore (x : Str) :
    (if (ofString ":").isSuffixOf (x ++ [ofChar ':']) &&
        !(ofString "::").isSuffixOf (x ++ [ofChar ':']) then
      (x ++ [ofChar ':']).dropLast else x ++ [ofChar ':']) = textBefore x := by
  have hone : (ofString ":").isSuffixOf (x ++ [ofChar ':']) = true :=
    List.isSuffixOf_iff_suffix.mpr (List.suffix_append x _)
  have htwo : (ofString "::").isSuffixOf (x ++ [ofChar ':']) = true ↔
      x.getLast? = some (ofChar ':') := by
    rw [List.isSuffixOf_iff_suffix, List.getLast?_eq_some_iff]
    constructor
    · rintro ⟨y, hy⟩
      have hsame : x ++ [ofChar ':'] = y ++ [ofChar ':'] ++ [ofChar ':'] := by
        rw [← hy, List.append_assoc]
        rfl
      exact ⟨y, List.append_cancel_right hsame⟩
    · rintro ⟨y, rfl⟩
      exact ⟨y, by rw [List.append_assoc]; rfl⟩
  rw [textBefore, hone, Bool.true_and, List.dropLast_concat]
  by_cases hlast : x.getLast? = some (ofChar ':')
  · rw [if_pos hlast, htwo.mpr hlast]
    rfl
  · rw [if_neg hlast, Bool.eq_false_iff.mpr fun h => hlast (htwo.mp h)]
    rfl

theorem shiftLeft_or (a b : UInt8) : a.toNat <<< 8 ||| b.toNat = 256 * a.toNat + b.toNat := by
  have hb : b.toNat < 2 ^ 8 := b.toNat_lt
  rw [← Nat.shiftLeft_add_eq_or_of_lt hb, Nat.shiftLeft_eq]
  omega

theorem dot_mem_dottedQuad (a b c d : UInt8) : ofChar '.' ∈ dottedQuad a b c d := by
  simp only [dottedQuad, join, List.intercalate_cons_cons, List.mem_append]
  exact .inl (.inr (by decide))

/-- **What the parser makes of a text**, by what is behind its last colon. -/
theorem parseIPv6_append_cons {x last : Str} {gs : List ℕ} (hlast : ofChar ':' ∉ last) :
    parseIPv6 (x ++ ofChar ':' :: last) = some gs ↔
      (∀ c ∈ x ++ ofChar ':' :: last, isAddressChar c = true) ∧
      AtMostOnce (ofString "::") (x ++ ofChar ':' :: last) ∧ gs.length = 8 ∧
      ((ofChar '.' ∉ last ∧ groupsBefore (x ++ ofChar ':' :: last) [] = some gs) ∨
        ∃ a b c d : UInt8, last = dottedQuad a b c d ∧ textBefore x ≠ [] ∧
          groupsBefore (textBefore x) [256 * a.toNat + b.toNat, 256 * c.toNat + d.toNat] =
            some gs) := by
  have hafter : lastIndexOf (ofString ":") (x ++ ofChar ':' :: last) = some x.length :=
    lastIndexOf_append_cons hlast
  have hdrop : (x ++ ofChar ':' :: last).drop (x.length + 1) = last := by
    rw [List.drop_append, List.drop_of_length_le (by omega)]
    simp
  have htake : (x ++ ofChar ':' :: last).take (x.length + 1) = x ++ [ofChar ':'] := by
    rw [List.take_append, List.take_of_length_le (by omega)]
    simp
  unfold parseIPv6
  rw [hafter, Option.map_some, Option.getD_some]
  dsimp only
  rw [hdrop, htake, dropLast_eq_textBefore]
  have hcolon : (x ++ ofChar ':' :: last).contains (ofChar ':') = true :=
    List.contains_iff_mem.mpr (List.mem_append_right x (List.mem_cons_self ..))
  by_cases hall : (x ++ ofChar ':' :: last).all isAddressChar = true
  swap
  · rw [if_pos (.inr (.inl hall))]
    exact iff_of_false (by simp) fun h => hall (List.all_eq_true.mpr h.1)
  by_cases honce : AtMostOnce (ofString "::") (x ++ ofChar ':' :: last)
  swap
  · rw [if_neg (by simp [hall]), if_pos fun h => honce (indexOf_eq_lastIndexOf_iff.mp h)]
    exact iff_of_false (by simp) fun h => honce h.2.1
  rw [if_neg (by simp [hall]), if_neg (not_not.mpr (indexOf_eq_lastIndexOf_iff.mpr honce)),
    Option.filter_eq_some_iff, beq_iff_eq, and_comm (b := gs.length = 8)]
  refine Iff.trans (and_congr_right fun _ => ?_)
    ⟨fun h => ⟨List.all_eq_true.mp hall, honce, h⟩, fun h => h.2.2⟩
  by_cases hdot : ofChar '.' ∈ last
  · rw [if_pos (List.contains_iff_mem.mpr hdot), Option.bind_eq_some_iff]
    constructor
    · rintro ⟨v4, hv4, hgroups⟩
      obtain ⟨a, b, c, d, rfl, rfl⟩ := parseIPv4_eq_some_iff.mp hv4
      obtain ⟨hne, hgroups⟩ := (ite_eq_iff.mp hgroups).resolve_left (by simp)
      refine .inr ⟨a, b, c, d, rfl, hne, ?_⟩
      rw [← shiftLeft_or, ← shiftLeft_or]
      exact hgroups
    · rintro (⟨hnone, -⟩ | ⟨a, b, c, d, rfl, hne, hgroups⟩)
      · exact absurd hdot hnone
      · refine ⟨_, parseIPv4_eq_some_iff.mpr ⟨a, b, c, d, rfl, rfl⟩, ?_⟩
        rw [← shiftLeft_or, ← shiftLeft_or] at hgroups
        rw [if_neg hne]
        exact hgroups
  · rw [if_neg fun h => hdot (List.contains_iff_mem.mp h)]
    constructor
    · exact fun h => .inl ⟨hdot, h⟩
    · rintro (⟨-, h⟩ | ⟨a, b, c, d, rfl, -⟩)
      · exact h
      · exact absurd (dot_mem_dottedQuad a b c d) hdot

/-! ### What is read denotes something

By cases on the end and on whether there is a `::`. -/

/-- One more piece behind a colon. -/
theorem join_concat {ts : List Str} (hne : ts ≠ []) (t : Str) :
    join ":" (ts ++ [t]) = join ":" ts ++ ofChar ':' :: t := by
  rw [show join ":" (ts ++ [t]) = [ofChar ':'].intercalate (ts ++ [t]) from rfl,
    intercalate_append hne (by simp), List.intercalate_singleton]
  rfl

/-- Without a dotted quad at the end. -/
theorem denotes_of_groupsBefore_nil {s : Str} {gs : List ℕ}
    (honce : AtMostOnce (ofString "::") s) (hlen : gs.length = 8)
    (h : groupsBefore s [] = some gs) : Denotes s gs := by
  rcases (groupsBefore_eq_some_iff honce).mp h with
    ⟨ts, hts, rfl, rfl⟩ | ⟨ls, rs, hls, hrs, rfl, hsum, rfl⟩
  · have hfull := Denotes.full hts .none (by simpa using hlen)
    rwa [List.append_nil] at hfull
  · have hcompressed := Denotes.compressed hls hrs .none hsum
    rwa [List.append_nil] at hcompressed

/-- With a dotted quad at the end. -/
theorem denotes_of_groupsBefore_quad {x : Str} {a b c d : UInt8} {gs : List ℕ}
    (honce : AtMostOnce (ofString "::") (x ++ ofChar ':' :: dottedQuad a b c d))
    (hlen : gs.length = 8) (hne : textBefore x ≠ [])
    (h : groupsBefore (textBefore x) [256 * a.toNat + b.toNat, 256 * c.toNat + d.toNat] =
      some gs) : Denotes (x ++ ofChar ':' :: dottedQuad a b c d) gs := by
  have hquad := Ending.quad a b c d
  by_cases hcolon : x.getLast? = some (ofChar ':')
  · -- The text before the quad ends in `::`.
    rw [textBefore, if_pos hcolon] at h hne
    have hs : x ++ ofChar ':' :: dottedQuad a b c d =
        (x ++ [ofChar ':']) ++ dottedQuad a b c d := by simp
    rw [hs] at honce ⊢
    rcases (groupsBefore_eq_some_iff honce.of_append).mp h with
      ⟨ts, hts, htext, -⟩ | ⟨ls, rs, hls, hrs, htext, hsum, rfl⟩
    · exact absurd htext.symm (join_ne_concat_colon (fun t ht => (hts t ht).isPiece) x)
    · obtain rfl : rs = [] := by
        by_contra hrs'
        have hpieces : ∀ t ∈ rs, IsPiece t := fun t ht => (hrs t ht).isPiece
        obtain ⟨y, c, hy⟩ := (List.eq_nil_or_concat _).resolve_left (join_ne_nil hpieces hrs')
        rw [hy, List.concat_eq_append, ← List.append_assoc] at htext
        have hc := List.singleton_inj.mp (List.append_inj' htext rfl).2
        exact join_ne_concat_colon hpieces y (by rw [hy, ← hc, List.concat_eq_append])
      rw [htext]
      have hcompressed := Denotes.compressed hls hrs hquad hsum
      simpa using hcompressed
  · rw [textBefore, if_neg hcolon] at h hne
    rcases (groupsBefore_eq_some_iff honce.of_append).mp h with
      ⟨ts, hts, rfl, rfl⟩ | ⟨ls, rs, hls, hrs, rfl, hsum, rfl⟩
    · have hts' : ts ≠ [] := by
        rintro rfl
        exact hne rfl
      rw [← join_concat hts']
      exact .full hts hquad (by simpa using hlen)
    · have hrs' : rs ≠ [] := by
        rintro rfl
        refine hcolon ?_
        rw [show join ":" ([] : List Str) = [] from rfl, List.append_nil, List.getLast?_append]
        rfl
      rw [List.append_assoc, ← join_concat hrs']
      exact .compressed hls hrs hquad hsum

theorem denotes_of_parseIPv6 {s : Str} {gs : List ℕ} (h : parseIPv6 s = some gs) :
    Denotes s gs := by
  have hcolon : ofChar ':' ∈ s := by
    by_contra hnone
    rw [parseIPv6, if_pos (.inr (.inr (mt List.contains_iff_mem.mp hnone)))] at h
    exact absurd h (by simp)
  obtain ⟨x, last, rfl, hlast⟩ := exists_last_of_mem hcolon
  obtain ⟨-, honce, hlen, ⟨-, hgroups⟩ | ⟨a, b, c, d, rfl, hne, hgroups⟩⟩ :=
    (parseIPv6_append_cons hlast).mp h
  · exact denotes_of_groupsBefore_nil honce hlen hgroups
  · exact denotes_of_groupsBefore_quad honce hlen hne hgroups

/-! ### What denotes something is read

By the constructors of `Denotes`. What has to be found is where the last colon is. -/

theorem mem_join_groups {ts : List Str} (h : ∀ t ∈ ts, IsGroup t) {c : Char16}
    (hc : c ∈ join ":" ts) : c = ofChar ':' ∨ DestinationPolicy.isHexDigit c = true := by
  rcases mem_join (fun t ht => (h t ht).isPiece) hc with hcolon | ⟨t, ht, hct⟩
  · exact .inl hcolon
  · exact .inr ((h t ht).chars c hct)

theorem isAddressChar_of_dottedQuad {a b c d : UInt8} {x : Char16} (hx : x ∈ dottedQuad a b c d) :
    isAddressChar x = true := by
  rcases (DestinationPolicy.isQuadText_dottedQuad a b c d).2 x hx with hdigit | hdot
  · simp [isAddressChar, DestinationPolicy.isHexDigit, hdigit]
  · rw [beq_iff_eq.mp hdot]
    decide

/-- The characters of an address, and how often `::` is in it. -/
theorem Denotes.shape {s : Str} {gs : List ℕ} (h : Denotes s gs) :
    (∀ c ∈ s, isAddressChar c = true) ∧ AtMostOnce (ofString "::") s ∧ gs.length = 8 := by
  have hchars : ∀ {ts q : List Str} {tail : List ℕ}, (∀ t ∈ ts, IsGroup t) → Ending q tail →
      ∀ c ∈ join ":" (ts ++ q), isAddressChar c = true := by
    intro ts q tail hts hq c hc
    rcases mem_join (hq.isPiece hts) hc with rfl | ⟨t, ht, hct⟩
    · decide
    rcases List.mem_append.mp ht with ht | ht
    · simp [isAddressChar, (hts t ht).chars c hct]
    · cases hq with
      | none => exact absurd ht List.not_mem_nil
      | quad a b c d =>
        rw [List.mem_singleton.mp ht] at hct
        exact isAddressChar_of_dottedQuad hct
  cases h with
  | full hts hq hlen =>
    refine ⟨hchars hts hq, fun l r _ _ hs => ?_, by simpa using hlen⟩
    exact absurd hs (join_ne_double (hq.isPiece hts) l r)
  | @compressed ls rs q tail hls hrs hq hlen =>
    have hleft : ∀ t ∈ ls, IsPiece t := fun t ht => (hls t ht).isPiece
    have hright := hq.isPiece hrs
    refine ⟨?_, ?_, ?_⟩
    · intro c hc
      rcases List.mem_append.mp hc with hc | hc
      · rcases List.mem_append.mp hc with hc | hc
        · exact hchars hls .none c (by rwa [List.append_nil])
        · rw [show ofString "::" = [ofChar ':', ofChar ':'] from rfl] at hc
          obtain rfl : c = ofChar ':' := by simpa using hc
          decide
      · exact hchars hrs hq c hc
    · exact atMostOnce_pair (join_ne_double hleft) (join_ne_concat_colon hleft)
        (join_ne_double hright) (join_ne_colon_cons hright)
    · simp only [List.length_append, List.length_map, List.length_replicate]
      omega

/-- Without a dotted quad at the end. -/
theorem parseIPv6_of_groupsBefore_nil {s : Str} {gs : List ℕ} (h : Denotes s gs)
    (hcolon : ofChar ':' ∈ s) (hdot : ofChar '.' ∉ s) (hgroups : groupsBefore s [] = some gs) :
    parseIPv6 s = some gs := by
  obtain ⟨hchars, honce, hlen⟩ := h.shape
  obtain ⟨x, last, rfl, hlast⟩ := exists_last_of_mem hcolon
  rw [parseIPv6_append_cons hlast]
  refine ⟨hchars, honce, hlen, .inl ⟨fun hmem => hdot ?_, hgroups⟩⟩
  exact List.mem_append_right x (List.mem_cons_of_mem _ hmem)

/-- With a dotted quad at the end. -/
theorem parseIPv6_of_groupsBefore_quad {x : Str} {a b c d : UInt8} {gs : List ℕ}
    (h : Denotes (x ++ ofChar ':' :: dottedQuad a b c d) gs) (hne : x ≠ [])
    (hgroups : groupsBefore (textBefore x) [256 * a.toNat + b.toNat, 256 * c.toNat + d.toNat] =
      some gs) : parseIPv6 (x ++ ofChar ':' :: dottedQuad a b c d) = some gs := by
  obtain ⟨hchars, honce, hlen⟩ := h.shape
  rw [parseIPv6_append_cons (isPiece_dottedQuad a b c d).2]
  refine ⟨hchars, honce, hlen, .inr ⟨a, b, c, d, rfl, ?_, hgroups⟩⟩
  rw [textBefore]
  split
  · simp
  · exact hne

theorem parseIPv6_of_denotes {s : Str} {gs : List ℕ} (h : Denotes s gs) :
    parseIPv6 s = some gs := by
  have hdot : ∀ {ts : List Str}, (∀ t ∈ ts, IsGroup t) → ofChar '.' ∉ join ":" ts := by
    intro ts hts hmem
    exact (mem_join_groups hts hmem).elim (by decide) (by decide)
  have hends : ∀ {ts : List Str}, (∀ t ∈ ts, IsGroup t) →
      (join ":" ts).getLast? ≠ some (ofChar ':') := by
    intro ts hts hlast
    obtain ⟨y, hy⟩ := List.getLast?_eq_some_iff.mp hlast
    exact join_ne_concat_colon (fun t ht => (hts t ht).isPiece) y hy
  have hdenotes := h
  obtain ⟨-, honce, -⟩ := h.shape
  cases h with
  | @full ts q tail hts hq hlen =>
    cases hq with
    | none =>
      rw [List.append_nil] at *
      obtain ⟨init, t, rfl⟩ := (List.eq_nil_or_concat ts).resolve_left (by rintro rfl; simp at hlen)
      rw [List.concat_eq_append] at *
      have hinit : init ≠ [] := by
        rintro rfl
        simp at hlen
      refine parseIPv6_of_groupsBefore_nil hdenotes ?_ (hdot hts) ?_
      · rw [join_concat hinit]
        simp
      · exact (groupsBefore_eq_some_iff honce).mpr (.inl ⟨_, hts, rfl, rfl⟩)
    | quad a b c d =>
      have hne : ts ≠ [] := by
        rintro rfl
        simp at hlen
      rw [join_concat hne] at *
      refine parseIPv6_of_groupsBefore_quad hdenotes ?_ ?_
      · exact join_ne_nil (fun t ht => (hts t ht).isPiece) hne
      · rw [textBefore, if_neg (hends hts)]
        exact (groupsBefore_eq_some_iff honce.of_append).mpr (.inl ⟨_, hts, rfl, rfl⟩)
  | @compressed ls rs q tail hls hrs hq hlen =>
    cases hq with
    | none =>
      rw [List.append_nil] at *
      refine parseIPv6_of_groupsBefore_nil hdenotes ?_ ?_ ?_
      · exact List.mem_append_left _ (List.mem_append_right _ (by decide))
      · rw [List.mem_append, List.mem_append, not_or, not_or]
        exact ⟨⟨hdot hls, by decide⟩, hdot hrs⟩
      · exact (groupsBefore_eq_some_iff honce).mpr (.inr ⟨ls, rs, hls, hrs, rfl, hlen, rfl⟩)
    | quad a b c d =>
      by_cases hne : rs = []
      · -- The quad is right behind the `::`.
        subst hne
        have hs : join ":" ls ++ ofString "::" ++ join ":" ([] ++ [dottedQuad a b c d]) =
            (join ":" ls ++ [ofChar ':']) ++ ofChar ':' :: dottedQuad a b c d := by
          have hjoin : join ":" ([] ++ [dottedQuad a b c d]) = dottedQuad a b c d := by simp
          rw [hjoin, List.append_assoc, List.append_assoc]
          rfl
        have htext : (join ":" ls ++ [ofChar ':']) ++ [ofChar ':'] =
            join ":" ls ++ ofString "::" := by
          rw [List.append_assoc]
          rfl
        have honce' : AtMostOnce (ofString "::") (join ":" ls ++ ofString "::") := honce.of_append
        rw [hs] at hdenotes ⊢
        refine parseIPv6_of_groupsBefore_quad hdenotes (by simp) ?_
        rw [textBefore, if_pos (by simp), htext]
        exact (groupsBefore_eq_some_iff honce').mpr
          (.inr ⟨ls, [], hls, hrs, (List.append_nil _).symm, hlen, rfl⟩)
      · have hright : join ":" rs ≠ [] := join_ne_nil (fun t ht => (hrs t ht).isPiece) hne
        rw [join_concat hne, ← List.append_assoc] at *
        refine parseIPv6_of_groupsBefore_quad hdenotes (by simp [hright]) ?_
        have hlast : (join ":" ls ++ ofString "::" ++ join ":" rs).getLast? ≠
            some (ofChar ':') := by
          rw [List.getLast?_append_of_ne_nil _ hright]
          exact hends hrs
        rw [textBefore, if_neg hlast]
        exact (groupsBefore_eq_some_iff honce.of_append).mpr
          (.inr ⟨ls, rs, hls, hrs, rfl, hlen, rfl⟩)

/-- The groups of an address are 16 bits wide. -/
theorem Denotes.lt {s : Str} {gs : List ℕ} (h : Denotes s gs) : ∀ g ∈ gs, g < 2 ^ 16 := by
  have hgroups : ∀ {ts : List Str}, (∀ t ∈ ts, IsGroup t) → ∀ g ∈ ts.map hexValue, g < 2 ^ 16 := by
    intro ts hts g hg
    obtain ⟨t, ht, rfl⟩ := List.mem_map.mp hg
    calc hexValue t < 16 ^ t.length := hexValue_lt t
      _ ≤ 16 ^ 4 := Nat.pow_le_pow_right (by decide) (hts t ht).length_le
      _ = 2 ^ 16 := by decide
  have htail : ∀ {q : List Str} {tail : List ℕ}, Ending q tail → ∀ g ∈ tail, g < 2 ^ 16 := by
    intro q tail hq g hg
    cases hq with
    | none => exact absurd hg List.not_mem_nil
    | quad a b c d =>
      have ha := a.toNat_lt
      have hb := b.toNat_lt
      have hc := c.toNat_lt
      have hd := d.toNat_lt
      simp only [List.mem_cons, List.not_mem_nil, or_false] at hg
      omega
  intro g hg
  cases h with
  | full hts hq _ =>
    exact (List.mem_append.mp hg).elim (hgroups hts g) (htail hq g)
  | compressed hls hrs hq _ =>
    rw [List.mem_append, List.mem_append, List.mem_append] at hg
    rcases hg with ((hg | hg) | hg) | hg
    · exact hgroups hls g hg
    · rw [List.eq_of_mem_replicate hg]
      decide
    · exact hgroups hrs g hg
    · exact htail hq g hg

/-- **The browser reads exactly the forms of RFC 4291**, as the eight groups that they denote. -/
theorem parseIPv6_eq_some_iff (s : Str) :
    (∀ gs, parseIPv6 s = some gs ↔ Denotes s gs) ∧
      ((parseIPv6 s).isSome ↔ ∃ gs, Denotes s gs) ∧
      ∀ gs, Denotes s gs → gs.length = 8 ∧ ∀ g ∈ gs, g < 2 ^ 16 := by
  have hread : ∀ gs, parseIPv6 s = some gs ↔ Denotes s gs :=
    fun gs => ⟨denotes_of_parseIPv6, parseIPv6_of_denotes⟩
  refine ⟨hread, ?_, fun gs h => ⟨h.shape.2.2, h.lt⟩⟩
  rw [Option.isSome_iff_exists]
  exact exists_congr hread

end Validation

end LookingGlass
