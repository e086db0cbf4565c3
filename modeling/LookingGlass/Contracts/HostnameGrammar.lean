import LookingGlass.Contracts.DestinationPolicy

/-!
# The language of accepted hostnames

The parser decides about a hostname in eight filters spread over two functions, the last of which
compares strings with `EndsWith`. `HostnameGrammar` is what these filters amount to: one grammar
over the labels of the normalised name, in which a blocked suffix is a suffix *of the list of
labels*. It mentions no runtime and no filter.

## Suffixes of names and suffixes of texts

A name is at or under a suffix if its last labels are those of the suffix. The code compares texts:
the name is the suffix, or it ends in a dot and the suffix. `isBlockedName_iff` says that these are
the same, because a dot in front of the suffix is the boundary of a label. The comparison of texts
alone, without the dot, would refuse `mylocal` along with `local`.

Which suffixes there are is said in terms of the two lists that the policy is made from. Each entry
is trimmed and lower-cased, and an entry of which nothing is left counts for nothing. The built-in
ones are in that form already.

## Case

Lower-casing is a function of the runtime, of which only its effect on ASCII is known. That is
enough: a hostname outside ASCII is refused before it is lower-cased.

## Main results

* `DestinationPolicy.parse_hostname_iff` — the parser accepts exactly this language
* `DestinationPolicy.parse_hostname_self` — an accepted name is accepted as it stands
-/

namespace LookingGlass

open Utf16

/-- A label of an accepted name: lower-case letters, digits and hyphens, no hyphen at the ends, and
underscores where they are allowed. -/
@[mk_iff]
structure IsHostLabel (allowUnderscore : Bool) (label : Str) : Prop where
  length_pos : 1 ≤ label.length
  length_le : label.length ≤ 63
  chars : ∀ c ∈ label, isLower c ∨ isDigit c ∨ c = ofChar '-' ∨
    (allowUnderscore = true ∧ c = ofChar '_')
  head_ne : label.head? ≠ some (ofChar '-')
  last_ne : label.getLast? ≠ some (ofChar '-')

/-- The trimmed input, lower-cased, without its trailing dots. -/
def normalisedName (input : Str) : Str :=
  ((trim Runtime.isWhiteSpace input).map asciiLower).rdropWhile DestinationPolicy.isDot

/-- `input` is a spelling of the name `name`, and `name` is an accepted hostname: it is in the
language of hostnames and at or under none of the suffixes. A suffix is compared label by label, so
that the end of a label is none. -/
@[mk_iff]
structure HostnameGrammar (allowUnderscore : Bool) (suffixes : List Str) (input name : Str) :
    Prop where
  name_eq : name = normalisedName input
  input_length : (trim Runtime.isWhiteSpace input).length ≤ 255
  ascii : IsAscii (trim Runtime.isWhiteSpace input)
  length_pos : 1 ≤ name.length
  length_le : name.length ≤ 253
  two_labels : 2 ≤ (split '.' name).length
  label : ∀ l ∈ split '.' name, IsHostLabel allowUnderscore l
  tld : ∀ tld ∈ (split '.' name).getLast?, (∃ c ∈ tld, isDigit c = false) ∧ ofChar '_' ∉ tld
  not_blocked : ∀ suffix ∈ suffixes, ¬ split '.' suffix <:+ split '.' name

instance (allowUnderscore : Bool) (label : Str) : Decidable (IsHostLabel allowUnderscore label) :=
  decidable_of_iff' _ (isHostLabel_iff allowUnderscore label)

instance (allowUnderscore : Bool) (suffixes : List Str) (input name : Str) :
    Decidable (HostnameGrammar allowUnderscore suffixes input name) :=
  decidable_of_iff' _ (hostnameGrammar_iff allowUnderscore suffixes input name)

namespace DestinationPolicy

/-! ### The character classes of a hostname

Letters, digits, hyphens, underscores and dots; none of them is stopped by a filter for characters.
-/

/-- A code unit that may occur in a spelling of an accepted name. -/
def isHostChar (c : Char16) : Bool := isAlnum c || c == ofChar '-' || c == ofChar '_' || isDot c

/-- A hostname character lies between `'-'` and `'z'` and is no URL character. -/
theorem isHostChar_range {c : Char16} (h : isHostChar c) :
    0x2d ≤ c.toNat ∧ c.toNat ≤ 0x7a ∧ c.toNat ∉ [0x2f, 0x3a, 0x3f, 0x40, 0x5c] := by
  have hlit : ofChar '.' = 0x2e ∧ ofChar '-' = 0x2d ∧ ofChar '_' = 0x5f := by decide
  obtain ⟨hdot, hhyphen, hunderscore⟩ := hlit
  simp only [isHostChar, isAlnum, isUpper, isLower, isDigit, isDot, hdot, hhyphen, hunderscore,
    Bool.or_eq_true, Bool.and_eq_true, decide_eq_true_eq, beq_iff_eq, UInt16.le_iff_toNat_le,
    ← UInt16.toNat_inj, UInt16.reduceToNat] at h
  simp only [List.mem_cons, List.not_mem_nil, or_false]
  omega

/-- Characters of a hostname pass every character filter of the parser. -/
theorem isHostChar_passes {c : Char16} (h : isHostChar c) :
    c ≤ 0x7e ∧ (decide (c < 0x20) || c == 0x7f || Runtime.isWhiteSpace c) = false ∧
      c ∉ [ofChar '/', ofChar '\\', ofChar '?', ofChar '#', ofChar '@', ofChar ':'] := by
  obtain ⟨hlow, hhigh, hne⟩ := isHostChar_range h
  have hlit : [ofChar '/', ofChar '\\', ofChar '?', ofChar '#', ofChar '@', ofChar ':'] =
      [0x2f, 0x5c, 0x3f, 0x23, 0x40, 0x3a] := by decide
  rw [hlit]
  simp only [Runtime.isWhiteSpace, Bool.or_eq_false_iff, Bool.and_eq_false_iff,
    decide_eq_false_iff_not, beq_eq_false_iff_ne, ne_eq, List.mem_cons, List.not_mem_nil, or_false,
    UInt16.le_iff_toNat_le, UInt16.lt_iff_toNat_lt, ← UInt16.toNat_inj, UInt16.reduceToNat] at *
  omega

theorem isHostChar_of_asciiLower {c : Char16} (h : isHostChar (asciiLower c)) : isHostChar c := by
  by_cases hc : isUpper c
  · simp [isHostChar, isAlnum, hc]
  · rwa [asciiLower_of_not_isUpper (Bool.eq_false_iff.mpr hc)] at h

/-- Lower-casing keeps dots and makes no new ones. -/
theorem isDot_asciiLower (c : Char16) : isDot (asciiLower c) = isDot c := by
  rw [isDot, isDot, Bool.eq_iff_iff, beq_iff_eq, beq_iff_eq]
  exact asciiLower_eq_iff (by decide) (by decide)

/-! ### The filters, one by one

Each filter is turned into a condition on the labels. -/

/-- The string test of the parser is the label test of the grammar. -/
theorem isBlockedName_iff (policy : DestinationPolicy) (name : Str) :
    policy.isBlockedName name = true ↔
      ∃ suffix ∈ policy.blockedSuffixes, split '.' suffix <:+ split '.' name := by
  rw [isBlockedName, List.any_eq_true]
  refine exists_congr fun suffix => and_congr_right fun _ => ?_
  rw [Bool.or_eq_true, beq_iff_eq, List.isSuffixOf_iff_suffix, splitOn_isSuffix_iff]

theorem isValidLabel_iff {label : Str} {allowUnderscore : Bool}
    (h : ∀ c ∈ label, isUpper c = false) :
    isValidLabel label allowUnderscore = true ↔ IsHostLabel allowUnderscore label := by
  have hchars : (label.all fun c => isAlnum c || c == ofChar '-' ||
      (allowUnderscore && c == ofChar '_')) = true ↔
        ∀ c ∈ label, isLower c ∨ isDigit c ∨ c = ofChar '-' ∨
          (allowUnderscore = true ∧ c = ofChar '_') := by
    rw [List.all_eq_true]
    refine forall₂_congr fun c hc => ?_
    simp [isAlnum, h c hc, or_assoc]
  unfold isValidLabel
  split
  · next hlen =>
    refine ⟨fun hf => absurd hf (by simp), fun hl => ?_⟩
    have := hl.length_pos
    have := hl.length_le
    omega
  split
  · next hends =>
    refine ⟨fun hf => absurd hf (by simp), fun hl => ?_⟩
    exact absurd hends (not_or.mpr ⟨hl.head_ne, hl.last_ne⟩)
  · next hlen hends =>
    rw [hchars]
    rw [not_or] at hends
    exact ⟨fun hc => ⟨by omega, by omega, hc, hends.1, hends.2⟩, fun hl => hl.chars⟩

theorem parseHostname_eq_ok_iff {rt : Runtime} {policy : DestinationPolicy} {text name : Str}
    {allowUnderscore : Bool} :
    parseHostname rt policy text allowUnderscore = .ok (.hostname name) ↔
      (∀ c ∈ text, c ≤ 0x7e) ∧ name = rt.toLowerInvariant (text.rdropWhile isDot) ∧
        (1 ≤ name.length ∧ name.length ≤ 253) ∧
        (∀ l ∈ split '.' name, isValidLabel l allowUnderscore = true) ∧
        2 ≤ (split '.' name).length ∧
        (∀ tld, (split '.' name).getLast? = some tld →
          (∃ c ∈ tld, isDigit c = false) ∧ ofChar '_' ∉ tld) ∧
        policy.isBlockedName name = false := by
  have hlast : ∀ {P : Str → Prop} (name : Str),
      (∀ tld, (split '.' name).getLast? = some tld → P tld) ↔
        P ((split '.' name).getLast?.getD []) := by
    intro P name
    rw [List.getLast?_eq_some_getLast (List.splitOn_ne_nil _ _)]
    simp
  have htld : ∀ tld : Str, (tld.all isDigit || tld.contains (ofChar '_')) = false ↔
      (∃ c ∈ tld, isDigit c = false) ∧ ofChar '_' ∉ tld := by
    intro tld
    rw [Bool.or_eq_false_iff, List.all_eq_false, Bool.eq_false_iff, ne_eq, List.contains_iff_mem]
    simp only [Bool.not_eq_true]
  simp only [parseHostname, DestinationParseResult.invalid, DestinationParseResult.blocked,
    ite_error_eq_ok, hlast, Except.ok.injEq, ParsedDestination.hostname.injEq]
  generalize rt.toLowerInvariant (text.rdropWhile isDot) = lowered
  constructor
  · rintro ⟨hascii, hlen, hlabels, htwo, htld', hblocked, rfl⟩
    refine ⟨by simpa using hascii, rfl, by omega, by simpa using hlabels, by omega, ?_, ?_⟩
    · exact (htld _).mp (Bool.eq_false_iff.mpr htld')
    · exact Bool.eq_false_iff.mpr hblocked
  · rintro ⟨hascii, rfl, hlen, hlabels, htwo, htld', hblocked⟩
    refine ⟨by simpa using hascii, by omega, by simpa using hlabels, by omega, ?_, ?_, rfl⟩
    · exact Bool.eq_false_iff.mp ((htld _).mpr htld')
    · exact Bool.eq_false_iff.mp hblocked

/-! ### The pipeline and the grammar

The filters in front of `parseHostname` are all passed by a spelling of an accepted name, which is
what makes the equivalence one. -/

/-- An accepted name consists of hostname characters. -/
theorem isHostChar_of_label {allowUnderscore : Bool} {name : Str}
    (h : ∀ l ∈ split '.' name, IsHostLabel allowUnderscore l) {c : Char16} (hc : c ∈ name) :
    isHostChar c := by
  obtain rfl | ⟨l, hl, hcl⟩ : c = ofChar '.' ∨ ∃ l ∈ split '.' name, c ∈ l := eq_or_mem_splitOn hc
  · decide
  · rcases (h l hl).chars c hcl with hlow | hdig | rfl | ⟨-, rfl⟩
    · simp [isHostChar, isAlnum, hlow]
    · simp [isHostChar, isAlnum, hdig]
    · decide
    · decide

/-- A spelling consists of hostname characters if the name does: what is trimmed off at the end
are dots. -/
theorem isHostChar_of_normalisedName {input : Str} (h : ∀ c ∈ normalisedName input, isHostChar c)
    {c : Char16} (hc : c ∈ trim Runtime.isWhiteSpace input) : isHostChar c := by
  apply isHostChar_of_asciiLower
  have hmem : asciiLower c ∈ (trim Runtime.isWhiteSpace input).map asciiLower :=
    List.mem_map_of_mem hc
  have hparts : normalisedName input ++
      ((trim Runtime.isWhiteSpace input).map asciiLower).rtakeWhile isDot =
        (trim Runtime.isWhiteSpace input).map asciiLower := List.rdropWhile_append_rtakeWhile
  rw [← hparts, List.mem_append] at hmem
  rcases hmem with hname | hdots
  · exact h _ hname
  · have hdot := List.mem_rtakeWhile_imp hdots
    simp [isHostChar, hdot]

/-- Text of hostname characters is ASCII. -/
theorem isAscii_of_isHostChar {s : Str} (h : ∀ c ∈ s, isHostChar c) : IsAscii s := by
  intro c hc
  have := (isHostChar_passes (h c hc)).1
  grind

/-- A text without the characters of a path, a query or credentials is no URL. -/
theorem not_url_of_notMem {text : Str}
    (h : ∀ c ∈ text, c ∉ [ofChar '/', ofChar '\\', ofChar '?', ofChar '#', ofChar '@']) :
    (containsText "://" text || text.contains (ofChar '/') || text.contains (ofChar '\\') ||
      text.contains (ofChar '?') || text.contains (ofChar '#') ||
      text.contains (ofChar '@')) = false := by
  have hnot : ∀ d ∈ [ofChar '/', ofChar '\\', ofChar '?', ofChar '#', ofChar '@'],
      text.contains d = false := by
    intro d hd
    rw [Bool.eq_false_iff, ne_eq, List.contains_iff_mem]
    intro hmem
    exact h d hmem hd
  have hurl : containsText "://" text = false := by
    rw [Bool.eq_false_iff]
    intro hc
    obtain ⟨tail, htail, hpre⟩ := List.any_eq_true.mp hc
    have hslash : ofChar '/' ∈ text :=
      ((List.mem_tails _ _).mp htail).subset ((List.isPrefixOf_iff_prefix.mp hpre).subset
        (by decide : ofChar '/' ∈ ofString "://"))
    exact absurd (List.contains_iff_mem.mpr hslash) (by rw [hnot _ (by simp)]; simp)
  rw [hurl, hnot _ (by simp), hnot _ (by simp), hnot _ (by simp), hnot _ (by simp),
    hnot _ (by simp)]
  rfl

/-- Text of hostname characters is no URL, and no IPv6 address. -/
theorem contains_of_isHostChar {text : Str} (h : ∀ c ∈ text, isHostChar c) :
    (containsText "://" text || text.contains (ofChar '/') || text.contains (ofChar '\\') ||
        text.contains (ofChar '?') || text.contains (ofChar '#') ||
        text.contains (ofChar '@')) = false ∧
      text.contains (ofChar ':') = false := by
  constructor
  · refine not_url_of_notMem fun c hc hmem => (isHostChar_passes (h c hc)).2.2 ?_
    exact List.mem_append_left [ofChar ':'] hmem
  · rw [Bool.eq_false_iff, ne_eq, List.contains_iff_mem]
    intro hmem
    exact (isHostChar_passes (h _ hmem)).2.2 (by simp)

/-- An accepted name has a character that is neither a digit nor a dot. -/
theorem exists_letter_of_grammar {allowUnderscore : Bool} {suffixes : List Str} {input name : Str}
    (h : HostnameGrammar allowUnderscore suffixes input name) :
    ∃ c ∈ trim Runtime.isWhiteSpace input, (isDigit c || isDot c) = false := by
  obtain ⟨tld, hlast⟩ : ∃ tld, (split '.' name).getLast? = some tld :=
    ⟨_, List.getLast?_eq_some_getLast (List.splitOn_ne_nil _ _)⟩
  obtain ⟨⟨d, hd, hdigit⟩, -⟩ := h.tld tld hlast
  have hmem := List.mem_of_getLast? hlast
  have hdname : d ∈ normalisedName input := h.name_eq ▸ mem_of_mem_splitOn hmem hd
  have hdot : d ≠ ofChar '.' := fun he => not_mem_of_mem_splitOn hmem (he ▸ hd)
  obtain ⟨c, hc, rfl⟩ := List.mem_map.mp ((List.rdropWhile_prefix isDot _).subset hdname)
  refine ⟨c, hc, ?_⟩
  rw [Bool.or_eq_false_iff]
  constructor
  · rw [Bool.eq_false_iff]
    intro hcd
    rw [asciiLower_of_not_isUpper, hcd] at hdigit
    · exact absurd hdigit (by simp)
    · simp only [isDigit, isUpper, Bool.and_eq_true, decide_eq_true_eq, Bool.and_eq_false_iff,
        decide_eq_false_iff_not] at hcd ⊢
      grind
  · rw [← isDot_asciiLower, isDot, beq_eq_false_iff_ne]
    exact hdot

/-- Lower-casing and dropping the trailing dots commute, on ASCII text in every runtime. -/
theorem toLowerInvariant_rdropWhile (rt : Runtime) {input : Str}
    (h : IsAscii (trim Runtime.isWhiteSpace input)) :
    rt.toLowerInvariant ((trim Runtime.isWhiteSpace input).rdropWhile isDot) =
      normalisedName input := by
  rw [normalisedName, rdropWhile_map isDot_asciiLower, rt.toLowerInvariant_ascii]
  exact fun c hc => h c ((List.rdropWhile_prefix isDot _).subset hc)

theorem isUpper_of_mem_normalisedName {input : Str} {c : Char16} (h : c ∈ normalisedName input) :
    isUpper c = false := by
  obtain ⟨b, -, rfl⟩ := List.mem_map.mp ((List.rdropWhile_prefix isDot _).subset h)
  exact isUpper_asciiLower b

/-- The pipeline of filters is the grammar, for every policy. -/
theorem parse_eq_hostname_iff {rt : Runtime} {policy : DestinationPolicy} {input name : Str}
    {allowUnderscore : Bool} :
    parse rt policy (some input) allowUnderscore = .ok (.hostname name) ↔
      HostnameGrammar allowUnderscore policy.blockedSuffixes input name := by
  have hlabel : name = normalisedName input → ((∀ l ∈ split '.' name,
      isValidLabel l allowUnderscore = true) ↔
        ∀ l ∈ split '.' name, IsHostLabel allowUnderscore l) := by
    rintro rfl
    exact forall₂_congr fun l hl => isValidLabel_iff fun c hc =>
      isUpper_of_mem_normalisedName (mem_of_mem_splitOn hl hc)
  have hblocked : policy.isBlockedName name = false ↔
      ∀ suffix ∈ policy.blockedSuffixes, ¬ split '.' suffix <:+ split '.' name := by
    rw [Bool.eq_false_iff, ne_eq, isBlockedName_iff]
    push Not
    rfl
  rw [parse_eq_ok_iff, Option.getD_some]
  constructor
  · -- Only the hostname branch of the dispatch yields a hostname.
    rintro ⟨-, hlen, -, -, hbranch⟩
    split at hbranch
    · obtain ⟨a, -, h⟩ := parseIpv6_eq_ok hbranch
      exact absurd h (by simp)
    split at hbranch
    · obtain ⟨a, -, h⟩ := parseIpv4_eq_ok hbranch
      exact absurd h (by simp)
    obtain ⟨hascii, hname, hnlen, hlabels, htwo, htld, hfree⟩ := parseHostname_eq_ok_iff.mp hbranch
    have hasc : IsAscii (trim Runtime.isWhiteSpace input) := by
      intro c hc
      have := hascii c hc
      grind
    rw [toLowerInvariant_rdropWhile rt hasc] at hname
    exact ⟨hname, hlen, hasc, hnlen.1, hnlen.2, htwo, (hlabel hname).mp hlabels, htld,
      hblocked.mp hfree⟩
  · intro h
    have hchar : ∀ c ∈ trim Runtime.isWhiteSpace input, isHostChar c := by
      intro c hc
      refine isHostChar_of_normalisedName (fun c hc => ?_) hc
      exact isHostChar_of_label h.label (h.name_eq ▸ hc)
    obtain ⟨hurl, hcolon⟩ := contains_of_isHostChar hchar
    obtain ⟨letter, hletter, hnodigit⟩ := exists_letter_of_grammar h
    refine ⟨?_, h.input_length, fun c hc => (isHostChar_passes (hchar c hc)).2.1, hurl, ?_⟩
    · rw [Runtime.isNullOrWhiteSpace, List.all_eq_false]
      by_contra hall
      push Not at hall
      rw [trim_eq_nil_iff.mpr fun c hc => by simpa using hall c hc] at hletter
      exact absurd hletter (by simp)
    · rw [hcolon, if_neg Bool.false_ne_true, if_neg]
      · rw [parseHostname_eq_ok_iff]
        refine ⟨fun c hc => (isHostChar_passes (hchar c hc)).1, ?_, ⟨h.length_pos, h.length_le⟩,
          (hlabel h.name_eq).mpr h.label, h.two_labels, h.tld, hblocked.mpr h.not_blocked⟩
        rw [toLowerInvariant_rdropWhile rt h.ascii, h.name_eq]
      · rw [List.all_eq_true]
        exact fun hall => absurd (hall letter hletter) (by simp [hnodigit])

/-! ### The language of a configured policy

What the constructor makes of the built-in suffixes and of the extra ones. -/

/-- Normalising leaves the built-in suffixes as they are. -/
theorem normaliseSuffix_default (rt : Runtime) {suffix : Str}
    (h : suffix ∈ defaultBlockedSuffixes) :
    normaliseSuffix rt suffix = suffix ∧ suffix ≠ [] := by
  have htrim : ∀ s ∈ defaultBlockedSuffixes, trim isDot (trim Runtime.isWhiteSpace s) = s ∧
      IsAscii s ∧ s.map asciiLower = s ∧ s ≠ [] := by decide
  obtain ⟨hself, hascii, hlower, hne⟩ := htrim suffix h
  rw [normaliseSuffix, hself, rt.toLowerInvariant_ascii suffix hascii, hlower]
  exact ⟨rfl, hne⟩

/-- The constructor leaves the built-in suffixes as they are. -/
theorem blockedSuffixes_new_none (rt : Runtime) (blocklist : Option IpBlocklist) :
    (new rt blocklist none).blockedSuffixes = defaultBlockedSuffixes := by
  have hself : defaultBlockedSuffixes.map (normaliseSuffix rt) = defaultBlockedSuffixes := by
    conv_rhs => rw [← List.map_id defaultBlockedSuffixes]
    exact List.map_congr_left fun s hs => (normaliseSuffix_default rt hs).1
  rw [new, Option.getD_none, List.append_nil, hself, List.filter_eq_self]
  exact fun s hs => decide_eq_true (List.length_pos_iff.mpr (normaliseSuffix_default rt hs).2)

/-- The suffixes of a policy, in no order: the built-in and the extra ones, normalised, without
those of which nothing is left. -/
theorem mem_blockedSuffixes_new {rt : Runtime} {blocklist : Option IpBlocklist}
    {extraSuffixes : Option (List Str)} {suffix : Str} :
    suffix ∈ (new rt blocklist extraSuffixes).blockedSuffixes ↔
      ∃ s ∈ defaultBlockedSuffixes ++ extraSuffixes.getD [],
        normaliseSuffix rt s = suffix ∧ suffix ≠ [] := by
  rw [new, List.mem_filter, List.mem_map, decide_eq_true_iff, List.length_pos_iff]
  exact ⟨fun ⟨⟨s, hs, heq⟩, hne⟩ => ⟨s, hs, heq, hne⟩, fun ⟨s, hs, heq, hne⟩ => ⟨⟨s, hs, heq⟩, hne⟩⟩

/-- A name that merely ends in the letters of a built-in suffix is accepted. -/
theorem parse_default_of_grammar {rt : Runtime} {blocklist : Option IpBlocklist} {name : Str}
    {allowUnderscore : Bool}
    (h : HostnameGrammar allowUnderscore defaultBlockedSuffixes name name) :
    parse rt (new rt blocklist none) (some name) allowUnderscore = .ok (.hostname name) := by
  rw [parse_eq_hostname_iff, blockedSuffixes_new_none]
  exact h

/-- **The accepted hostnames are the language of the grammar**, for every runtime, blocklist and
list of extra suffixes, where what is blocked is read off the two lists and not off the policy that
is built of them. In particular no spelling of a name at or under a built-in suffix, or under an
extra one of which normalising leaves anything, is accepted as a hostname; and a name that only ends
in the letters of a suffix is not refused. -/
theorem parse_hostname_iff (rt : Runtime) (blocklist : Option IpBlocklist)
    (extraSuffixes : Option (List Str)) (allowUnderscore : Bool) :
    (∀ input name, parse rt (new rt blocklist extraSuffixes) (some input) allowUnderscore =
        .ok (.hostname name) ↔
      HostnameGrammar allowUnderscore
        (((defaultBlockedSuffixes ++ extraSuffixes.getD []).map (normaliseSuffix rt)).filter
          fun suffix => suffix ≠ []) input name) ∧
    (∀ input, ∀ suffix ∈ defaultBlockedSuffixes ++ extraSuffixes.getD [],
      normaliseSuffix rt suffix ≠ [] →
      split '.' (normaliseSuffix rt suffix) <:+ split '.' (normalisedName input) → ∀ name,
        parse rt (new rt blocklist extraSuffixes) (some input) allowUnderscore ≠
          .ok (.hostname name)) ∧
    (∀ input, ∀ suffix ∈ defaultBlockedSuffixes,
      split '.' suffix <:+ split '.' (normalisedName input) → ∀ name,
        parse rt (new rt blocklist extraSuffixes) (some input) allowUnderscore ≠
          .ok (.hostname name)) ∧
    ∀ name ∈ [ofString "mylocal.com", ofString "notsvc.net"],
      parse rt (new rt blocklist none) (some name) allowUnderscore = .ok (.hostname name) := by
  have hrefused : ∀ input, ∀ suffix ∈ defaultBlockedSuffixes ++ extraSuffixes.getD [],
      normaliseSuffix rt suffix ≠ [] →
      split '.' (normaliseSuffix rt suffix) <:+ split '.' (normalisedName input) → ∀ name,
        parse rt (new rt blocklist extraSuffixes) (some input) allowUnderscore ≠
          .ok (.hostname name) := by
    intro input suffix hsuffix hne hunder name hparse
    have h := parse_eq_hostname_iff.mp hparse
    refine h.not_blocked (normaliseSuffix rt suffix) ?_ (h.name_eq ▸ hunder)
    exact mem_blockedSuffixes_new.mpr ⟨suffix, hsuffix, rfl, hne⟩
  refine ⟨fun input name => ?_, hrefused, fun input suffix hsuffix hunder => ?_,
    fun name hname => ?_⟩
  · have hsuffixes : ((defaultBlockedSuffixes ++ extraSuffixes.getD []).map
        (normaliseSuffix rt)).filter (fun suffix => suffix ≠ []) =
        (new rt blocklist extraSuffixes).blockedSuffixes := by
      unfold new
      dsimp only
      refine List.filter_congr fun suffix _ => ?_
      rw [decide_eq_decide, List.length_pos_iff]
    rw [hsuffixes]
    exact parse_eq_hostname_iff
  · obtain ⟨hself, hne⟩ := normaliseSuffix_default rt hsuffix
    rw [← hself] at hne hunder
    exact hrefused input suffix (List.mem_append_left _ hsuffix) hne hunder
  · have hgrammar : ∀ allowUnderscore, ∀ name ∈ [ofString "mylocal.com", ofString "notsvc.net"],
        HostnameGrammar allowUnderscore defaultBlockedSuffixes name name := by decide
    exact parse_default_of_grammar (hgrammar allowUnderscore name hname)

/-- An accepted name is accepted as it stands. -/
theorem parse_hostname_self {rt : Runtime} {policy : DestinationPolicy} {input : Option Str}
    {name : Str} {allowUnderscore : Bool}
    (h : parse rt policy input allowUnderscore = .ok (.hostname name)) :
    parse rt policy (some name) allowUnderscore = .ok (.hostname name) := by
  obtain _ | input := input
  · exact absurd h (by simp [parse, Runtime.isNullOrWhiteSpace, DestinationParseResult.invalid])
  rw [parse_eq_hostname_iff] at h ⊢
  have hchar : ∀ c ∈ name, isHostChar c := fun c hc => isHostChar_of_label h.label hc
  have htrim : trim Runtime.isWhiteSpace name = name := by
    refine trim_eq_self ?_
    intro c hc
    have hpass := (isHostChar_passes (hchar c hc)).2.1
    rw [Bool.or_eq_false_iff] at hpass
    exact hpass.2
  have hlower : name.map asciiLower = name := by
    conv_rhs => rw [← List.map_id name]
    refine List.map_congr_left fun c hc => asciiLower_of_not_isUpper ?_
    exact isUpper_of_mem_normalisedName (h.name_eq ▸ hc)
  have hdots : name.rdropWhile isDot = name := by
    rw [h.name_eq, normalisedName, List.rdropWhile_idempotent]
  refine { h with
    name_eq := by rw [normalisedName, htrim, hlower, hdots]
    input_length := by have := h.length_le; rw [htrim]; omega
    ascii := by rw [htrim]; exact isAscii_of_isHostChar hchar }

end DestinationPolicy

end LookingGlass
