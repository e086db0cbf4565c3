import LookingGlass.Web.AddressGroups
import LookingGlass.Web.Validation

/-!
# The destination field

`validateDestination` goes through the rules of the service a second time, in another order and with
regular expressions, so that a mistake is reported before anything is sent. On ASCII input it
accepts the hostnames of the service under the same text, with two exceptions: what is typed may
have 253 characters, while the service counts the normalised name, and one trailing dot is removed,
while the service removes all of them.

## Order

Both trim the text, refuse white space and the characters of a URL, go on to an address if there is
a colon or if there are only digits and dots, and take the rest for a name. In front of that the
form has further filters, for schemes, for the characters of a shell and for anything beyond ASCII,
and behind it a message of its own for each thing that may be wrong with a name. A hostname has none
of the characters that it looks for, and so it passes all of this until something is counted or cut.

What is counted is the difference. The form counts what has been typed, after trimming; the service
removes the dots at the end and counts the name. With a dot at the end, a name of 253 characters is
too long in the form. With two of them there is an empty label left in the form, as it removes one.

The characters are those of UTF-16. Where letters are made lower case, only ASCII is left.

## Main results

* `Validation.validateDestination_hostname_iff` — the filters a hostname gets through
* `Validation.accepts_hostname_iff` — which hostnames of the service the form accepts
-/

namespace LookingGlass

open Utf16

namespace Validation

/-! ### The form

The rules in their order, and the three branches behind them. -/

inductive DestinationKind
  | ipv4
  | ipv6
  | hostname
  deriving DecidableEq

inductive DestinationValidation
  | ok (value : Str) (kind : DestinationKind)
  | fail (message : Str)
  deriving DecidableEq

inductive IpFamily
  | auto
  | ipv4
  | ipv6
  deriving DecidableEq

structure ValidateOptions where
  family : Option IpFamily := none
  subject : Option Str := none
  allowUnderscore : Option Bool := none

def maxLength : ℕ := 253

/-- `[;|&$<>(){}[\]\\"'*!~^%=,]` and the grave accent -/
def shellChars : Str := ";|&$`<>()\x7b\x7d[]\\\"'*!~^%=,"

/-- `\s`, which is also what `trim` removes. -/
def isSpace (c : Char16) : Bool :=
  (0x09 ≤ c && c ≤ 0x0d) || c == 0x20 || c == 0xa0 || c == 0x1680 || (0x2000 ≤ c && c ≤ 0x200a) ||
    c == 0x2028 || c == 0x2029 || c == 0x202f || c == 0x205f || c == 0x3000 || c == 0xfeff

/-- `[a-z0-9+.-]`, in either case -/
def isSchemeChar (c : Char16) : Bool :=
  isAlnum c || c == ofChar '+' || c == ofChar '.' || c == ofChar '-'

/-- `/^[a-z][a-z0-9+.-]*:[^:]/i`: no character of the class is a colon, so the colon is the one
behind the longest run of them. -/
def hasScheme : Str → Bool
  | [] => false
  | first :: rest =>
    (isUpper first || isLower first) &&
      match rest.dropWhile isSchemeChar with
      | colon :: next :: _ => colon == ofChar ':' && next != ofChar ':'
      | _ => false

def blockedMessage (subject reason : Str) : Str :=
  concat ["Private, loopback and reserved addresses can't be tested: ", reason,
    ". Enter a public ", subject, "."]

/-- The branch for a text with a colon. -/
def validateIPv6 (family : IpFamily) (subject input : Str) : DestinationValidation :=
  match parseIPv6 input with
  | none => .fail "That doesn't look like a valid IPv6 address."
  | some groups =>
    match ipv6BlockReason groups with
    | some reason => .fail (blockedMessage subject reason)
    | none =>
      if family = .ipv4 then .fail "That is an IPv6 address. Choose IPv6 or Auto to test it."
      else .ok input .ipv6

/-- The branch for digits and dots. -/
def validateIPv4 (family : IpFamily) (subject input : Str) : DestinationValidation :=
  match parseIPv4 input with
  | none =>
    .fail "That doesn't look like a valid IPv4 address. Use dotted decimal such as 8.8.8.8."
  | some octets =>
    match ipv4BlockReason octets with
    | some reason => .fail (blockedMessage subject reason)
    | none =>
      if family = .ipv6 then .fail "That is an IPv4 address. Choose IPv4 or Auto to test it."
      else .ok input .ipv4

/-- A character at the end of a label: `[a-z0-9_]` or `[a-z0-9]`. -/
def isLabelEnd (allowUnderscore : Bool) (c : Char16) : Bool :=
  isLower c || isDigit c || (allowUnderscore && c == ofChar '_')

/-- `/^[a-z0-9_]([a-z0-9_-]*[a-z0-9_])?$/`, or the same without underscores. -/
def matchesLabel (allowUnderscore : Bool) : Str → Bool
  | [] => false
  | first :: rest =>
    isLabelEnd allowUnderscore first && (rest == [] ||
      (rest.dropLast.all (fun c => isLabelEnd allowUnderscore c || c == ofChar '-') &&
        rest.getLast?.any (isLabelEnd allowUnderscore)))

/-- The branch for all other texts. -/
def validateHostname (allowUnderscore : Bool) (subject input : Str) : DestinationValidation :=
  -- only ASCII gets here
  let host := (if input.getLast? = some (ofChar '.') then input.dropLast else input).map asciiLower
  if host = [] then .fail (concat ["Enter a ", subject, "."])
  else
    let labels := split '.' host
    if labels.any (· == []) then
      .fail "Hostnames can't contain empty labels (two dots in a row)."
    else if labels.any (·.length > 63) then
      .fail "Each part of a hostname can be at most 63 characters."
    else if labels.any fun l => !matchesLabel allowUnderscore l then
      .fail "Hostnames may only contain letters, numbers and hyphens, and can't start or end a label with a hyphen."
    else if labels.getLast?.getD [] ≠ [] ∧ (labels.getLast?.getD []).all isDigit then
      .fail "That looks like an incomplete or non-standard IP address. Use dotted decimal such as 8.8.8.8."
    else if isInternalName host then
      .fail "Internal and local names can't be tested. Enter a public hostname."
    else if labels.length < 2 then
      .fail "Enter a fully qualified hostname such as example.com."
    else .ok host .hostname

def validateDestination (raw : Str) (options : ValidateOptions) : DestinationValidation :=
  let family := options.family.getD .auto
  let subject := options.subject.getD "hostname or IP address"
  let input := trim isSpace raw
  if input = [] then .fail (concat ["Enter a ", subject, "."])
  else if input.length > maxLength then
    .fail "That value is too long. Hostnames can be at most 253 characters."
  else if input.any isSpace then
    .fail "Spaces aren't allowed. Enter a single hostname or IP address."
  else if containsText "://" input || (hasScheme input && !input.all isAddressChar) then
    .fail "Enter only a hostname or IP address, not a URL. Remove the scheme (for example https://)."
  else if input.any fun c => (ofString "/?#@").contains c then
    .fail "Enter only a hostname or IP address, without a path, query string or credentials."
  else if input.any fun c => shellChars.contains c then
    .fail "That value contains characters that aren't allowed in a hostname or IP address."
  else if input.any fun c => !(0x20 ≤ c && c ≤ 0x7e) then
    .fail "Only ASCII characters are supported. Use the punycode (xn--) form for international names."
  else if input.contains (ofChar ':') then validateIPv6 family subject input
  else if input.all fun c => isDigit c || c == ofChar '.' then validateIPv4 family subject input
  else validateHostname (options.allowUnderscore.getD false) subject input

/-! ### The filters in front of a hostname

What has to hold of a text so that it comes out as a hostname, as a list of conditions. -/

theorem ite_eq_ok_iff {p : Prop} [Decidable p] {rejected rest : DestinationValidation} {value : Str}
    {kind : DestinationKind} (h : rejected ≠ .ok value kind) :
    (if p then rejected else rest) = .ok value kind ↔ ¬ p ∧ rest = .ok value kind := by
  split <;> simp [*]

theorem ite_fail_eq_ok_iff {p : Prop} [Decidable p] {message : Str} {rest : DestinationValidation}
    {value : Str} {kind : DestinationKind} :
    (if p then .fail message else rest) = DestinationValidation.ok value kind ↔
      ¬ p ∧ rest = .ok value kind :=
  ite_eq_ok_iff (by simp)

theorem validateIPv6_ne_hostname (family : IpFamily) (subject input value : Str) :
    validateIPv6 family subject input ≠ .ok value .hostname := by
  unfold validateIPv6
  split
  · simp
  split
  · simp
  split <;> simp

theorem validateIPv4_ne_hostname (family : IpFamily) (subject input value : Str) :
    validateIPv4 family subject input ≠ .ok value .hostname := by
  unfold validateIPv4
  split
  · simp
  split
  · simp
  split <;> simp

/-- The filters before the three branches and the dispatch, for a hostname. -/
theorem validateDestination_hostname_iff {raw value : Str} {options : ValidateOptions} :
    validateDestination raw options = .ok value .hostname ↔
      let input := trim isSpace raw
      input ≠ [] ∧ input.length ≤ maxLength ∧ (∀ c ∈ input, isSpace c = false) ∧
        (containsText "://" input || (hasScheme input && !input.all isAddressChar)) = false ∧
        (∀ c ∈ input, c ∉ ofString "/?#@") ∧ (∀ c ∈ input, c ∉ shellChars) ∧
        (∀ c ∈ input, 0x20 ≤ c ∧ c ≤ 0x7e) ∧ ofChar ':' ∉ input ∧
        ¬ (∀ c ∈ input, isDigit c = true ∨ c = ofChar '.') ∧
        validateHostname (options.allowUnderscore.getD false)
          (options.subject.getD "hostname or IP address") input = .ok value .hostname := by
  unfold validateDestination
  dsimp only
  rw [ite_fail_eq_ok_iff, ite_fail_eq_ok_iff, ite_fail_eq_ok_iff, ite_fail_eq_ok_iff,
    ite_fail_eq_ok_iff, ite_fail_eq_ok_iff, ite_fail_eq_ok_iff,
    ite_eq_ok_iff (validateIPv6_ne_hostname _ _ _ value),
    ite_eq_ok_iff (validateIPv4_ne_hostname _ _ _ value)]
  simp

/-- The filters for a hostname. -/
theorem validateHostname_eq_ok_iff {allowUnderscore : Bool} {subject input value : Str} :
    validateHostname allowUnderscore subject input = .ok value .hostname ↔
      let host :=
        (if input.getLast? = some (ofChar '.') then input.dropLast else input).map asciiLower
      host ≠ [] ∧ [] ∉ split '.' host ∧ (∀ l ∈ split '.' host, l.length ≤ 63) ∧
        (∀ l ∈ split '.' host, matchesLabel allowUnderscore l = true) ∧
        ¬ ((split '.' host).getLast?.getD [] ≠ [] ∧
          ((split '.' host).getLast?.getD []).all isDigit = true) ∧
        isInternalName host = false ∧ 2 ≤ (split '.' host).length ∧ host = value := by
  unfold validateHostname
  dsimp only
  rw [ite_fail_eq_ok_iff, ite_fail_eq_ok_iff, ite_fail_eq_ok_iff, ite_fail_eq_ok_iff,
    ite_fail_eq_ok_iff, ite_fail_eq_ok_iff, ite_fail_eq_ok_iff]
  generalize (if input.getLast? = some (ofChar '.') then input.dropLast else input).map
    asciiLower = host
  simp only [not_lt]
  simp

/-! ### The characters of a hostname

A character of a hostname passes each of the filters, so a name of such characters does. -/

/-- The two kinds of white space agree on ASCII. -/
theorem isSpace_eq_isWhiteSpace {c : Char16} (h : c ≤ 0x7f) :
    isSpace c = Runtime.isWhiteSpace c := by
  rw [Bool.eq_iff_iff]
  simp only [isSpace, Runtime.isWhiteSpace, Bool.or_eq_true, Bool.and_eq_true, decide_eq_true_eq,
    beq_iff_eq, UInt16.le_iff_toNat_le, ← UInt16.toNat_inj, UInt16.reduceToNat] at h ⊢
  omega

theorem trim_congr {p q : Char16 → Bool} {s : Str} (h : ∀ c ∈ s, p c = q c) :
    trim p s = trim q s := by
  have hdrop : ∀ {t : Str}, (∀ c ∈ t, p c = q c) → t.dropWhile p = t.dropWhile q := by
    intro t ht
    induction t with
    | nil => rfl
    | cons c t ih =>
      obtain ⟨hc, ht⟩ := List.forall_mem_cons.mp ht
      rw [List.dropWhile_cons, List.dropWhile_cons, hc, ih ht]
  have hrest : ∀ c ∈ (s.dropWhile q).reverse, p c = q c := fun c hc =>
    h c ((List.dropWhile_suffix q).subset (List.mem_reverse.mp hc))
  rw [trim, trim, hdrop h, List.rdropWhile, List.rdropWhile, hdrop hrest]

theorem trim_eq_of_isAscii {s : Str} (h : IsAscii s) :
    trim isSpace s = trim Runtime.isWhiteSpace s :=
  trim_congr fun c hc => isSpace_eq_isWhiteSpace (h c hc)

theorem colon_mem_of_hasScheme {s : Str} (h : hasScheme s = true) : ofChar ':' ∈ s := by
  cases s with
  | nil => exact absurd h (by simp [hasScheme])
  | cons first rest =>
    rw [hasScheme, Bool.and_eq_true] at h
    obtain ⟨-, h⟩ := h
    split at h
    · next colon next tail heq =>
      rw [Bool.and_eq_true, beq_iff_eq] at h
      have hmem : colon ∈ rest :=
        (List.dropWhile_suffix isSchemeChar).subset (heq ▸ List.mem_cons_self ..)
      exact List.mem_cons_of_mem _ (h.1 ▸ hmem)
    · exact absurd h (by simp)

/-- A hostname character passes every character filter of the form. -/
theorem isHostChar_passes {c : Char16} (h : DestinationPolicy.isHostChar c) :
    isSpace c = false ∧ c ∉ ofString "/?#@" ∧ c ∉ shellChars ∧ (0x20 ≤ c ∧ c ≤ 0x7e) ∧
      c ≠ ofChar ':' := by
  have hnone : ∀ d ∈ ofString "/?#@" ++ shellChars ++ [ofChar ':'],
      DestinationPolicy.isHostChar d = false := by decide
  have hnot : c ∉ ofString "/?#@" ++ shellChars ++ [ofChar ':'] := by
    intro hmem
    exact absurd h (by rw [hnone c hmem]; simp)
  simp only [List.mem_append, List.mem_singleton, not_or] at hnot
  obtain ⟨hlow, hhigh, -⟩ := DestinationPolicy.isHostChar_range h
  refine ⟨?_, hnot.1.1, hnot.1.2, ?_, hnot.2⟩
  · have hle : c ≤ 0x7f := UInt16.le_iff_toNat_le.mpr (by simp only [UInt16.reduceToNat]; omega)
    rw [isSpace_eq_isWhiteSpace hle]
    exact (Bool.or_eq_false_iff.mp (DestinationPolicy.isHostChar_passes h).2.1).2
  · simp only [UInt16.le_iff_toNat_le, UInt16.reduceToNat]
    omega

theorem matchesLabel_of_isHostLabel {allowUnderscore : Bool} {label : Str}
    (h : IsHostLabel allowUnderscore label) : matchesLabel allowUnderscore label = true := by
  have hend : ∀ c ∈ label, c ≠ ofChar '-' → isLabelEnd allowUnderscore c = true := by
    intro c hc hne
    rcases h.chars c hc with hlow | hdigit | hhyphen | ⟨hallow, hunder⟩
    · simp [isLabelEnd, hlow]
    · simp [isLabelEnd, hdigit]
    · exact absurd hhyphen hne
    · simp [isLabelEnd, hallow, hunder]
  cases label with
  | nil => exact absurd h.length_pos (by simp)
  | cons first rest =>
    have hfirst := hend first (List.mem_cons_self ..) fun he => h.head_ne (by simp [he])
    rw [matchesLabel, hfirst, Bool.true_and, Bool.or_eq_true]
    rcases List.eq_nil_or_concat rest with rfl | ⟨init, last, rfl⟩
    · exact .inl rfl
    · right
      rw [List.concat_eq_append] at *
      have hlast := hend last (by simp) fun he =>
        h.last_ne (by rw [← List.cons_append, List.getLast?_concat, he])
      rw [List.dropLast_concat, List.getLast?_concat, Option.any_some, hlast, Bool.and_true,
        List.all_eq_true]
      intro c hc
      by_cases hne : c = ofChar '-'
      · simp [hne]
      · simp [hend c (by simp [hc]) hne]

/-! ### Trailing dots

Removing one dot and removing all dots are the same, unless there are two of them. -/

/-- At most one dot at the end: then it makes no difference whether one or all are removed. -/
theorem rdropWhile_isDot {t : Str} (h : ¬ ofString ".." <:+ t) :
    t.rdropWhile DestinationPolicy.isDot =
      if t.getLast? = some (ofChar '.') then t.dropLast else t := by
  rcases List.eq_nil_or_concat t with rfl | ⟨init, c, rfl⟩
  · rfl
  rw [List.concat_eq_append] at *
  rw [List.getLast?_concat, List.dropLast_concat]
  have hdot : DestinationPolicy.isDot c = true ↔ c = ofChar '.' := beq_iff_eq
  by_cases hc : c = ofChar '.'
  · rw [if_pos (congrArg some hc), List.rdropWhile_concat_pos _ _ _ (hdot.mpr hc),
      List.rdropWhile_eq_self_iff]
    intro hne hlast
    have hend : init.getLast hne = ofChar '.' := beq_iff_eq.mp hlast
    refine h ⟨init.dropLast, ?_⟩
    calc init.dropLast ++ ofString ".."
        = init.dropLast ++ [init.getLast hne] ++ [c] := by
          rw [hend, hc, List.append_assoc]
          rfl
      _ = init ++ [c] := by rw [List.dropLast_append_getLast]
  · rw [if_neg (mt Option.some.inj hc), List.rdropWhile_concat_neg _ _ _ (mt hdot.mp hc)]

/-- A text that ends in two dots has an empty label when one is removed. -/
theorem nil_mem_split_of_dots {t : Str} (h : ofString ".." <:+ t) :
    [] ∈ split '.' ((if t.getLast? = some (ofChar '.') then t.dropLast else t).map asciiLower) := by
  obtain ⟨init, rfl⟩ := h
  have hdots : init ++ ofString ".." = (init ++ [ofChar '.']) ++ [ofChar '.'] := by
    rw [List.append_assoc]
    rfl
  have hlower : asciiLower (ofChar '.') = ofChar '.' := by decide
  rw [hdots, List.getLast?_concat, if_pos rfl, List.dropLast_concat, List.map_append,
    List.map_singleton, hlower]
  have hsplit : split '.' (init.map asciiLower ++ [ofChar '.']) =
      split '.' (init.map asciiLower) ++ split '.' [] := List.splitOn_append_cons_self _ _
  rw [hsplit]
  exact List.mem_append_right _ (by simp)

/-! ### Which hostnames the form accepts

Both directions: what the form lacks for a name of the service is one of the two exceptions. -/

/-- A hostname of the service passes the form once its trailing dots are gone. -/
theorem validateHostname_of_grammar {rt : Runtime} {allowUnderscore : Bool} {subject s name : Str}
    (h : HostnameGrammar allowUnderscore (DestinationPolicy.new rt none none).blockedSuffixes s
      name)
    (hdots : ¬ ofString ".." <:+ trim Runtime.isWhiteSpace s) :
    validateHostname allowUnderscore subject (trim Runtime.isWhiteSpace s) =
      .ok name .hostname := by
  have hhost : (if (trim Runtime.isWhiteSpace s).getLast? = some (ofChar '.') then
      (trim Runtime.isWhiteSpace s).dropLast else trim Runtime.isWhiteSpace s).map asciiLower =
        name := by
    rw [← rdropWhile_isDot hdots, h.name_eq, normalisedName,
      rdropWhile_map DestinationPolicy.isDot_asciiLower]
  have hinternal : isInternalName name = false := by
    rw [Bool.eq_false_iff]
    intro hname
    have hblocked : (DestinationPolicy.new rt none none).isBlockedName name = true :=
      isBlockedName_of_isInternalName hname
    obtain ⟨suffix, hsuffix, hunder⟩ := (DestinationPolicy.isBlockedName_iff _ _).mp hblocked
    exact h.not_blocked suffix hsuffix hunder
  rw [validateHostname_eq_ok_iff]
  dsimp only
  rw [hhost]
  refine ⟨List.length_pos_iff.mp h.length_pos, fun hnil => ?_, fun l hl => (h.label l hl).length_le,
    fun l hl => matchesLabel_of_isHostLabel (h.label l hl), ?_, hinternal, h.two_labels, rfl⟩
  · exact absurd (h.label [] hnil).length_pos (by simp)
  · rintro ⟨-, hdigits⟩
    obtain ⟨tld, hlast⟩ : ∃ tld, (split '.' name).getLast? = some tld :=
      ⟨_, List.getLast?_eq_some_getLast (List.splitOn_ne_nil _ _)⟩
    obtain ⟨⟨c, hc, hdigit⟩, -⟩ := h.tld tld hlast
    rw [hlast, Option.getD_some, List.all_eq_true] at hdigits
    exact absurd (hdigits c hc) (by simp [hdigit])

/-- **The form accepts a hostname of the service** under the same text, if what is typed has at most
253 characters and does not end in two dots. Otherwise it refuses it. -/
theorem accepts_hostname_iff {rt : Runtime} {s name : Str} {allowUnderscore : Bool}
    (hascii : IsAscii s)
    (h : (DestinationPolicy.new rt none none).parse rt (some s) allowUnderscore =
      .ok (.hostname name)) :
    validateDestination s { allowUnderscore := some allowUnderscore } = .ok name .hostname ↔
      (trim isSpace s).length ≤ 253 ∧ ¬ ofString ".." <:+ trim isSpace s := by
  have hgrammar := DestinationPolicy.parse_eq_hostname_iff.mp h
  rw [validateDestination_hostname_iff]
  dsimp only
  rw [trim_eq_of_isAscii hascii, Option.getD_some]
  have hchar : ∀ c ∈ trim Runtime.isWhiteSpace s, DestinationPolicy.isHostChar c := by
    intro c hc
    refine DestinationPolicy.isHostChar_of_normalisedName (fun c hc => ?_) hc
    exact DestinationPolicy.isHostChar_of_label hgrammar.label (hgrammar.name_eq ▸ hc)
  constructor
  · rintro ⟨-, hlen, -, -, -, -, -, -, -, hhost⟩
    refine ⟨hlen, fun hdots => ?_⟩
    exact (validateHostname_eq_ok_iff.mp hhost).2.1 (nil_mem_split_of_dots hdots)
  · rintro ⟨hlen, hdots⟩
    obtain ⟨letter, hletter, hnodigit⟩ := DestinationPolicy.exists_letter_of_grammar hgrammar
    have hcolon : ofChar ':' ∉ trim Runtime.isWhiteSpace s :=
      fun hmem => (isHostChar_passes (hchar _ hmem)).2.2.2.2 rfl
    have hscheme : hasScheme (trim Runtime.isWhiteSpace s) = false :=
      Bool.eq_false_iff.mpr (mt colon_mem_of_hasScheme hcolon)
    obtain ⟨hurl, -⟩ := DestinationPolicy.contains_of_isHostChar hchar
    simp only [Bool.or_eq_false_iff] at hurl
    refine ⟨List.ne_nil_of_mem hletter, hlen, fun c hc => (isHostChar_passes (hchar c hc)).1, ?_,
      fun c hc => (isHostChar_passes (hchar c hc)).2.1,
      fun c hc => (isHostChar_passes (hchar c hc)).2.2.1,
      fun c hc => (isHostChar_passes (hchar c hc)).2.2.2.1, hcolon, fun hall => ?_,
      validateHostname_of_grammar hgrammar hdots⟩
    · rw [hurl.1.1.1.1.1, hscheme]
      rfl
    · rw [Bool.or_eq_false_iff] at hnodigit
      rcases hall letter hletter with hdigit | hdot
      · exact absurd hdigit (by simp [hnodigit.1])
      · exact beq_eq_false_iff_ne.mp hnodigit.2 hdot

/-- The service removes both dots, the form one of them. -/
theorem not_accepts_of_dots :
    IsAscii "example.com.." ∧
      (DestinationPolicy.new .reference none none).parse .reference (some "example.com..") false =
        .ok (.hostname "example.com") ∧
      validateDestination "example.com.." { allowUnderscore := some false } =
        .fail "Hostnames can't contain empty labels (two dots in a row)." :=
  ⟨by decide, by decide +kernel, by decide +kernel⟩

theorem accepts_hostname_iff_of_dot :
    validateDestination "Example.com." { allowUnderscore := some false } =
        .ok "example.com" .hostname ↔
      (trim isSpace "Example.com.").length ≤ 253 ∧
        ¬ ofString ".." <:+ trim isSpace "Example.com." :=
  accepts_hostname_iff (by decide) (show (DestinationPolicy.new .reference none none).parse
    .reference (some "Example.com.") false = .ok (.hostname "example.com") by decide +kernel)

end Validation

end LookingGlass
