import LookingGlass.Foundations.AddressText

/-!
# One spelling for each number

A number has one spelling without leading zeros, which is how it is printed. So a byte that is read
from such a spelling has one spelling only, and so has an address that is read from four of them.

## Why uniqueness is needed

That a reader accepts what a printer prints is one direction of a round trip. The other one, that it
accepts nothing else, is what a statement about every text needs: if two readers accept the same
texts, or if a text is refused, then it must be known which texts there are. For a dotted quad this
is `parseDottedQuad_eq_some_iff`, an equivalence. For IPv6 it cannot hold, since an address has many
spellings, and only the full one is shown to be read back.

## How texts are cut

A dotted quad is cut at its dots and an IPv6 address at its colons. In both cases a text is a join
of pieces that do not contain the separator, and it is taken apart in exactly one way. The lemmas on
pieces say this for the colons, where some pieces may be missing.

## Main results

* `AddressText.decimal_decimalValue` — digits without a leading zero are the spelling of their value
* `AddressText.parseOctet_eq_some_iff`, `AddressText.parseDottedQuad_eq_some_iff` — what is read is
  what was printed
-/

namespace AddressText

open Utf16

/-! ### Digits

The digits of a number from the left: a further digit multiplies what there is by ten and is added
to it. -/

/-- An ASCII digit as a code unit. -/
theorem ofChar_digit {c : Char} (h : c.isDigit = true) :
    (ofChar c).toNat = c.toNat ∧ isDigit (ofChar c) = true := by
  obtain ⟨hlow, hhigh⟩ : 0x30 ≤ c.toNat ∧ c.toNat ≤ 0x39 := Char.isDigit_iff_toNat.mp h
  have hunit : (ofChar c).toNat = c.toNat := by
    rw [ofChar, Nat.toUInt16, UInt16.toNat_ofNat', Nat.mod_eq_of_lt (by omega)]
  rw [isDigit, Bool.and_eq_true, decide_eq_true_eq, decide_eq_true_eq, UInt16.le_iff_toNat_le,
    UInt16.le_iff_toNat_le, hunit]
  exact ⟨rfl, hlow, hhigh⟩

/-- A number is the value of its digits. -/
theorem decimalValue_decimal (n : ℕ) : decimalValue (decimal n) = n := by
  have hdigits : ∀ c ∈ Nat.toDigits 10 n, c.isDigit = true :=
    fun c hc => Nat.isDigit_of_mem_toDigits (by decide) le_rfl hc
  rw [decimalValue, decimal, List.foldl_map]
  calc (Nat.toDigits 10 n).foldl (fun value c => 10 * value + ((ofChar c).toNat - 0x30)) 0
      = (Nat.toDigits 10 n).foldl (fun value c => 10 * value + (c.toNat - '0'.toNat)) 0 :=
        List.foldl_ext _ _ 0 fun value c hc => by rw [(ofChar_digit (hdigits c hc)).1]; rfl
    _ = Nat.ofDigitChars 10 (Nat.toDigits 10 n) 0 := Nat.ofDigitChars_eq_foldl.symm
    _ = n := Nat.ofDigitChars_toDigits (by decide) le_rfl

theorem isDigit_of_mem_decimal {n : ℕ} {c : Char16} (h : c ∈ decimal n) : isDigit c = true := by
  obtain ⟨d, hd, rfl⟩ := List.mem_map.mp h
  exact (ofChar_digit (Nat.isDigit_of_mem_toDigits (by decide) le_rfl hd)).2

theorem decimal_ne_nil (n : ℕ) : decimal n ≠ [] := by
  simp [decimal, Nat.toDigits_ne_nil]

theorem isDigit_iff_toNat {c : Char16} : isDigit c = true ↔ 0x30 ≤ c.toNat ∧ c.toNat ≤ 0x39 := by
  rw [isDigit, Bool.and_eq_true, decide_eq_true_eq, decide_eq_true_eq, UInt16.le_iff_toNat_le,
    UInt16.le_iff_toNat_le]
  rfl

/-- A number below ten is one digit. -/
theorem decimal_digit {c : Char16} (h : isDigit c = true) : decimal (c.toNat - 0x30) = [c] := by
  have hrange := isDigit_iff_toNat.mp h
  have hlt : c.toNat - 0x30 < 10 := by omega
  rw [decimal, Nat.toDigits_of_lt_base hlt, List.map_singleton, List.singleton_inj,
    ← UInt16.toNat_inj, ofChar, Nat.toNat_digitChar_of_lt_ten hlt, Nat.toUInt16,
    UInt16.toNat_ofNat', Nat.mod_eq_of_lt (by omega)]
  omega

/-- A further digit goes to the end. -/
theorem decimal_append {n : ℕ} (hn : 0 < n) {c : Char16} (h : isDigit c = true) :
    decimal (10 * n + (c.toNat - 0x30)) = decimal n ++ [c] := by
  have hrange := isDigit_iff_toNat.mp h
  have hdigits := Nat.toDigits_append_toDigits (b := 10) (d := c.toNat - 0x30) (by decide) hn
    (by omega)
  rw [decimal, ← hdigits, List.map_append]
  exact congrArg _ (decimal_digit h)

theorem decimal_foldl {n : ℕ} (hn : 0 < n) {s : Str} (h : ∀ c ∈ s, isDigit c = true) :
    decimal (s.foldl (fun acc c => 10 * acc + (c.toNat - 0x30)) n) = decimal n ++ s := by
  induction s generalizing n with
  | nil => rw [List.foldl_nil, List.append_nil]
  | cons c s ih =>
    obtain ⟨hc, hs⟩ := List.forall_mem_cons.mp h
    rw [List.foldl_cons, ih (by omega) hs, decimal_append hn hc, List.append_assoc,
      List.singleton_append]

/-- **Digits without a leading zero are the spelling of their value.** -/
theorem decimal_decimalValue {s : Str} (hne : s ≠ []) (hdigits : ∀ c ∈ s, isDigit c = true)
    (hlead : s.length = 1 ∨ s.head? ≠ some (ofChar '0')) : decimal (decimalValue s) = s := by
  cases s with
  | nil => exact absurd rfl hne
  | cons c rest =>
    obtain ⟨hc, hrest⟩ := List.forall_mem_cons.mp hdigits
    rw [decimalValue, List.foldl_cons, Nat.mul_zero, Nat.zero_add]
    cases rest with
    | nil => exact decimal_digit hc
    | cons d rest =>
      have hzero : c.toNat ≠ 0x30 := by
        intro heq
        have hhead : (c :: d :: rest).head? ≠ some (ofChar '0') := hlead.resolve_left (by simp)
        exact hhead (congrArg some (UInt16.toNat_inj.mp heq))
      have hrange := isDigit_iff_toNat.mp hc
      rw [decimal_foldl (by omega) hrest, decimal_digit hc, List.singleton_append]

theorem decimal_injective : Function.Injective decimal := by
  intro m n h
  rw [← decimalValue_decimal m, h, decimalValue_decimal]

/-- Only zero is spelled with a leading zero. -/
theorem head_decimal {n : ℕ} (hn : 0 < n) : (decimal n).head? ≠ some (ofChar '0') := by
  induction n using Nat.strong_induction_on with
  | h n ih =>
    by_cases h : n < 10
    · rw [decimal, Nat.toDigits_of_lt_base h, List.map_singleton, List.head?_cons]
      intro heq
      have hunit := congrArg UInt16.toNat (Option.some.inj heq)
      have hdigit : (n.digitChar).isDigit = true := by
        rw [Nat.isDigit_digitChar]
        exact decide_eq_true h
      rw [(ofChar_digit hdigit).1, Nat.toNat_digitChar_of_lt_ten h] at hunit
      have hzero : (ofChar '0').toNat = 48 := by decide
      omega
    · have hsplit := Nat.toDigits_of_base_le (b := 10) (n := n) (by decide) (by omega)
      have hhead := ih (n / 10) (by omega) (by omega)
      have happ : decimal n = decimal (n / 10) ++ [ofChar (n % 10).digitChar] := by
        rw [decimal, hsplit, List.map_append]
        rfl
      rw [happ, List.head?_append_of_ne_nil _ (decimal_ne_nil _)]
      exact hhead

/-- The number that a run of hex digits denotes. -/
def hexValue (s : Str) : ℕ := s.foldl (fun acc c => 16 * acc + (hexDigit? c).getD 0) 0

theorem hexDigit?_lt (c : Char16) : (hexDigit? c).getD 0 < 16 := by
  unfold hexDigit?
  simp only [isDigit, Bool.and_eq_true, decide_eq_true_eq, UInt16.le_iff_toNat_le,
    UInt16.reduceToNat]
  split
  · rw [Option.getD_some]
    omega
  split
  · rw [Option.getD_some]
    omega
  split
  · rw [Option.getD_some]
    omega
  · decide

theorem hexValue_lt (s : Str) : hexValue s < 16 ^ s.length := by
  have hstep : ∀ (s : Str) (n : ℕ),
      s.foldl (fun acc c => 16 * acc + (hexDigit? c).getD 0) n < (n + 1) * 16 ^ s.length := by
    intro s
    induction s with
    | nil => simp
    | cons c s ih =>
      intro n
      have hc := hexDigit?_lt c
      calc (c :: s).foldl (fun acc c => 16 * acc + (hexDigit? c).getD 0) n
          < (16 * n + (hexDigit? c).getD 0 + 1) * 16 ^ s.length := ih _
        _ ≤ (16 * n + 16) * 16 ^ s.length := Nat.mul_le_mul_right _ (by omega)
        _ = (n + 1) * 16 ^ (c :: s).length := by
          rw [List.length_cons, pow_succ]
          ring
  simpa [hexValue] using hstep s 0

/-! ### Octets

A byte has at most three digits, and two spellings of one byte would have one value and no leading
zero. -/

/-- **A byte has one spelling**, the decimal one. -/
theorem parseOctet_eq_some_iff {s : Str} {b : UInt8} :
    parseOctet s = some b ↔ s = decimal b.toNat := by
  unfold parseOctet
  constructor
  · intro h
    split at h
    · next hs =>
      obtain ⟨hpos, -, hdigits, hlead, hle⟩ := hs
      obtain rfl := Option.some.inj h
      rw [Nat.toUInt8, UInt8.toNat_ofNat', Nat.mod_eq_of_lt (by omega)]
      have hne : s ≠ [] := List.length_pos_iff.mp hpos
      exact (decimal_decimalValue hne (List.all_eq_true.mp hdigits) hlead).symm
    · exact absurd h (by simp)
  · rintro rfl
    have hb := b.toNat_lt
    have hpos : 1 ≤ (decimal b.toNat).length := List.length_pos_iff.mpr (decimal_ne_nil _)
    have hlen : (decimal b.toNat).length ≤ 3 := by
      rw [decimal, List.length_map]
      exact (Nat.length_toDigits_le_iff (by decide) (by decide)).mpr (by omega)
    have hdigits : (decimal b.toNat).all isDigit = true :=
      List.all_eq_true.mpr fun c hc => isDigit_of_mem_decimal hc
    have hlead : (decimal b.toNat).length = 1 ∨ (decimal b.toNat).head? ≠ some (ofChar '0') := by
      rcases Nat.eq_zero_or_pos b.toNat with hzero | hpos
      · rw [hzero]
        exact .inl (by decide)
      · exact .inr (head_decimal hpos)
    have hle : decimalValue (decimal b.toNat) ≤ 255 := by
      rw [decimalValue_decimal]
      omega
    rw [if_pos ⟨hpos, hlen, hdigits, hlead, hle⟩, decimalValue_decimal, Nat.toUInt8,
      UInt8.ofNat_toNat]

/-! ### Dotted quads

Four bytes, each in its one spelling, with dots between them. -/

theorem dot_notMem_decimal (n : ℕ) : ofChar '.' ∉ decimal n := by
  intro h
  exact absurd (isDigit_of_mem_decimal h) (by decide)

/-- A text is a dotted quad if its pieces are those of one. -/
theorem eq_dottedQuad_iff {s : Str} {a b c d : UInt8} : s = dottedQuad a b c d ↔
    split '.' s = [a, b, c, d].map fun x => decimal x.toNat := by
  constructor
  · rintro rfl
    refine List.splitOn_intercalate _ ?_ (by simp)
    intro l hl
    simp only [List.mem_cons, List.not_mem_nil, or_false] at hl
    rcases hl with rfl | rfl | rfl | rfl <;> exact dot_notMem_decimal _
  · intro h
    have hjoin : join [ofChar '.'] (split '.' s) = s := List.intercalate_splitOn _
    rw [← hjoin, h]
    rfl

theorem dottedQuad_ne_nil (a b c d : UInt8) : dottedQuad a b c d ≠ [] := by
  intro hnil
  have hpieces := eq_dottedQuad_iff.mp hnil.symm
  exact absurd (congrArg List.length hpieces) (by simp)

theorem mem_dottedQuad {a b c d : UInt8} {x : Char16} (h : x ∈ dottedQuad a b c d) :
    isDigit x = true ∨ x = ofChar '.' := by
  have hpieces := eq_dottedQuad_iff.mp (rfl : dottedQuad a b c d = dottedQuad a b c d)
  rcases eq_or_mem_splitOn (d := ofChar '.') h with rfl | ⟨l, hl, hxl⟩
  · exact .inr rfl
  · replace hl : l ∈ split '.' (dottedQuad a b c d) := hl
    rw [hpieces] at hl
    obtain ⟨y, -, rfl⟩ := List.mem_map.mp hl
    exact .inl (isDigit_of_mem_decimal hxl)

theorem decimal_toNat_injective : Function.Injective fun x : UInt8 => decimal x.toNat := by
  intro x y h
  exact UInt8.toNat_inj.mp (decimal_injective h)

/-- Pieces that are read one by one are those that are printed. -/
theorem mapM_eq_some_iff_map {α β : Type} {f : α → Option β} {g : β → α}
    (h : ∀ a b, f a = some b ↔ a = g b) {as : List α} {bs : List β} :
    as.mapM f = some bs ↔ as = bs.map g := by
  induction as generalizing bs with
  | nil => simp [eq_comm]
  | cons a as ih =>
    rw [List.mapM_cons]
    cases bs with
    | nil => simp [Option.bind_eq_some_iff]
    | cons b bs =>
      simp only [Option.bind_eq_bind, Option.bind_eq_some_iff, ih, h, List.map_cons,
        List.cons.injEq, Option.pure_def, Option.some.injEq]
      constructor
      · rintro ⟨x, rfl, xs, rfl, rfl, rfl⟩
        exact ⟨rfl, rfl⟩
      · rintro ⟨rfl, rfl⟩
        exact ⟨b, rfl, bs, rfl, rfl, rfl⟩

theorem mapM_option_map {α β γ : Type} (f : α → Option β) (g : β → γ) (as : List α) :
    as.mapM (fun a => (f a).map g) = (as.mapM f).map (List.map g) := by
  induction as with
  | nil => rfl
  | cons a as ih =>
    rw [List.mapM_cons, List.mapM_cons, ih]
    cases f a with
    | none => rfl
    | some b => cases as.mapM f <;> rfl

/-- **An address has one dotted quad.** -/
theorem parseDottedQuad_eq_some_iff {s : Str} {bytes : List UInt8} :
    parseDottedQuad s = some bytes ↔
      ∃ a b c d, bytes = [a, b, c, d] ∧ s = dottedQuad a b c d := by
  have hread : ∀ parts : List Str, parts.mapM parseOctet = some bytes ↔
      parts = bytes.map fun x => decimal x.toNat :=
    fun parts => mapM_eq_some_iff_map fun p x => parseOctet_eq_some_iff
  simp only [eq_dottedQuad_iff]
  unfold parseDottedQuad
  split
  · next p q r t hparts =>
    rw [hread, hparts]
    constructor
    · intro h
      match bytes, h with
      | [a, b, c, d], h => exact ⟨a, b, c, d, rfl, h⟩
    · rintro ⟨a, b, c, d, rfl, h⟩
      exact h
  · next hparts =>
    refine iff_of_false (by simp) ?_
    rintro ⟨a, b, c, d, -, hquad⟩
    exact hparts _ _ _ _ hquad

/-- Two dotted quads are the same text only if they are of the same bytes. -/
theorem dottedQuad_inj {a b c d a' b' c' d' : UInt8} :
    dottedQuad a b c d = dottedQuad a' b' c' d' ↔ [a, b, c, d] = [a', b', c', d'] := by
  rw [eq_dottedQuad_iff, eq_dottedQuad_iff.mp rfl]
  exact (List.map_injective_iff.mpr decimal_toNat_injective).eq_iff

/-! ### Pieces between colons

A join of pieces contains no two colons in a row, and neither begins nor ends with one. So a double
colon in a text was put there. -/

/-- What a text between two colons is at least: not empty, and without a colon. -/
def IsPiece (t : Str) : Prop := t ≠ [] ∧ ofChar ':' ∉ t

theorem isPiece_dottedQuad (a b c d : UInt8) : IsPiece (dottedQuad a b c d) := by
  refine ⟨dottedQuad_ne_nil a b c d, fun hcolon => ?_⟩
  exact (mem_dottedQuad hcolon).elim (by decide) (by decide)

theorem not_isPiece_nil : ¬ IsPiece [] := fun h => h.1 rfl

section Pieces

variable {ts : List Str} (h : ∀ t ∈ ts, IsPiece t)
include h

theorem split_join (hne : ts ≠ []) : split ':' (join ":" ts) = ts :=
  List.splitOn_intercalate _ (fun t ht => (h t ht).2) hne

theorem join_ne_nil (hne : ts ≠ []) : join ":" ts ≠ [] := by
  intro hnil
  have hsplit := split_join h hne
  rw [hnil] at hsplit
  exact not_isPiece_nil (h [] (hsplit ▸ by simp))

/-- On both sides of a colon there are pieces again. -/
theorem isPiece_of_join_eq {l r : Str} (heq : join ":" ts = l ++ ofChar ':' :: r) :
    (∀ p ∈ split ':' l, IsPiece p) ∧ ∀ p ∈ split ':' r, IsPiece p := by
  have hne : ts ≠ [] := by
    rintro rfl
    exact absurd heq (by simp)
  have hsplit : ts = split ':' l ++ split ':' r := by
    rw [← split_join h hne, heq]
    exact List.splitOn_append_cons_self ..
  rw [hsplit] at h
  exact ⟨fun p hp => h p (List.mem_append_left _ hp), fun p hp => h p (List.mem_append_right _ hp)⟩

theorem join_ne_colon_cons (x : Str) : join ":" ts ≠ ofChar ':' :: x := by
  intro heq
  have hpieces := (isPiece_of_join_eq h (l := []) heq).1
  exact not_isPiece_nil (hpieces [] (by simp))

theorem join_ne_concat_colon (x : Str) : join ":" ts ≠ x ++ [ofChar ':'] := by
  intro heq
  have hpieces := (isPiece_of_join_eq h heq).2
  exact not_isPiece_nil (hpieces [] (by simp))

theorem join_ne_double (x y : Str) : join ":" ts ≠ x ++ ofString "::" ++ y := by
  intro heq
  have hcons : join ":" ts = x ++ ofChar ':' :: (ofChar ':' :: y) := by
    rw [heq, List.append_assoc]
    rfl
  have hpieces := (isPiece_of_join_eq h hcons).2
  have hnil : [] ∈ split ':' (ofChar ':' :: y) := by
    rw [show split ':' (ofChar ':' :: y) = split ':' [] ++ split ':' y from
      List.splitOn_append_cons_self [] y]
    simp
  exact not_isPiece_nil (hpieces [] hnil)

theorem mem_join {c : Char16} (hc : c ∈ join ":" ts) :
    c = ofChar ':' ∨ ∃ t ∈ ts, c ∈ t := by
  by_cases hne : ts = []
  · subst hne
    exact absurd hc List.not_mem_nil
  · have hpieces := eq_or_mem_splitOn (d := ofChar ':') hc
    rwa [show (join ":" ts).splitOn (ofChar ':') = ts from split_join h hne] at hpieces

end Pieces

theorem join_cons_cons (t u : Str) (ts : List Str) :
    join ":" (t :: u :: ts) = t ++ ofString ":" ++ join ":" (u :: ts) :=
  List.intercalate_cons_cons

theorem length_join_le {ts : List Str} {n : ℕ} (h : ∀ t ∈ ts, t.length ≤ n) :
    (join ":" ts).length ≤ (n + 1) * ts.length := by
  induction ts with
  | nil => simp
  | cons t ts ih =>
    obtain ⟨ht, hts⟩ := List.forall_mem_cons.mp h
    have hrest := ih hts
    cases ts with
    | nil => simpa using ht.trans (Nat.le_succ n)
    | cons u ts =>
      have hcolon : (ofString ":").length = 1 := by decide
      rw [join_cons_cons, List.length_append, List.length_append, hcolon,
        List.length_cons, Nat.mul_succ]
      omega

/-! ### The full form of an IPv6 address

Eight groups in hex, none of them left out. Every group is read back, and so is the address. -/

theorem hex_append {n : ℕ} (h : 16 ≤ n) : hex n = hex (n / 16) ++ [ofChar (n % 16).digitChar] := by
  rw [hex, Nat.toDigits_of_base_le (by decide) h, List.map_append]
  rfl

theorem hexDigit?_digitChar : ∀ k < 16, hexDigit? (ofChar k.digitChar) = some k := by
  decide

/-- Every character of a hex number is one of sixteen. -/
theorem exists_of_mem_hex {n : ℕ} {c : Char16} (h : c ∈ hex n) :
    ∃ k < 16, c = ofChar k.digitChar := by
  induction n using Nat.strong_induction_on with
  | h n ih =>
    by_cases hn : n < 16
    · rw [hex, Nat.toDigits_of_lt_base hn, List.map_singleton, List.mem_singleton] at h
      exact ⟨n, hn, h⟩
    · rw [hex_append (by omega), List.mem_append, List.mem_singleton] at h
      rcases h with h | rfl
      · exact ih (n / 16) (by omega) h
      · exact ⟨n % 16, by omega, rfl⟩

/-- A number is the value of its hex digits. -/
theorem mapM_hexDigit?_hex (n : ℕ) : ∃ digits, (hex n).mapM hexDigit? = some digits ∧
    digits.foldl (fun acc d => 16 * acc + d) 0 = n := by
  induction n using Nat.strong_induction_on with
  | h n ih =>
    by_cases hn : n < 16
    · refine ⟨[n], ?_, by simp⟩
      rw [hex, Nat.toDigits_of_lt_base hn, List.map_singleton, List.mapM_cons,
        hexDigit?_digitChar n hn]
      rfl
    · obtain ⟨digits, hread, hvalue⟩ := ih (n / 16) (by omega)
      refine ⟨digits ++ [n % 16], ?_, ?_⟩
      · rw [hex_append (by omega), List.mapM_append, hread, List.mapM_cons,
          hexDigit?_digitChar _ (by omega)]
        rfl
      · rw [List.foldl_append, hvalue, List.foldl_cons, List.foldl_nil]
        omega

/-- A group of two bytes is read back. -/
theorem parseGroup_hex (x y : UInt8) :
    parseGroup (hex (Octets.bigEndian [x, y])) = some [x, y] := by
  have hx := x.toNat_lt
  have hy := y.toNat_lt
  have hbytes : Octets.bigEndian [x, y] = 256 * x.toNat + y.toNat := by simp [Octets.bigEndian]
  rw [hbytes]
  obtain ⟨digits, hread, hvalue⟩ := mapM_hexDigit?_hex (256 * x.toNat + y.toNat)
  have hpos : 1 ≤ (hex (256 * x.toNat + y.toNat)).length := by
    rw [hex, List.length_map]
    exact Nat.length_toDigits_pos
  have hlen : (hex (256 * x.toNat + y.toNat)).length ≤ 4 := by
    rw [hex, List.length_map]
    exact (Nat.length_toDigits_le_iff (by decide) (by decide)).mpr (by omega)
  rw [parseGroup, if_pos ⟨hpos, hlen⟩, hread]
  simp only [Option.bind_eq_bind, Option.bind_some, hvalue]
  have hhigh : (256 * x.toNat + y.toNat) / 256 = x.toNat := by omega
  have hlow : (256 * x.toNat + y.toNat) % 256 = y.toNat := by omega
  rw [hhigh, hlow]
  show some [UInt8.ofNat x.toNat, UInt8.ofNat y.toNat] = some [x, y]
  rw [UInt8.ofNat_toNat, UInt8.ofNat_toNat]

theorem isPiece_hex (n : ℕ) : IsPiece (hex n) := by
  refine ⟨by simp [hex, Nat.toDigits_ne_nil], fun h => ?_⟩
  obtain ⟨k, hk, heq⟩ := exists_of_mem_hex h
  exact absurd heq ((by decide : ∀ k < 16, ofChar ':' ≠ ofChar k.digitChar) k hk)

theorem splitDoubleColon_eq_some {s l r : Str} (h : splitDoubleColon s = some (l, r)) :
    s = l ++ ofString "::" ++ r := by
  induction s generalizing l with
  | nil => exact absurd h (by simp [splitDoubleColon])
  | cons c s ih =>
    cases s with
    | nil => exact absurd h (by simp [splitDoubleColon])
    | cons d s =>
      rw [splitDoubleColon] at h
      split at h
      · next hcolons =>
        obtain ⟨rfl, rfl⟩ := Prod.mk.inj (Option.some.inj h)
        rw [hcolons.1, hcolons.2]
        rfl
      · obtain ⟨⟨l', r'⟩, hrest, heq⟩ := Option.map_eq_some_iff.mp h
        obtain ⟨rfl, rfl⟩ := Prod.mk.inj heq
        rw [ih hrest]
        rfl

/-- The eight groups of an address. -/
def groupTexts (bytes : List UInt8) : List Str :=
  (List.range 8).map fun i => hex (Octets.bigEndian ((bytes.drop (2 * i)).take 2))

theorem isPiece_groupTexts (bytes : List UInt8) : ∀ t ∈ groupTexts bytes, IsPiece t := by
  intro t ht
  obtain ⟨i, -, rfl⟩ := List.mem_map.mp ht
  exact isPiece_hex _

theorem length_groupTexts_le (bytes : List UInt8) : (join ":" (groupTexts bytes)).length ≤ 40 := by
  have hgroup : ∀ t ∈ groupTexts bytes, t.length ≤ 4 := by
    intro t ht
    obtain ⟨i, -, rfl⟩ := List.mem_map.mp ht
    have hlt := Octets.bigEndian_lt ((bytes.drop (2 * i)).take 2)
    have hpow : 256 ^ ((bytes.drop (2 * i)).take 2).length ≤ 256 ^ 2 :=
      Nat.pow_le_pow_right (by decide) (by rw [List.length_take]; omega)
    rw [hex, List.length_map, Nat.length_toDigits_le_iff (by decide) (by decide)]
    omega
  calc (join ":" (groupTexts bytes)).length ≤ (4 + 1) * (groupTexts bytes).length :=
        length_join_le hgroup
    _ = 40 := by simp [groupTexts]

theorem colon_mem_groupTexts (bytes : List UInt8) : ofChar ':' ∈ join ":" (groupTexts bytes) := by
  obtain ⟨t, u, ts, hts⟩ : ∃ t u ts, groupTexts bytes = t :: u :: ts := ⟨_, _, _, rfl⟩
  rw [hts, join_cons_cons, List.mem_append, List.mem_append]
  exact .inl (.inr (by decide))

/-- **The full form of an address is read back.** -/
theorem parseAddress_full {bytes : List UInt8} (h : bytes.length = 16) :
    parseAddress (join ":" (groupTexts bytes)) = some bytes := by
  have hpieces := isPiece_groupTexts bytes
  have hne : groupTexts bytes ≠ [] := by simp [groupTexts]
  have hquad : parseDottedQuad (join ":" (groupTexts bytes)) = none := by
    rw [Option.eq_none_iff_forall_ne_some]
    intro octets hread
    obtain ⟨a, b, c, d, -, hs⟩ := parseDottedQuad_eq_some_iff.mp hread
    have hquad : ∀ t ∈ [dottedQuad a b c d], IsPiece t := by
      simpa using isPiece_dottedQuad a b c d
    -- The pieces of a quad are one, those of an address eight.
    have hsplit := split_join hpieces hne
    have hone := split_join hquad (by simp)
    rw [hs] at hsplit
    rw [show join ":" [dottedQuad a b c d] = dottedQuad a b c d from by simp, hsplit] at hone
    exact absurd (congrArg List.length hone) (by simp [groupTexts])
  have hnone : splitDoubleColon (join ":" (groupTexts bytes)) = none := by
    rw [Option.eq_none_iff_forall_ne_some]
    rintro ⟨l, r⟩ hsplit
    exact join_ne_double hpieces l r (splitDoubleColon_eq_some hsplit)
  have hgroups : parseGroups true (groupTexts bytes) = some bytes := by
    match bytes, h with
    | [b0, b1, b2, b3, b4, b5, b6, b7, b8, b9, b10, b11, b12, b13, b14, b15], _ =>
      rw [show groupTexts [b0, b1, b2, b3, b4, b5, b6, b7, b8, b9, b10, b11, b12, b13, b14, b15] =
        [hex (Octets.bigEndian [b0, b1]), hex (Octets.bigEndian [b2, b3]),
          hex (Octets.bigEndian [b4, b5]), hex (Octets.bigEndian [b6, b7]),
          hex (Octets.bigEndian [b8, b9]), hex (Octets.bigEndian [b10, b11]),
          hex (Octets.bigEndian [b12, b13]), hex (Octets.bigEndian [b14, b15])] from rfl]
      simp [parseGroups, parseGroup_hex]
  rw [parseAddress, hquad, parseIpv6, hnone]
  dsimp only
  rw [split_join hpieces hne, hgroups]
  simp [h]

end AddressText
