import Mathlib.Data.List.DropRight
import Mathlib.Data.List.Infix
import Mathlib.Tactic.Common

/-!
# Text as UTF-16 code units

Strings of the two runtimes this development is about are sequences of 16-bit code units, and
nothing stops such a sequence from holding a lone surrogate. `Str` is therefore a list of
`UInt16`, not a Lean `String`: lengths count code units, and a statement about every `Str` covers
the ill-formed ones as well.

ASCII literals are written as Lean characters and strings; the coercions below encode them.

## Strings and characters

A Lean `String` is a sequence of scalar values, so it could not hold what a program receives from
outside: a request body, a line of output, an address bar. Half a surrogate pair is a string of
length one in both runtimes, and code that cuts a text at an index makes such strings. The functions
here treat every code unit alike; those that care about pairs are with the encodings.

The classes of characters are the ASCII ones. What a runtime takes for a digit or a space beyond
ASCII differs between the two, and such classes are defined where they are used.

## Main results

* `Utf16.mem_trim`, `Utf16.trim_eq_self` — what trimming keeps
* `Utf16.rdropWhile_map` — trimming commutes with a map that preserves the test
* `Utf16.splitOn_isSuffix_iff` — a suffix of the pieces of a text is the text itself or a suffix
  that starts at a separator
-/

namespace Utf16

/-- A UTF-16 code unit. -/
abbrev Char16 := UInt16

/-- A string: any sequence of code units. -/
abbrev Str := List Char16

/-- The code unit of an ASCII (or any other basic-plane) character. -/
def ofChar (c : Char) : Char16 := c.toNat.toUInt16

/-- The code units of a literal. -/
def ofString (s : String) : Str := s.toList.map ofChar

instance : Coe Char Char16 := ⟨ofChar⟩

instance : Coe String Str := ⟨ofString⟩

/-! ### ASCII classes

Comparisons with the bounds of a class, on code units. -/

/-- `'0'` to `'9'`. -/
def isDigit (c : Char16) : Bool := 0x30 ≤ c && c ≤ 0x39

/-- `'A'` to `'Z'`. -/
def isUpper (c : Char16) : Bool := 0x41 ≤ c && c ≤ 0x5a

/-- `'a'` to `'z'`. -/
def isLower (c : Char16) : Bool := 0x61 ≤ c && c ≤ 0x7a

/-- A letter or a digit of ASCII. -/
def isAlnum (c : Char16) : Bool := isUpper c || isLower c || isDigit c

/-- Lower-case an ASCII letter, leave every other code unit alone. -/
def asciiLower (c : Char16) : Char16 := if isUpper c then c + 0x20 else c

/-- Upper-case an ASCII letter, leave every other code unit alone. -/
def asciiUpper (c : Char16) : Char16 := if isLower c then c - 0x20 else c

/-- Every code unit is ASCII. -/
def IsAscii (s : Str) : Prop := ∀ c ∈ s, c ≤ 0x7f

-- Code units are a finite type; a quantifier over a text is decided over the text only.
instance (s : Str) (p : Char16 → Prop) [DecidablePred p] : Decidable (∀ c ∈ s, p c) :=
  List.decidableBAll p s

instance (s : Str) (p : Char16 → Prop) [DecidablePred p] : Decidable (∃ c ∈ s, p c) :=
  List.decidableBEx p s

instance (s : Str) : Decidable (IsAscii s) := inferInstanceAs (Decidable (∀ c ∈ s, c ≤ 0x7f))

/-- An ASCII code unit that is not upper case after lower-casing it. -/
theorem isUpper_asciiLower (c : Char16) : isUpper (asciiLower c) = false := by
  unfold asciiLower isUpper
  split <;> grind

/-- Lower-casing moves letters only: everything else is what it was, and nothing else becomes
it. -/
theorem asciiLower_eq_iff {c d : Char16} (hd : isLower d = false) (hu : isUpper d = false) :
    asciiLower c = d ↔ c = d := by
  unfold asciiLower
  split
  · simp only [isUpper, isLower, Bool.and_eq_true, Bool.and_eq_false_iff, decide_eq_true_eq,
      decide_eq_false_iff_not] at *
    grind
  · rfl

theorem asciiLower_of_not_isUpper {c : Char16} (h : isUpper c = false) : asciiLower c = c := by
  simp [asciiLower, h]

/-! ### Trimming

From both ends, and as far as the test holds. What is kept begins and ends with a code unit that
fails the test, or is empty. -/

/-- Remove the code units satisfying `p` from both ends. -/
def trim (p : Char16 → Bool) (s : Str) : Str := (s.dropWhile p).rdropWhile p

theorem trim_eq_self {p : Char16 → Bool} {s : Str} (h : ∀ c ∈ s, p c = false) : trim p s = s := by
  have hd : s.dropWhile p = s := by
    cases s with
    | nil => rfl
    | cons c s => simp [h c (List.mem_cons_self ..)]
  rw [trim, hd, List.rdropWhile_eq_self_iff]
  intro hs
  simp [h _ (List.getLast_mem hs)]

theorem trim_eq_nil_iff {p : Char16 → Bool} {s : Str} : trim p s = [] ↔ ∀ c ∈ s, p c := by
  rw [trim, List.rdropWhile_eq_nil_iff]
  refine ⟨fun h => ?_, fun h c hc => h c ((List.dropWhile_sublist p).subset hc)⟩
  have hnil : s.dropWhile p = [] := by
    by_contra hne
    have hhead := List.head_dropWhile_not p hne
    rw [h _ (List.head_mem hne)] at hhead
    exact absurd hhead (by simp)
  exact List.dropWhile_eq_nil_iff.mp hnil

/-- Trimming at the end commutes with a map that preserves the test. -/
theorem rdropWhile_map {p : Char16 → Bool} {f : Char16 → Char16} (h : ∀ c, p (f c) = p c)
    (s : Str) : (s.map f).rdropWhile p = (s.rdropWhile p).map f := by
  induction s using List.reverseRecOn with
  | nil => rfl
  | append_singleton s c ih =>
    rw [List.map_append, List.map_singleton, List.rdropWhile_concat, List.rdropWhile_concat, h, ih]
    split <;> simp

/-! ### Separators

`List.splitOn` is the split both runtimes perform on a one-character separator: it keeps empty
pieces, and the empty text has one piece. -/

/-- The pieces of a text between the occurrences of a code unit. There is one more piece than
occurrences, and a piece may be empty. -/
abbrev split (separator : Char16) (s : Str) : List Str := s.splitOn separator

/-- The texts one after the other, with a separator between neighbours. -/
abbrev join (separator : Str) (parts : List Str) : Str := separator.intercalate parts

/-- An interpolated string: its parts one after the other, literals and values alike. -/
abbrev concat (parts : List Str) : Str := parts.flatten

/-- `part` occurs in `s`. -/
def containsText (part s : Str) : Bool := s.tails.any part.isPrefixOf

section Separators

theorem intercalate_append {α : Type} {d : α} {xs ys : List (List α)} (hx : xs ≠ [])
    (hy : ys ≠ []) :
    [d].intercalate (xs ++ ys) = [d].intercalate xs ++ d :: [d].intercalate ys := by
  induction xs with
  | nil => exact absurd rfl hx
  | cons x xs ih =>
    rw [List.cons_append, List.intercalate_cons_of_ne_nil (by simp [hy])]
    by_cases hxs : xs = []
    · subst hxs; simp
    · rw [ih hxs, List.intercalate_cons_of_ne_nil hxs]
      simp

variable {α : Type} [BEq α] [LawfulBEq α] {d : α}

/-- The pieces of `s` are the last pieces of `n` exactly when `n` is `s`, or `n` ends in `s` right
after a separator. -/
theorem splitOn_isSuffix_iff (s n : List α) :
    s.splitOn d <:+ n.splitOn d ↔ n = s ∨ (d :: s) <:+ n := by
  constructor
  · rintro ⟨pre, h⟩
    by_cases hpre : pre = []
    · subst hpre
      left
      calc n = [d].intercalate (n.splitOn d) := (List.intercalate_splitOn d).symm
        _ = s := by rw [← h, List.nil_append, List.intercalate_splitOn]
    · right
      refine ⟨[d].intercalate pre, ?_⟩
      calc [d].intercalate pre ++ d :: s
          = [d].intercalate pre ++ d :: [d].intercalate (s.splitOn d) := by
            rw [List.intercalate_splitOn]
        _ = [d].intercalate (n.splitOn d) := by
            rw [← intercalate_append hpre (List.splitOn_ne_nil d s), h]
        _ = n := List.intercalate_splitOn d
  · rintro (rfl | ⟨pre, rfl⟩)
    · exact List.suffix_refl _
    · rw [List.splitOn_append_cons_self]
      exact List.suffix_append _ _

theorem not_mem_of_mem_splitOn {n l : List α} (h : l ∈ n.splitOn d) : d ∉ l := by
  induction n generalizing l with
  | nil => simp at h; simp [h]
  | cons c n ih =>
    rw [List.splitOn_cons_eq_if_modifyHead] at h
    split at h
    · rcases List.mem_cons.mp h with rfl | h
      · simp
      · exact ih h
    · next hc =>
      obtain ⟨x, xs, hx⟩ := List.exists_cons_of_ne_nil (List.splitOn_ne_nil d n)
      rw [hx, List.modifyHead_cons] at h
      rcases List.mem_cons.mp h with rfl | h
      · have := ih (hx ▸ List.mem_cons_self ..)
        simp only [List.mem_cons, not_or]
        exact ⟨fun hdc => hc (by simp [hdc]), this⟩
      · exact ih (hx ▸ List.mem_cons_of_mem _ h)

/-- An element of a text is the separator or lies in one of the pieces. -/
theorem eq_or_mem_splitOn {n : List α} {c : α} (h : c ∈ n) : c = d ∨ ∃ l ∈ n.splitOn d, c ∈ l := by
  by_cases hcd : c = d
  · exact .inl hcd
  · right
    obtain ⟨pre, post, rfl⟩ := List.append_of_mem h
    induction pre with
    | nil =>
      obtain ⟨x, xs, hx⟩ := List.exists_cons_of_ne_nil (List.splitOn_ne_nil d post)
      refine ⟨c :: x, ?_, by simp⟩
      rw [List.nil_append, List.splitOn_cons_eq_if_modifyHead, if_neg (by simpa using hcd), hx]
      simp
    | cons b pre ih =>
      obtain ⟨l, hl, hc⟩ := ih (by simp)
      rw [List.cons_append, List.splitOn_cons_eq_if_modifyHead]
      split
      · exact ⟨l, List.mem_cons_of_mem _ hl, hc⟩
      · obtain ⟨x, xs, hx⟩ := List.exists_cons_of_ne_nil (List.splitOn_ne_nil d (pre ++ c :: post))
        rw [hx] at hl ⊢
        rcases List.mem_cons.mp hl with rfl | hl
        · exact ⟨b :: l, by simp, List.mem_cons_of_mem _ hc⟩
        · exact ⟨l, by simp [hl], hc⟩

theorem mem_of_mem_splitOn {n l : List α} {c : α} (hl : l ∈ n.splitOn d) (hc : c ∈ l) : c ∈ n := by
  have hn : [d].intercalate (n.splitOn d) = n := List.intercalate_splitOn d
  rw [← hn]
  clear hn
  generalize n.splitOn d = ls at hl ⊢
  induction ls with
  | nil => exact absurd hl (by simp)
  | cons x xs ih =>
    by_cases hxs : xs = []
    · subst hxs
      simp only [List.mem_singleton] at hl
      simpa [hl] using hc
    · rw [List.intercalate_cons_of_ne_nil hxs]
      rcases List.mem_cons.mp hl with rfl | hl
      · simp [hc]
      · simp [ih hl]

end Separators

end Utf16
