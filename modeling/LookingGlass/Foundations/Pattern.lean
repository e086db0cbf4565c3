import Mathlib.Data.List.Infix
import Mathlib.Tactic.Common

/-!
# Regular expressions with captures

A pattern maps a text to the ways in which it may begin, each with what it captures and with the
rest of the text. The ways stand in the order in which a backtracking matcher tries them: a greedy
repetition takes the longest run first, a lazy one the shortest. The match at the start of a text is
the first of them, and `search` looks for the leftmost start that has one.

There are two ways to reason about a pattern. `mem_bind`, `mem_many1` and so on say what any match
looks like, which is what it takes to show that there is none; `many1_bind` and so on compute the
matches of a text that is given in pieces, where each repetition has to stop at the end of its piece
because what follows it cannot begin any earlier.

## Backtracking as a list

A matcher that backtracks goes through its possibilities in a fixed order and takes the first that
leads to an end. The list of all ways, in that order, contains everything that one would want to
know about it: what matches is what the list contains, and which match is taken is which comes
first. As lists are lazy in no way here, nothing is said about how long a matcher takes.

## What is deliberately absent

There is no alternation, no backreference and no assertion but the one for the end of the text. A
repetition is over single characters, which is what is wanted of most patterns for the lines of a
report, and it makes the ways of a repetition the beginnings of one run.

## Main results

* `Pattern.many1_bind`, `Pattern.lazyMany_bind` — a repetition and what follows it
* `Pattern.search_append` — a search passes over a text in which no match begins
* `Pattern.findUpTo_append`, `Pattern.findUpTo_of_head?` — and so does the search for all matches
-/

/-- How a text may begin, with what is captured and what is left. -/
def Pattern (σ α : Type) : Type := List σ → List (α × List σ)

namespace Pattern

variable {σ α β : Type}

instance : Monad (Pattern σ) where
  pure a := fun s => [(a, s)]
  bind p f := fun s => (p s).flatMap fun way => f way.1 way.2

/-- One character. -/
def satisfy (p : σ → Bool) : Pattern σ σ
  | [] => []
  | c :: s => if p c then [(c, s)] else []

def literal [DecidableEq σ] (w : List σ) : Pattern σ Unit := fun s =>
  if w <+: s then [((), s.drop w.length)] else []

/-- Any number of characters, as many as there are first: the ways are the beginnings of the run,
from the longest to the empty one. -/
def many (p : σ → Bool) : Pattern σ (List σ)
  | [] => [([], [])]
  | c :: s => if p c then (many p s).map (fun way => (c :: way.1, way.2)) ++ [([], c :: s)]
    else [([], c :: s)]

/-- At least one character, as many as there are first. -/
def many1 (p : σ → Bool) : Pattern σ (List σ) := do
  let c ← satisfy p
  let w ← many p
  return c :: w

/-- Any number of characters, none first: the same ways in the opposite order. -/
def lazyMany (p : σ → Bool) : Pattern σ (List σ)
  | [] => [([], [])]
  | c :: s => ([], c :: s) :: if p c then (lazyMany p s).map fun way => (c :: way.1, way.2) else []

def optional (q : Pattern σ α) : Pattern σ (Option α) := fun s =>
  (q s).map (fun way => (some way.1, way.2)) ++ [(none, s)]

/-- The end of the text, or the last line break: a final line break may still follow, as in the
languages that take `$` for this. -/
def endOfText [DecidableEq σ] (newline : σ) : Pattern σ Unit := fun s =>
  if s = [] ∨ s = [newline] then [((), s)] else []

/-- The leftmost match, with the text after it. -/
def search (q : Pattern σ α) : List σ → Option (α × List σ)
  | [] => (q []).head?
  | c :: s => (q (c :: s)).head? <|> search q s

/-- At most so many matches, each one behind the one before. -/
def findUpTo (q : Pattern σ α) : ℕ → List σ → List α
  | 0, _ => []
  | n + 1, s =>
    match search q s with
    | none => []
    | some (a, rest) => a :: findUpTo q n rest

/-- All matches of a pattern that matches no empty text. Each takes a character at least, so there
are not more of them than characters. -/
def findAll (q : Pattern σ α) (s : List σ) : List α := findUpTo q (s.length + 1) s

/-! ### What a match looks like

Simp lemmas: membership in the ways of a pattern is taken apart into how the text is put together.
-/

section Membership

variable {a : α} {b : β} {s rest : List σ} {p : σ → Bool}

@[simp] theorem pure_apply (a : α) (s : List σ) : (pure a : Pattern σ α) s = [(a, s)] := rfl

theorem bind_apply (q : Pattern σ α) (f : α → Pattern σ β) (s : List σ) :
    (q >>= f) s = (q s).flatMap fun way => f way.1 way.2 := rfl

@[simp] theorem mem_pure {a' : α} :
    (a', rest) ∈ (pure a : Pattern σ α) s ↔ a' = a ∧ rest = s := by
  rw [pure_apply, List.mem_singleton, Prod.mk.injEq]

@[simp] theorem mem_bind {q : Pattern σ α} {f : α → Pattern σ β} :
    (b, rest) ∈ (q >>= f) s ↔ ∃ a mid, (a, mid) ∈ q s ∧ (b, rest) ∈ f a mid := by
  rw [bind_apply, List.mem_flatMap]
  exact ⟨fun ⟨way, hq, hf⟩ => ⟨way.1, way.2, hq, hf⟩, fun ⟨a, mid, hq, hf⟩ => ⟨(a, mid), hq, hf⟩⟩

@[simp] theorem mem_satisfy {c : σ} : (c, rest) ∈ satisfy p s ↔ s = c :: rest ∧ p c = true := by
  cases s with
  | nil => simp [satisfy]
  | cons d s =>
    rw [satisfy]
    split
    · next hd =>
      rw [List.mem_singleton, Prod.mk.injEq, List.cons.injEq]
      constructor
      · rintro ⟨rfl, rfl⟩
        exact ⟨⟨rfl, rfl⟩, hd⟩
      · rintro ⟨⟨rfl, rfl⟩, -⟩
        exact ⟨rfl, rfl⟩
    · next hd =>
      refine iff_of_false (List.not_mem_nil) ?_
      rintro ⟨heq, hc⟩
      exact hd ((List.cons.inj heq).1 ▸ hc)

@[simp] theorem mem_literal [DecidableEq σ] {w : List σ} {u : Unit} :
    (u, rest) ∈ literal w s ↔ s = w ++ rest := by
  rw [literal]
  split
  · next h =>
    obtain ⟨rest', rfl⟩ := h
    simp [eq_comm]
  · next h => exact iff_of_false (List.not_mem_nil) fun heq => h ⟨rest, heq.symm⟩

@[simp] theorem mem_many {w : List σ} :
    (w, rest) ∈ many p s ↔ s = w ++ rest ∧ ∀ c ∈ w, p c = true := by
  induction s generalizing w with
  | nil =>
    rw [many, List.mem_singleton, Prod.mk.injEq]
    constructor
    · rintro ⟨rfl, rfl⟩
      exact ⟨rfl, by simp⟩
    · exact fun h => List.append_eq_nil_iff.mp h.1.symm
  | cons d s ih =>
    cases w with
    | nil =>
      rw [many]
      split <;> simp only [List.mem_append, List.mem_map, List.mem_singleton, Prod.mk.injEq,
        List.nil_append, reduceCtorEq, false_and, and_false, exists_false, false_or, true_and,
        List.not_mem_nil, false_imp_iff, implies_true, and_true] <;> exact eq_comm
    | cons c w =>
      rw [many, List.cons_append, List.cons.injEq, List.forall_mem_cons]
      split
      · next hd =>
        rw [List.mem_append, List.mem_map, List.mem_singleton]
        constructor
        · rintro (⟨way, hway, heq⟩ | heq)
          · simp only [Prod.mk.injEq, List.cons.injEq] at heq
            obtain ⟨⟨rfl, rfl⟩, rfl⟩ := heq
            obtain ⟨rfl, hall⟩ := ih.mp hway
            exact ⟨⟨rfl, rfl⟩, hd, hall⟩
          · exact absurd (Prod.mk.inj heq).1 (by simp)
        · rintro ⟨⟨rfl, rfl⟩, -, hall⟩
          exact .inl ⟨(w, rest), ih.mpr ⟨rfl, hall⟩, rfl⟩
      · next hd =>
        refine iff_of_false (by simp) ?_
        rintro ⟨⟨rfl, -⟩, hc, -⟩
        exact hd hc

@[simp] theorem mem_many1 {w : List σ} :
    (w, rest) ∈ many1 p s ↔ s = w ++ rest ∧ w ≠ [] ∧ ∀ c ∈ w, p c = true := by
  simp only [many1, mem_bind, mem_satisfy, mem_many]
  constructor
  · rintro ⟨c, _, ⟨rfl, hc⟩, w', _, ⟨rfl, hw⟩, hend⟩
    obtain ⟨rfl, rfl⟩ := mem_pure.mp hend
    exact ⟨rfl, by simp, List.forall_mem_cons.mpr ⟨hc, hw⟩⟩
  · rintro ⟨rfl, hne, hall⟩
    obtain ⟨c, w', rfl⟩ := List.exists_cons_of_ne_nil hne
    obtain ⟨hc, hw⟩ := List.forall_mem_cons.mp hall
    exact ⟨c, _, ⟨rfl, hc⟩, w', _, ⟨rfl, hw⟩, mem_pure.mpr ⟨rfl, rfl⟩⟩

/-- A lazy repetition has the same matches as a greedy one. -/
theorem mem_lazyMany_iff {way : List σ × List σ} : way ∈ lazyMany p s ↔ way ∈ many p s := by
  induction s generalizing way with
  | nil => rw [lazyMany, many]
  | cons d s ih =>
    rw [lazyMany, many]
    split
    · simp only [List.mem_cons, List.mem_append, List.mem_map, ih, List.not_mem_nil, or_false]
      exact or_comm
    · rfl

@[simp] theorem mem_lazyMany {w : List σ} :
    (w, rest) ∈ lazyMany p s ↔ s = w ++ rest ∧ ∀ c ∈ w, p c = true :=
  mem_lazyMany_iff.trans mem_many

@[simp] theorem mem_optional {q : Pattern σ α} {found : Option α} :
    (found, rest) ∈ optional q s ↔
      (found = none ∧ rest = s) ∨ ∃ a, found = some a ∧ (a, rest) ∈ q s := by
  rw [optional, List.mem_append, List.mem_map, List.mem_singleton]
  constructor
  · rintro (⟨way, hway, heq⟩ | heq)
    · obtain ⟨rfl, rfl⟩ := Prod.mk.inj heq
      exact .inr ⟨way.1, rfl, hway⟩
    · exact .inl (Prod.mk.inj heq)
  · rintro (⟨rfl, rfl⟩ | ⟨a, rfl, ha⟩)
    · exact .inr rfl
    · exact .inl ⟨(a, rest), ha, rfl⟩

/-- There is no match if there is no way to match. -/
theorem eq_nil_of_forall {q : Pattern σ α} (h : ∀ a rest, (a, rest) ∉ q s) : q s = [] :=
  List.eq_nil_iff_forall_not_mem.mpr fun way => h way.1 way.2

end Membership

/-! ### The matches of a text in pieces

The text is given as a concatenation, and each part of the pattern takes one piece. The condition is
always the same: the next part must not be able to begin inside the piece. -/

section Pieces

variable {p : σ → Bool} {s w rest : List σ}

theorem bind_of_eq_nil {q : Pattern σ α} {f : α → Pattern σ β} (h : q s = []) :
    (q >>= f) s = [] := by
  rw [bind_apply, h, List.flatMap_nil]

theorem bind_of_eq_singleton {q : Pattern σ α} {f : α → Pattern σ β} {a : α}
    (h : q s = [(a, rest)]) :
    (q >>= f) s = f a rest := by
  rw [bind_apply, h, List.flatMap_singleton]

theorem literal_append [DecidableEq σ] (w rest : List σ) :
    literal w (w ++ rest) = [((), rest)] := by
  rw [literal, if_pos (List.prefix_append w rest), List.drop_left]

theorem literal_bind [DecidableEq σ] (w rest : List σ) (f : Unit → Pattern σ β) :
    (literal w >>= f) (w ++ rest) = f () rest := bind_of_eq_singleton (literal_append w rest)

theorem satisfy_bind {c : σ} (hc : p c = true) (f : σ → Pattern σ β) :
    (satisfy p >>= f) (c :: rest) = f c rest := bind_of_eq_singleton (by rw [satisfy, if_pos hc])

/-- A greedy run goes on to the end of its piece if what follows cannot begin inside of the run. -/
theorem many_bind {f : List σ → Pattern σ β} (hw : ∀ c ∈ w, p c = true)
    (hrest : rest.head?.any p = false)
    (hf : ∀ v s, s.head?.any p = true → f v s = []) : (many p >>= f) (w ++ rest) = f w rest := by
  induction w generalizing f with
  | nil =>
    have hmany : many p rest = [([], rest)] := by
      cases rest with
      | nil => rw [many]
      | cons d rest => rw [many, if_neg (by simpa using hrest)]
    exact bind_of_eq_singleton hmany
  | cons c w ih =>
    obtain ⟨hc, hw⟩ := List.forall_mem_cons.mp hw
    have hnext := ih (f := fun v => f (c :: v)) hw fun v s hs => hf (c :: v) s hs
    rw [bind_apply] at hnext
    rw [List.cons_append, bind_apply, many, if_pos hc, List.flatMap_append, List.flatMap_map, hnext,
      List.flatMap_singleton, hf [] _ (by simpa using hc), List.append_nil]

/-- The first character of a run is fixed. -/
theorem many1_bind_cons {f : List σ → Pattern σ β} {c : σ} (hc : p c = true) :
    (many1 p >>= f) (c :: s) = (many p >>= fun v => f (c :: v)) s := by
  have hfirst : satisfy p (c :: s) = [(c, s)] := by rw [satisfy, if_pos hc]
  rw [bind_apply, many1, bind_of_eq_singleton hfirst]
  simp only [bind_apply, List.flatMap_assoc, pure_apply, List.flatMap_singleton]

theorem many1_bind {f : List σ → Pattern σ β} (hne : w ≠ []) (hw : ∀ c ∈ w, p c = true)
    (hrest : rest.head?.any p = false)
    (hf : ∀ v s, s.head?.any p = true → f v s = []) : (many1 p >>= f) (w ++ rest) = f w rest := by
  obtain ⟨c, w, rfl⟩ := List.exists_cons_of_ne_nil hne
  obtain ⟨hc, hw⟩ := List.forall_mem_cons.mp hw
  rw [List.cons_append, many1_bind_cons hc]
  exact many_bind hw hrest fun v s hs => hf (c :: v) s hs

/-! Where what follows could begin inside of the run too, the end of the piece is still tried
first. -/

theorem exists_many_append (hw : ∀ c ∈ w, p c = true) (hrest : rest.head?.any p = false) :
    ∃ more, many p (w ++ rest) = (w, rest) :: more := by
  induction w with
  | nil =>
    refine ⟨[], ?_⟩
    cases rest with
    | nil => rw [List.nil_append, many]
    | cons d rest => rw [List.nil_append, many, if_neg (by simpa using hrest)]
  | cons c w ih =>
    obtain ⟨hc, hw⟩ := List.forall_mem_cons.mp hw
    obtain ⟨more, hmore⟩ := ih hw
    exact ⟨_, by rw [List.cons_append, many, if_pos hc, hmore]; rfl⟩

theorem head?_many_bind {f : List σ → Pattern σ β} {way : β × List σ} (hw : ∀ c ∈ w, p c = true)
    (hrest : rest.head?.any p = false) (hf : (f w rest).head? = some way) :
    ((many p >>= f) (w ++ rest)).head? = some way := by
  obtain ⟨more, hmore⟩ := exists_many_append hw hrest
  rw [bind_apply, hmore, List.flatMap_cons, List.head?_append, hf]
  rfl

theorem head?_many1_bind {f : List σ → Pattern σ β} {way : β × List σ} (hne : w ≠ [])
    (hw : ∀ c ∈ w, p c = true) (hrest : rest.head?.any p = false)
    (hf : (f w rest).head? = some way) : ((many1 p >>= f) (w ++ rest)).head? = some way := by
  obtain ⟨c, w, rfl⟩ := List.exists_cons_of_ne_nil hne
  obtain ⟨hc, hw⟩ := List.forall_mem_cons.mp hw
  rw [List.cons_append, many1_bind_cons hc]
  exact head?_many_bind hw hrest hf

/-- A lazy run stops where what follows it matches for the first time. -/
theorem lazyMany_bind {f : List σ → Pattern σ β} (hw : ∀ c ∈ w, p c = true)
    (hf : ∀ v c v', w = v ++ c :: v' → f v (c :: v' ++ rest) = []) :
    ∃ more, (lazyMany p >>= f) (w ++ rest) = f w rest ++ more := by
  induction w generalizing f with
  | nil =>
    rw [List.nil_append, bind_apply]
    cases rest with
    | nil => exact ⟨[], by rw [lazyMany, List.flatMap_singleton, List.append_nil]⟩
    | cons d rest => exact ⟨_, by rw [lazyMany, List.flatMap_cons]⟩
  | cons c w ih =>
    obtain ⟨hc, hw⟩ := List.forall_mem_cons.mp hw
    obtain ⟨more, hnext⟩ := ih (f := fun v => f (c :: v)) hw fun v d v' hv =>
      hf (c :: v) d v' (by rw [hv, List.cons_append])
    rw [bind_apply] at hnext
    refine ⟨more, ?_⟩
    rw [List.cons_append, bind_apply, lazyMany, if_pos hc, List.flatMap_cons,
      List.flatMap_map, hnext]
    have hhere := hf [] c w rfl
    rw [List.cons_append] at hhere
    rw [hhere, List.nil_append]

theorem bind_assoc {γ : Type} (q : Pattern σ α) (f : α → Pattern σ β) (g : β → Pattern σ γ) :
    (q >>= f) >>= g = q >>= fun a => f a >>= g := by
  funext s
  rw [bind_apply, bind_apply, bind_apply, List.flatMap_assoc]
  rfl

theorem optional_bind (q : Pattern σ α) (f : Option α → Pattern σ β) (s : List σ) :
    (optional q >>= f) s = (q >>= fun a => f (some a)) s ++ f none s := by
  rw [bind_apply, optional, List.flatMap_append, List.flatMap_map,
    List.flatMap_singleton, bind_apply]

end Pieces

/-! ### Where two readings of a text agree

A text is read in two ways, as it was put together and as a match takes it apart. A sign that occurs
in few places fixes how the one lies in the other. -/

section Readings

variable {u v r r' : List σ} {c d : σ}

/-- The first sign of a text is where it is in either reading. -/
theorem append_cons_inj {p : σ → Bool} (hu : ∀ x ∈ u, p x = false) (hv : ∀ x ∈ v, p x = false)
    (hc : p c = true) (hd : p d = true) (h : u ++ c :: r = v ++ d :: r') :
    u = v ∧ c = d ∧ r = r' := by
  induction u generalizing v with
  | nil =>
    cases v with
    | nil => exact ⟨rfl, List.cons.inj h⟩
    | cons x v =>
      obtain ⟨rfl, -⟩ := List.cons.inj h
      exact absurd (hv c (List.mem_cons_self ..)) (by simp [hc])
  | cons x u ih =>
    obtain ⟨hx, hu⟩ := List.forall_mem_cons.mp hu
    cases v with
    | nil =>
      obtain ⟨rfl, -⟩ := List.cons.inj h
      exact absurd hx (by simp [hd])
    | cons y v =>
      obtain ⟨rfl, htail⟩ := List.cons.inj h
      obtain ⟨rfl, hrest⟩ := ih hu (List.forall_mem_cons.mp hv).2 htail
      exact ⟨rfl, hrest⟩

/-- The only sign of a text is where it is in either reading. -/
theorem append_cons_unique (hv : c ∉ v) (hr : c ∉ r') (h : u ++ c :: r = v ++ c :: r') :
    u = v ∧ r = r' := by
  rcases List.append_eq_append_iff.mp h with ⟨w, rfl, hw⟩ | ⟨w, rfl, hw⟩
  · cases w with
    | nil => exact ⟨(List.append_nil u).symm, (List.cons.inj hw).2⟩
    | cons x w =>
      obtain ⟨rfl, -⟩ := List.cons.inj hw
      exact absurd (List.mem_append_right u (List.mem_cons_self ..)) hv
  · cases w with
    | nil => exact ⟨List.append_nil v, (List.cons.inj hw).2.symm⟩
    | cons x w =>
      obtain ⟨-, rfl⟩ := List.cons.inj hw
      exact absurd (List.mem_append_right w (List.mem_cons_self ..)) hr

/-- A sign that is not in the last piece of a text is in front of it. -/
theorem exists_append_of_not_mem {w piece : List σ} (hc : c ∉ piece)
    (h : w ++ piece = v ++ c :: r) :
    ∃ w', w = v ++ c :: w' ∧ w' ++ piece = r := by
  rcases List.append_eq_append_iff.mp h with ⟨u, rfl, rfl⟩ | ⟨u, rfl, hu⟩
  · exact absurd (List.mem_append_right u (List.mem_cons_self ..)) hc
  · cases u with
    | nil =>
      obtain rfl : c :: r = piece := hu
      exact absurd (List.mem_cons_self ..) hc
    | cons x u =>
      obtain ⟨rfl, rfl⟩ := List.cons.inj hu
      exact ⟨u, rfl, rfl⟩

end Readings

/-! ### Searching

A search goes on to the next character where the pattern does not match. What it passes over can be
cut into pieces, too. -/

section Search

variable {q : Pattern σ α} {s t rest : List σ} {a : α}

/-- No match begins in the text where the other one follows. What follows matters, because a match
could begin in the one and end in the other. -/
def Passes (q : Pattern σ α) (s t : List σ) : Prop :=
  ∀ before c after, s = before ++ c :: after → q (c :: after ++ t) = []

theorem passes_nil : Passes q [] t := fun _ _ _ h => absurd h (by simp)

theorem passes_cons {c : σ} : Passes q (c :: s) t ↔ q (c :: s ++ t) = [] ∧ Passes q s t := by
  constructor
  · exact fun h => ⟨h [] c s rfl, fun before d after hs =>
      h (c :: before) d after (by rw [hs]; rfl)⟩
  · rintro ⟨hhere, hrest⟩ before d after hs
    rcases List.cons_eq_append_iff.mp hs with ⟨rfl, hcons⟩ | ⟨before', rfl, hs'⟩
    · obtain ⟨rfl, rfl⟩ := List.cons.inj hcons
      exact hhere
    · exact hrest before' d after hs'

theorem passes_append {s' : List σ} :
    Passes q (s ++ s') t ↔ Passes q s (s' ++ t) ∧ Passes q s' t := by
  induction s with
  | nil => exact ⟨fun h => ⟨passes_nil, h⟩, fun h => h.2⟩
  | cons c s ih => rw [List.cons_append, passes_cons, passes_cons, ih, and_assoc, List.cons_append,
      List.cons_append, List.append_assoc]

/-- A pattern that begins with some character passes over a text without it. -/
theorem passes_of_not_mem {x : σ} (hq : ∀ c u, c ≠ x → q (c :: u) = []) (hs : x ∉ s) :
    Passes q s t := by
  rintro before c after rfl
  exact hq c _ fun hc => hs (hc ▸ List.mem_append_right _ (List.mem_cons_self ..))

/-- A pattern that begins with a word passes over a text without one of the word's signs, unless
what follows goes on with the word. -/
theorem passes_literal_bind [DecidableEq σ] {w : List σ} {d : σ} {f : Unit → Pattern σ α}
    (hd : d ∈ w) (hs : d ∉ s) (ht : ∀ c ∈ t.head?, c ∉ w.tail) : Passes (literal w >>= f) s t := by
  rintro before c after rfl
  refine bind_of_eq_nil (if_neg ?_)
  rintro ⟨rest, hrest⟩
  have hafter : d ∉ c :: after := fun hmem => hs (List.mem_append_right _ hmem)
  rcases List.append_eq_append_iff.mp hrest with ⟨as, hsplit, -⟩ | ⟨as, rfl, rfl⟩
  · exact hafter (hsplit ▸ List.mem_append_left _ hd)
  · cases as with
    | nil => exact hafter (List.append_nil (c :: after) ▸ hd)
    | cons e as => exact ht e rfl (List.mem_append_right _ (List.mem_cons_self ..))

theorem literal_bind_of_ne [DecidableEq σ] {x c : σ} {w : List σ} {f : Unit → Pattern σ α}
    (h : c ≠ x) : (literal (x :: w) >>= f) (c :: s) = [] := by
  refine bind_of_eq_nil (if_neg ?_)
  rintro ⟨rest, hrest⟩
  exact h (List.cons.inj hrest).1.symm

/-- A search that passes over the whole text. -/
theorem search_eq_none (h : Passes q s []) (hnil : q [] = []) : search q s = none := by
  induction s with
  | nil => rw [search, hnil]; rfl
  | cons c s ih =>
    obtain ⟨hhere, hrest⟩ := passes_cons.mp h
    rw [List.append_nil] at hhere
    rw [search, hhere, ih hrest]
    rfl

theorem search_of_head? (h : (q s).head? = some (a, rest)) : search q s = some (a, rest) := by
  cases s with
  | nil => exact h
  | cons c s => rw [search, h]; rfl

/-- A search passes over a text in which no match begins. -/
theorem search_append (h : Passes q s t) : search q (s ++ t) = search q t := by
  induction s with
  | nil => rfl
  | cons c s ih =>
    obtain ⟨hhere, hrest⟩ := passes_cons.mp h
    rw [List.cons_append, search, ← List.cons_append, hhere]
    exact ih hrest

theorem findUpTo_append {n : ℕ} (h : Passes q s t) :
    findUpTo q n (s ++ t) = findUpTo q n t := by
  cases n with
  | zero => rfl
  | succ n => rw [findUpTo, findUpTo, search_append h]

theorem findUpTo_of_head? {n : ℕ} (h : (q s).head? = some (a, rest)) :
    findUpTo q (n + 1) s = a :: findUpTo q n rest := by
  rw [findUpTo, search_of_head? h]

end Search

end Pattern
