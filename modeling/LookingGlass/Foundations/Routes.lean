import LookingGlass.Foundations.Utf16
import Mathlib.Data.List.Forall2

/-!
# Route templates

A template is compared with a path segment by segment: a literal has to be the segment, up to a
folding of its characters, a parameter takes any segment that is not empty, and a catch-all takes
the rest, which may be nothing. One separator at the end of a path counts for nothing.

Most templates take only at their end. Then the last segment of a path is the last one that was
taken, or it is the last literal.

## What is left out

A router chooses among several templates by an order of precedence, and constraints on a parameter
may exclude some of them. Neither is here: what is said holds for each template by itself, and so
for whichever is chosen. Percent-encoding is the business of whoever makes the path; a segment is a
list of characters that has been decoded already.

## Main results

* `Route.exists_front_of_captures` — a path is its literals and what is taken from it
* `Route.fold_isSuffix_iff` — a test for the end of a path is a test of its last part
-/

namespace List

variable {α : Type} [BEq α] [LawfulBEq α]

/-- A map that moves nothing to the separator, and keeps it, does not change where a list is
split. -/
theorem splitOn_map {f : α → α} {d : α} (hf : ∀ c, f c = d ↔ c = d) (s : List α) :
    (s.map f).splitOn d = (s.splitOn d).map (map f) := by
  induction s with
  | nil => simp
  | cons c s ih =>
    rw [map_cons, splitOn_cons_eq_if_modifyHead, splitOn_cons_eq_if_modifyHead, ih]
    by_cases hc : c = d
    · rw [if_pos (beq_iff_eq.mpr ((hf c).mpr hc)), if_pos (beq_iff_eq.mpr hc)]
      rfl
    · rw [if_neg (fun h => hc ((hf c).mp (beq_iff_eq.mp h))),
        if_neg (fun h => hc (beq_iff_eq.mp h))]
      cases s.splitOn d <;> rfl

end List

namespace Route

/-- A segment of a template: a text, a parameter that takes one segment of a path, or one that takes
all that are left. -/
inductive Segment (α : Type) where
  | literal (text : List α)
  | parameter
  | catchAll
  deriving DecidableEq

namespace Segment

variable {α : Type}

def literal? : Segment α → Option (List α)
  | literal text => some text
  | _ => none

def isLiteral (t : Segment α) : Bool := t.literal?.isSome

end Segment

variable {α : Type} [DecidableEq α]

/-- The segments of a path, which starts with a separator. -/
def segments (sep : α) (path : List α) : List (List α) :=
  let parts := (path.drop 1).splitOn sep
  if parts.getLast? = some [] then parts.dropLast else parts

/-- What a template takes from the segments of a path, if it matches them. A literal is compared
after both sides have been folded. -/
def captures (fold : α → α) : List (Segment α) → List (List α) → Option (List (List α))
  | [], [] => some []
  | [], _ :: _ => none
  | .catchAll :: _, parts => some parts
  | .literal _ :: _, [] => none
  | .parameter :: _, [] => none
  | .literal text :: ts, part :: parts =>
    if part.map fold = text.map fold then captures fold ts parts else none
  | .parameter :: ts, part :: parts =>
    if part = [] then none else (captures fold ts parts).map (part :: ·)

/-- The literals of a template. -/
def literals (ts : List (Segment α)) : List (List α) := ts.filterMap Segment.literal?

/-- There are no literals behind what is taken, so that the end of a path is what was taken of it.
-/
def takesLast : List (Segment α) → Bool
  | [] => true
  | .literal _ :: ts => takesLast ts
  | _ :: ts => ts.all fun t => !t.isLiteral

/-! ### What is taken

The segments of a path are compared with the template from the left. Where only the end of a
template takes anything, what is taken is an end of the path. -/

variable {fold : α → α} {ts : List (Segment α)} {parts taken : List (List α)} {path s : List α}
  {sep : α}

/-- Without literals everything is taken. -/
theorem captures_of_none (hts : ∀ t ∈ ts, t.isLiteral = false)
    (h : captures fold ts parts = some taken) : taken = parts := by
  induction ts generalizing parts taken with
  | nil =>
    cases parts with
    | nil => exact (Option.some.inj h).symm
    | cons part parts => exact absurd h (by simp [captures])
  | cons t ts ih =>
    cases t with
    | literal text => exact absurd (hts _ (List.mem_cons_self ..)) (by simp [Segment.isLiteral,
        Segment.literal?])
    | catchAll => exact (Option.some.inj h).symm
    | parameter =>
      cases parts with
      | nil => exact absurd h (by simp [captures])
      | cons part parts =>
        rw [captures] at h
        split at h
        · exact absurd h (by simp)
        · obtain ⟨rest, hrest, rfl⟩ := Option.map_eq_some_iff.mp h
          rw [ih (fun t ht => hts t (List.mem_cons_of_mem _ ht)) hrest]

/-- With literals only nothing is. -/
theorem captures_of_all (hts : ∀ t ∈ ts, t.isLiteral = true)
    (h : captures fold ts parts = some taken) : taken = [] := by
  induction ts generalizing parts with
  | nil =>
    cases parts with
    | nil => exact (Option.some.inj h).symm
    | cons part parts => exact absurd h (by simp [captures])
  | cons t ts ih =>
    cases t with
    | literal text =>
      cases parts with
      | nil => exact absurd h (by simp [captures])
      | cons part parts =>
        rw [captures] at h
        split at h
        · exact ih (fun t ht => hts t (List.mem_cons_of_mem _ ht)) h
        · exact absurd h (by simp)
    | parameter | catchAll => exact absurd (hts _ (List.mem_cons_self ..)) (by simp
        [Segment.isLiteral, Segment.literal?])

/-- **A path is its literals and what is taken from it.** -/
theorem exists_front_of_captures (hts : takesLast ts = true)
    (h : captures fold ts parts = some taken) :
    ∃ front, parts = front ++ taken ∧
      List.Forall₂ (fun text part => part.map fold = text.map fold) (literals ts) front := by
  induction ts generalizing parts with
  | nil =>
    cases parts with
    | nil => exact ⟨[], (Option.some.inj h), .nil⟩
    | cons part parts => exact absurd h (by simp [captures])
  | cons t ts ih =>
    have hnone (hrest : ts.all (fun t => !t.isLiteral) = true) (ht : t.isLiteral = false) :
        ∃ front, parts = front ++ taken ∧
          List.Forall₂ (fun text part => part.map fold = text.map fold) (literals (t :: ts))
            front := by
      have hall : ∀ u ∈ t :: ts, u.isLiteral = false := by
        intro u hu
        rcases List.mem_cons.mp hu with rfl | hu
        · exact ht
        · simpa using List.all_eq_true.mp hrest u hu
      have hliterals : literals (t :: ts) = [] := by
        refine List.filterMap_eq_nil_iff.mpr fun u hu => ?_
        simpa [Segment.isLiteral] using hall u hu
      rw [hliterals]
      exact ⟨[], (captures_of_none hall h).symm, .nil⟩
    cases t with
    | parameter | catchAll => exact hnone hts rfl
    | literal text =>
      cases parts with
      | nil => exact absurd h (by simp [captures])
      | cons part parts =>
        rw [captures] at h
        split at h
        · next hpart =>
          obtain ⟨front, rfl, hfront⟩ := ih hts h
          exact ⟨part :: front, rfl, .cons hpart hfront⟩
        · exact absurd h (by simp)

/-- The last segment is the last one that was taken, or the last literal. -/
theorem getLast?_of_captures (hts : takesLast ts = true)
    (h : captures fold ts parts = some taken) :
    (taken ≠ [] → parts.getLast? = taken.getLast?) ∧
      (taken = [] → parts.getLast?.map (List.map fold) =
        (literals ts).getLast?.map (List.map fold)) := by
  obtain ⟨front, rfl, hfront⟩ := exists_front_of_captures hts h
  refine ⟨fun hne => List.getLast?_append_of_ne_nil _ hne, fun hnil => ?_⟩
  subst hnil
  rw [List.append_nil, ← List.getLast?_map, ← List.getLast?_map]
  refine congrArg List.getLast? ?_
  clear h
  generalize literals ts = texts at hfront
  induction hfront with
  | nil => rfl
  | cons hpart _ ih => rw [List.map_cons, List.map_cons, hpart, ih]

/-! ### The last part of a path

A test for the end of a path is often written as one for a suffix of its text. The lemmas lead from
the text to the segments. -/

/-- What is behind the last separator. -/
def lastPart (sep : α) (path : List α) : List α :=
  ((path.drop 1).splitOn sep).getLast?.getD []

theorem getLast?_splitOn (sep : α) (path : List α) :
    ((path.drop 1).splitOn sep).getLast? = some (lastPart sep path) := by
  rw [lastPart, List.getLast?_eq_some_getLast (List.splitOn_ne_nil sep _)]
  rfl

/-- The last segment is the last part, if that is not empty. -/
theorem getLast?_segments (h : lastPart sep path ≠ []) :
    (segments sep path).getLast? = some (lastPart sep path) := by
  have hlast := getLast?_splitOn sep path
  rw [segments, if_neg]
  · exact hlast
  · rw [hlast]
    exact fun heq => h (Option.some.inj heq)

theorem lastPart_map (hfold : ∀ c, fold c = sep ↔ c = sep) (path : List α) :
    lastPart sep (path.map fold) = (lastPart sep path).map fold := by
  rw [lastPart, ← List.map_drop, List.splitOn_map hfold, List.getLast?_map,
    getLast?_splitOn sep path]
  rfl

/-- A test for the end of a path is a test of its last part. -/
theorem isSuffix_iff (hs : sep ∉ s) (rest : List α) :
    sep :: s <:+ sep :: rest ↔ lastPart sep (sep :: rest) = s := by
  have hsplit : s.splitOn sep = [s] := List.splitOn_eq_singleton hs
  have hlast := getLast?_splitOn sep (sep :: rest)
  rw [List.drop_succ_cons, List.drop_zero] at hlast
  calc sep :: s <:+ sep :: rest ↔ rest = s ∨ sep :: s <:+ rest := by
        rw [List.suffix_cons_iff, List.cons.injEq, eq_self, true_and, eq_comm]
    _ ↔ s.splitOn sep <:+ rest.splitOn sep := (Utf16.splitOn_isSuffix_iff s rest).symm
    _ ↔ lastPart sep (sep :: rest) = s := by
        rw [hsplit, List.singleton_suffix_iff_getLast?_eq_some, hlast, Option.some.injEq]

/-- Up to the folding, too. -/
theorem fold_isSuffix_iff (hfold : ∀ c, fold c = sep ↔ c = sep) (hs : sep ∉ s) (rest : List α) :
    (sep :: s).map fold <:+ (sep :: rest).map fold ↔
      (lastPart sep (sep :: rest)).map fold = s.map fold := by
  have hsep : fold sep = sep := (hfold sep).mpr rfl
  have hnot : sep ∉ s.map fold := by
    intro hmem
    obtain ⟨c, hc, heq⟩ := List.mem_map.mp hmem
    exact hs ((hfold c).mp heq ▸ hc)
  rw [← lastPart_map hfold, List.map_cons, List.map_cons, hsep]
  exact isSuffix_iff hnot _

end Route
