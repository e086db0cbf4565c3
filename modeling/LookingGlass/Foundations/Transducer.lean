import Mathlib.Data.List.Basic
import Mathlib.Tactic.Common

/-!
# Machines that read a text letter by letter

A transducer has a state, reads one letter after the other and prints something for each, or fails.
What it makes of a text that is put together from parts is put together from what it makes of the
parts, each read in the state in which the one before left it. So a part that is not known can be
dealt with by a lemma, and the known ones around it by computation.

A transducer that undoes an encoding does so for a whole text if it does so for the code of each
letter.

## Why a machine and not a recursive parser

A parser that is written as a function of the whole text has to be unfolded on the whole text, and a
text with unknown parts cannot be unfolded. A machine can be stopped after each part: its state is
all that the rest of the text depends on. This is how texts are dealt with that a program has put
together from fixed pieces and from values, such as a query with a number in the middle.

## Main results

* `Transducer.reads_append` — parts of a text
* `Transducer.reads_flatMap` — a text that is encoded letter by letter
-/

universe u v w

/-- For each state and letter, the next state and what is printed, which may be nothing. There is no
next state where the text is refused. -/
abbrev Transducer (σ : Type u) (α : Type v) (β : Type w) := σ → α → Option (σ × List β)

namespace Transducer

variable {σ : Type u} {α : Type v} {β : Type w} (step : Transducer σ α β)

def run : σ → List α → Option (σ × List β)
  | s, [] => some (s, [])
  | s, a :: text =>
    (step s a).bind fun next => (run next.1 text).map fun last => (last.1, next.2 ++ last.2)

/-- From the first state, the text leads to the second and is answered with what is printed. Where
the text is refused there is no such state. -/
def Reads (s : σ) (text : List α) (s' : σ) (printed : List β) : Prop :=
  run step s text = some (s', printed)

variable {step} {s s' s'' : σ} {text text' : List α} {printed printed' : List β} {a : α}

theorem reads_nil : Reads step s [] s [] := rfl

theorem reads_cons (hstep : step s a = some (s', printed)) (h : Reads step s' text s'' printed') :
    Reads step s (a :: text) s'' (printed ++ printed') := by
  rw [Reads, run, hstep, Option.bind_some, show run step s' text = _ from h]
  rfl

/-- **A text in parts.** -/
theorem reads_append (h : Reads step s text s' printed) (h' : Reads step s' text' s'' printed') :
    Reads step s (text ++ text') s'' (printed ++ printed') := by
  induction text generalizing s printed with
  | nil =>
    obtain ⟨rfl, rfl⟩ := Prod.mk.inj (Option.some.inj h)
    exact h'
  | cons a text ih =>
    obtain ⟨⟨next, first⟩, hfirst, hrest⟩ := Option.bind_eq_some_iff.mp h
    obtain ⟨⟨last, rest⟩, hlast, heq⟩ := Option.map_eq_some_iff.mp hrest
    obtain ⟨rfl, rfl⟩ := Prod.mk.inj heq
    have hnext := reads_cons hfirst (ih hlast)
    rwa [← List.append_assoc] at hnext

/-- **A text that is encoded letter by letter** is decoded if each letter is. -/
theorem reads_flatMap {code : β → List α} (h : ∀ b, Reads step s (code b) s [b]) (bs : List β) :
    Reads step s (bs.flatMap code) s bs := by
  induction bs with
  | nil => exact reads_nil
  | cons b bs ih => exact reads_append (h b) ih

/-- A text of letters that are answered one by one. -/
theorem reads_map {f : α → β} (h : ∀ a ∈ text, step s a = some (s, [f a])) :
    Reads step s text s (text.map f) := by
  induction text with
  | nil => exact reads_nil
  | cons a text ih =>
    have hrest := ih fun b hb => h b (List.mem_cons_of_mem _ hb)
    exact reads_cons (h a (List.mem_cons_self ..)) hrest

/-- A state that takes up the letters, as long as they are of the right kind: what is printed comes
later, when the piece is over. -/
theorem reads_collect (collect : List α → σ) (p : α → Prop)
    (h : ∀ taken a, p a → step (collect taken) a = some (collect (taken ++ [a]), []))
    (htext : ∀ a ∈ text, p a) (taken : List α) :
    Reads step (collect taken) text (collect (taken ++ text)) [] := by
  induction text generalizing taken with
  | nil =>
    rw [List.append_nil]
    exact reads_nil
  | cons a text ih =>
    have hrest := ih (fun b hb => htext b (List.mem_cons_of_mem _ hb)) (taken ++ [a])
    rw [List.append_assoc] at hrest
    exact reads_cons (h taken a (htext a (List.mem_cons_self ..))) hrest

end Transducer
