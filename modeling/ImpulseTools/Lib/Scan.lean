import Mathlib.Data.List.DropRight

/-! # Scanning lists

Leftmost non-overlapping matches of a matcher, splitting at runs of separators
and trimming, for lists over any type. A matcher answers with what it recognised
at the head of a list and with what follows it.
-/

namespace Scan

variable {α β : Type*}

/-- What a matcher recognises at the head of a list, and the rest of the list. -/
abbrev Matcher (α β : Type*) := List α → Option (β × List α)

/-- Matches from the head on, passing over the first `skip` items. -/
def findFrom (m : Matcher α β) : ℕ → List α → List β
  | _, [] => []
  | skip + 1, _ :: t => findFrom m skip t
  | 0, c :: t =>
    match m (c :: t) with
    | some (b, rest) => b :: findFrom m (t.length - rest.length) t
    | none => findFrom m 0 t

/-- The leftmost non-overlapping matches, each search starting where the last one ended. -/
def findIter (m : Matcher α β) (t : List α) : List β := findFrom m 0 t

def lit [DecidableEq α] : List α → List α → Option (List α)
  | [], t => some t
  | _ :: _, [] => none
  | p :: ps, c :: t => if p = c then lit ps t else none

theorem lit_append [DecidableEq α] (p q t : List α) : lit (p ++ q) t = (lit p t).bind (lit q) := by
  induction p generalizing t with
  | nil => rfl
  | cons a p ih =>
    cases t with
    | nil => rfl
    | cons c t =>
      rw [List.cons_append, lit, lit]
      split
      · exact ih t
      · rfl

def run (p : α → Bool) : Matcher α (List α) := fun t =>
  match t.takeWhile p with
  | [] => none
  | c :: cs => some (c :: cs, t.dropWhile p)

def consHead (c : α) : List (List α) → List (List α)
  | [] => [[c]]
  | l :: ls => (c :: l) :: ls

/-- Split at maximal runs of separators; `inRun` says whether one has just been passed. -/
def splitRunsFrom (p : α → Bool) : Bool → List α → List (List α)
  | _, [] => [[]]
  | true, c :: t =>
    if p c then splitRunsFrom p true t else consHead c (splitRunsFrom p false t)
  | false, c :: t =>
    if p c then [] :: splitRunsFrom p true t else consHead c (splitRunsFrom p false t)

def splitRuns (p : α → Bool) (t : List α) : List (List α) := splitRunsFrom p false t

def splitAfter (p : α → Bool) : List α → List (List α)
  | [] => []
  | c :: t => if p c then [c] :: splitAfter p t else consHead c (splitAfter p t)

def trim (p : α → Bool) (t : List α) : List α := (t.dropWhile p).rdropWhile p

/-- The items before the first `c`, and those after it if there is one. -/
def cut [DecidableEq α] (c : α) (t : List α) : List α × Option (List α) :=
  match t.span (· ≠ c) with
  | (a, []) => (a, none)
  | (a, _ :: b) => (a, some b)

end Scan
