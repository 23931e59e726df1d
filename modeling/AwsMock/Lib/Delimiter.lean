import Mathlib.Data.List.Infix

/-!
# Lines of a stream

Lines that each end with a delimiter of any length. `splitLines` reads a stream from the front; what it gives does not
depend on how the stream was cut into pieces, and `cutLine` takes its lines off one by one.
-/

namespace Lib

variable {α : Type} [DecidableEq α]

/-- The lines of a stream, and what follows the last delimiter; `line` was read before. -/
def splitAfter (d line : List α) : List α → List (List α) × List α
  | [] => ([], line)
  | c :: cs =>
    if d <:+ line ++ [c] then
      (((line ++ [c]).take (line.length + 1 - d.length)) :: (splitAfter d [] cs).1, (splitAfter d [] cs).2)
    else splitAfter d (line ++ [c]) cs

def splitLines (d stream : List α) : List (List α) × List α := splitAfter d [] stream

/-- The line before the first delimiter, and what follows it; `line` was read before. -/
def cutAfter (d line : List α) : List α → Option (List α × List α)
  | [] => none
  | c :: cs =>
    if d <:+ line ++ [c] then some ((line ++ [c]).take (line.length + 1 - d.length), cs) else cutAfter d (line ++ [c]) cs

def cutLine (d stream : List α) : Option (List α × List α) := cutAfter d [] stream

variable {d line : List α}

/-- A stream that goes on. -/
theorem splitAfter_append : ∀ (line xs ys : List α), splitAfter d line (xs ++ ys) =
    ((splitAfter d line xs).1 ++ (splitAfter d (splitAfter d line xs).2 ys).1,
      (splitAfter d (splitAfter d line xs).2 ys).2)
  | line, [], ys => rfl
  | line, c :: cs, ys => by
    rw [List.cons_append, splitAfter, splitAfter]
    split
    · rw [splitAfter_append [] cs ys]
      rfl
    · exact splitAfter_append (line ++ [c]) cs ys

/-- The next line, or none. -/
theorem splitAfter_eq : ∀ (line xs : List α), splitAfter d line xs =
    match cutAfter d line xs with
    | some (first, rest) => (first :: (splitLines d rest).1, (splitLines d rest).2)
    | none => ([], line ++ xs)
  | line, [] => by simp [splitAfter, cutAfter]
  | line, c :: cs => by
    rw [splitAfter, cutAfter]
    split
    · rfl
    · rw [splitAfter_eq (line ++ [c]) cs, List.append_assoc, List.singleton_append]

theorem splitLines_of_cut {stream first rest : List α} (h : cutLine d stream = some (first, rest)) :
    splitLines d stream = (first :: (splitLines d rest).1, (splitLines d rest).2) := by
  rw [cutLine] at h
  rw [splitLines, splitAfter_eq, h]

theorem splitLines_of_not_cut {stream : List α} (h : cutLine d stream = none) : splitLines d stream = ([], stream) := by
  rw [cutLine] at h
  rw [splitLines, splitAfter_eq, h, List.nil_append]

/-- The first line, its delimiter and the rest are the stream. -/
theorem cutAfter_eq_some {first rest : List α} : ∀ {line xs : List α}, cutAfter d line xs = some (first, rest) →
    line ++ xs = first ++ d ++ rest
  | line, [], h => by cases h
  | line, c :: cs, h => by
    rw [cutAfter] at h
    split at h
    · next hsuffix =>
      obtain ⟨t, ht⟩ := hsuffix
      have hlength := congrArg List.length ht
      simp only [List.length_append, List.length_singleton] at hlength
      obtain ⟨rfl, rfl⟩ := Prod.mk.inj (Option.some.inj h)
      rw [← ht, List.take_left' (by omega), ht, List.append_assoc, List.singleton_append]
    · have hrest := cutAfter_eq_some h
      rwa [List.append_assoc, List.singleton_append] at hrest

theorem eq_of_cutLine {stream first rest : List α} (h : cutLine d stream = some (first, rest)) :
    stream = first ++ d ++ rest := cutAfter_eq_some h

/-- A stream of lines, the last one unfinished, that goes on. -/
theorem splitLines_append (xs ys : List α) : splitLines d (xs ++ ys) =
    ((splitLines d xs).1 ++ (splitAfter d (splitLines d xs).2 ys).1, (splitAfter d (splitLines d xs).2 ys).2) :=
  splitAfter_append [] xs ys

/-- All up to the first element with `p`, and this one. -/
def takeThrough (p : α → Prop) [DecidablePred p] : List α → List α
  | [] => []
  | x :: xs => if p x then [x] else x :: takeThrough p xs

variable {p : α → Prop} [DecidablePred p]

theorem takeThrough_append {ys : List α} : ∀ {xs : List α}, (∀ x ∈ xs, ¬ p x) →
    takeThrough p (xs ++ ys) = xs ++ takeThrough p ys
  | [], _ => rfl
  | x :: xs, h => by
    rw [List.forall_mem_cons] at h
    rw [List.cons_append, takeThrough, if_neg h.1, takeThrough_append h.2, List.cons_append]

theorem takeThrough_of_mem {q : α} {xs ys : List α} (h : ∀ x ∈ xs, ¬ p x) (hq : p q) :
    takeThrough p (xs ++ [q] ++ ys) = xs ++ [q] := by
  rw [List.append_assoc, takeThrough_append h, List.singleton_append, takeThrough, if_pos hq]

end Lib
