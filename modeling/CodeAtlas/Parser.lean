/-!
# Parsers

A parser takes something from the front of a list, or fails. A repetition is bounded by a number of
rounds; since every round takes an item, the length of the list is always enough.

Main statements:

* `satisfy_cons`: taking an item depends on that item only;
* `run_takeWhile`: nothing is lost by taking a longest run of items;
* `orElse_of_some`, `orElse_of_none`: of two parsers the first one that does not fail counts.
-/

namespace CodeAtlas

/-- Takes something from the front of a list, or fails. -/
abbrev Parser (τ : Type) := StateT (List τ) Option

namespace Parser

variable {τ α : Type}

/-! ## Single items -/

/-- The next item, which is not taken. -/
def peek? : Parser τ (Option τ) := fun ts => some (ts.head?, ts)

/-- Whether the next item satisfies a condition. -/
def nextIs (p : τ → Bool) : Parser τ Bool := fun ts => some (ts.head?.any p, ts)

/-- Whether the item behind the next one satisfies a condition. -/
def secondIs (p : τ → Bool) : Parser τ Bool := fun ts => some (ts.tail.head?.any p, ts)

/-- Takes an item that satisfies a condition. -/
def satisfy (p : τ → Bool) : Parser τ τ
  | [] => none
  | t :: rest => if p t then some (t, rest) else none

/-- Takes an item that satisfies a condition, if there is one. -/
def satisfy? (p : τ → Bool) : Parser τ (Option τ)
  | [] => some (none, [])
  | t :: rest => if p t then some (some t, rest) else some (none, t :: rest)

/-- Takes the longest run of items that satisfy a condition. -/
def takeWhile (p : τ → Bool) : Parser τ (List τ) := fun ts => some (ts.takeWhile p, ts.dropWhile p)

/-- Takes some given items. -/
def exactly [BEq τ] (items : List τ) : Parser τ Unit := fun ts =>
  if items.isPrefixOf ts then some ((), ts.drop items.length) else none

/-- Takes some given items, if they are next. -/
def exactly? [BEq τ] (items : List τ) : Parser τ Bool := fun ts =>
  if items.isPrefixOf ts then some (true, ts.drop items.length) else some (false, ts)

/-- Fails unless a condition holds. -/
def require (condition : Bool) : Parser τ Unit := fun ts => if condition then some ((), ts) else none

/-- Fails unless everything has been taken. -/
def atEnd : Parser τ Unit
  | [] => some ((), [])
  | _ :: _ => none

/-! ## Choice and repetition -/

/-- Reads one thing, or else another one from the same place. -/
def orElse (first second : Parser τ α) : Parser τ α := fun ts =>
  match first ts with
  | some result => some result
  | none => second ts

/-- Reads something, if it is there. -/
def optional (p : Parser τ α) : Parser τ (Option α) := fun ts =>
  match p ts with
  | some (a, rest) => some (some a, rest)
  | none => some (none, ts)

/-- Goes on with a value as long as a step gives a new one, for a bounded number of rounds. -/
def repeatWhile {m : Type → Type} [Monad m] (step : α → m (Option α)) : Nat → α → m α
  | 0, a => pure a
  | rounds + 1, a => do
    match ← step a with
    | none => return a
    | some b => repeatWhile step rounds b

/-- Items as long as a step gives one. -/
def many {m : Type → Type} [Monad m] (rounds : Nat) (item? : m (Option α)) : m (List α) := do
  let step (done : List α) : m (Option (List α)) := do
    return (← item?).map (fun a => a :: done)
  return (← repeatWhile step rounds []).reverse

/-! ## Laws -/

theorem satisfy_cons (p : τ → Bool) (t : τ) (rest : List τ) :
    satisfy p (t :: rest) = if p t then some (t, rest) else none :=
  rfl

theorem run_takeWhile {p : τ → Bool} {ts run rest : List τ}
    (h : takeWhile p ts = some (run, rest)) : run ++ rest = ts := by
  simp only [takeWhile, Option.some.injEq, Prod.mk.injEq] at h
  rw [← h.1, ← h.2, List.takeWhile_append_dropWhile]

theorem orElse_of_some {first : Parser τ α} (second : Parser τ α) {ts : List τ} {r : α × List τ}
    (h : first ts = some r) : orElse first second ts = some r := by
  simp [orElse, h]

theorem orElse_of_none {first : Parser τ α} (second : Parser τ α) {ts : List τ}
    (h : first ts = none) : orElse first second ts = second ts := by
  simp [orElse, h]

end Parser

end CodeAtlas
