/-
Royd.Lib.Streams — an append-only log and the readers that follow it.

A reader that was placed at `a` and has read on to `b` has read
`block log a b`. A log that grows leaves what was read alone
(`block_append`), and one more entry read is one more entry of the block
(`block_succ`).
-/
namespace Streams

universe u

variable {α : Type u} {log : List α} {a b : Nat}

/-- The entries at the places from `a` on and before `b`. -/
def block (log : List α) (a b : Nat) : List α := (log.take b).drop a

@[simp] theorem block_self (log : List α) (a : Nat) : block log a a = [] := by
  unfold block
  exact List.drop_eq_nil_of_le (List.length_take_le a log)

/-- One more entry was read. -/
theorem block_succ {x : α} (h : log[b]? = some x) (hab : a ≤ b) :
    block log a (b + 1) = block log a b ++ [x] := by
  obtain ⟨hlt, rfl⟩ := List.getElem?_eq_some_iff.mp h
  have hlen : (log.take b).length = b := List.length_take_of_le (Nat.le_of_lt hlt)
  unfold block
  rw [← List.take_append_getElem hlt, List.drop_append_of_le_length (by omega)]

/-- What is published later was not read yet. -/
theorem block_append (more : List α) (h : b ≤ log.length) :
    block (log ++ more) a b = block log a b := by
  unfold block
  rw [List.take_append_of_le_length h]

end Streams
