/-
Royd.Core.Python — the pieces of Python the services lean on: what a
handler may raise, and `str.strip`.

An `HTTPException` carries the status and the detail the caller is sent.
Any other exception leaves the handler as a 500; the only one the modelled
code raises itself is the calendar's `ValueError`. Either way the session
is rolled back (`get_db`), so a raised `Exc` always means that nothing of
the transaction was committed.
-/
import Mathlib.Data.List.TakeWhile
import Mathlib.Tactic.ByContra

namespace Royd

/-- What a handler raises instead of returning. -/
inductive Exc where
  | http (status : Nat) (detail : String)
  | value (message : String)
  deriving DecidableEq, Repr

/-- A chain of calls returned, so its first call did and the rest went on
from there. -/
theorem bind_eq_ok {α β : Type} {x : Except Exc α} {f : α → Except Exc β} {r : β} :
    (x >>= f) = .ok r ↔ ∃ a, x = .ok a ∧ f a = .ok r := by
  cases x with
  | error e =>
    constructor
    · intro h
      cases h
    · rintro ⟨a, h, -⟩
      cases h
  | ok a =>
    constructor
    · intro h
      exact ⟨a, rfl, h⟩
    · rintro ⟨a', h, hf⟩
      cases h
      exact hf

theorem toOption_eq_some {ε α : Type} {x : Except ε α} {a : α} : x.toOption = some a ↔ x = .ok a := by
  cases x with
  | error e => simp [Except.toOption]
  | ok b => simp [Except.toOption]

/-- A check that raises under a condition passes exactly when it is false. -/
theorem raise_eq_ok {p : Prop} [Decidable p] {e : Exc} {u : Unit} :
    (if p then (.error e : Except Exc Unit) else .ok ()) = .ok u ↔ ¬ p := by
  split
  · simp_all
  · simp_all

/-! ## `str.strip` -/

/-- `str.isspace` for one character: the ASCII blanks and separators
together with the Unicode characters of bidirectional type `WS`, `B` or
`S` or of category `Zs`. -/
def isSpace (c : Char) : Bool :=
  let n := c.toNat
  (9 ≤ n && n ≤ 13) || (28 ≤ n && n ≤ 32) || n == 0x85 || n == 0xA0 || n == 0x1680
    || (0x2000 ≤ n && n ≤ 0x200A) || n == 0x2028 || n == 0x2029 || n == 0x202F
    || n == 0x205F || n == 0x3000

/-- `strip` on the characters of a text. -/
def stripChars (cs : List Char) : List Char :=
  (((cs.dropWhile isSpace).reverse).dropWhile isSpace).reverse

/-- `text.strip()`. -/
def strip (text : String) : String := String.ofList (stripChars text.toList)

/-- `not text.strip()`: nothing but whitespace. -/
def blank (text : String) : Bool := strip text == ""

theorem dropWhile_isSpace_eq_nil {cs : List Char} :
    cs.dropWhile isSpace = [] ↔ cs.all isSpace = true := by
  rw [List.dropWhile_eq_nil_iff, List.all_eq_true]

/-- Exactly the texts without a visible character are stripped to nothing. -/
theorem stripChars_eq_nil {cs : List Char} : stripChars cs = [] ↔ cs.all isSpace = true := by
  unfold stripChars
  rw [List.reverse_eq_nil_iff, dropWhile_isSpace_eq_nil, List.all_reverse]
  constructor
  · intro h
    rw [List.all_eq_true] at h ⊢
    intro c hc
    rw [← List.takeWhile_append_dropWhile (p := isSpace) (l := cs)] at hc
    rcases List.mem_append.mp hc with hc | hc
    · exact (List.all_eq_true.mp List.all_takeWhile) c hc
    · exact h c hc
  · intro h
    rw [dropWhile_isSpace_eq_nil.mpr h]
    rfl

theorem blank_iff {text : String} : blank text = true ↔ text.toList.all isSpace = true := by
  unfold blank strip
  rw [beq_iff_eq, ← stripChars_eq_nil]
  constructor
  · intro h
    simpa using congrArg String.toList h
  · intro h
    rw [h]

/-- The first character that survives `dropWhile isSpace` is visible. -/
theorem not_all_dropWhile {cs : List Char} (h : cs.all isSpace = false) :
    (cs.dropWhile isSpace).all isSpace = false := by
  induction cs with
  | nil => simp at h
  | cons c cs ih =>
    by_cases hc : isSpace c = true
    · rw [List.dropWhile_cons_of_pos hc]
      exact ih (by simpa [hc] using h)
    · rw [List.dropWhile_cons_of_neg hc]
      exact h

/-- Stripping does not make a visible text blank. -/
theorem blank_strip {text : String} : blank (strip text) = blank text := by
  rw [Bool.eq_iff_iff, blank_iff, blank_iff]
  unfold strip
  rw [String.toList_ofList]
  constructor
  · intro h
    by_contra hvis
    have h1 := not_all_dropWhile (Bool.eq_false_iff.mpr hvis)
    rw [← List.all_reverse] at h1
    have h2 := not_all_dropWhile h1
    rw [← List.all_reverse] at h2
    rw [stripChars, h2] at h
    cases h
  · intro h
    rw [stripChars_eq_nil.mpr h]
    rfl

end Royd
