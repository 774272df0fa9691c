/-
Royd.Lib.Numerals — decimal texts of a fixed width, and their order.

`padded width n` is the decimal text of `n` filled up with zeros from the
left. Reading it gives `n` back, so padding is injective at every width.
Texts of one length are ordered as their numbers are (`lt_iff_value_lt`,
`value_le_of_le`): the greatest text of a column of equally long numerals
is the greatest number in it. Of texts of different lengths the shorter is
compared with the leading digits of the longer (`padded_le_iff`), which is
why the width matters.
-/
import Mathlib.Data.String.Basic
import Mathlib.Data.Nat.Digits.Defs

namespace Numerals

/-- The number a decimal text stands for. -/
def value (cs : List Char) : Nat := Nat.ofDigitChars 10 cs 0

/-- The decimal text of `n`, filled up with zeros to the width. -/
def padded (width n : Nat) : List Char := (Nat.toDigits 10 n).leftpad width '0'

/-- Nothing but digits. -/
def Digits (cs : List Char) : Prop := ∀ c ∈ cs, c.isDigit = true

instance (cs : List Char) : Decidable (Digits cs) := List.decidableBAll _ cs

/-! ## Reading and printing -/

@[simp] theorem value_nil : value [] = 0 := rfl

theorem value_cons (c : Char) (cs : List Char) :
    value (c :: cs) = (c.toNat - 48) * 10 ^ cs.length + value cs := by
  show Nat.ofDigitChars 10 (c :: cs) 0 = _
  rw [Nat.ofDigitChars_cons, Nat.ofDigitChars_eq_ofDigitChars_zero, Nat.mul_comm]
  simp [value]

@[simp] theorem value_padded (width n : Nat) : value (padded width n) = n := by
  unfold value padded List.leftpad
  rw [Nat.ofDigitChars_append, Nat.ofDigitChars_replicate_zero]
  simp

/-- Two numbers are never printed alike. -/
theorem padded_injective (width : Nat) : Function.Injective (padded width) :=
  Function.LeftInverse.injective (value_padded width)

theorem value_append (cs ds : List Char) :
    value (cs ++ ds) = value cs * 10 ^ ds.length + value ds := by
  show Nat.ofDigitChars 10 (cs ++ ds) 0 = _
  rw [Nat.ofDigitChars_append, Nat.ofDigitChars_eq_ofDigitChars_zero, Nat.mul_comm]
  rfl

theorem digits_padded (width n : Nat) : Digits (padded width n) := by
  intro c hc
  rcases List.mem_append.mp hc with hzero | hdigit
  · rw [(List.mem_replicate.mp hzero).2]
    rfl
  · exact Nat.isDigit_of_mem_toDigits (by decide) (by decide) hdigit

theorem length_padded_eq {width n : Nat} (hwidth : 0 < width) (h : n < 10 ^ width) :
    (padded width n).length = width := by
  have hlen := (Nat.length_toDigits_le_iff (b := 10) (by decide) hwidth).mpr h
  unfold padded
  rw [List.length_leftpad]
  exact Nat.max_eq_left hlen

/-! ## Order -/

theorem digit_bounds {c : Char} (h : c.isDigit = true) : 48 ≤ c.toNat ∧ c.toNat ≤ 57 := by
  simpa [Char.isDigit, Char.le_def, UInt32.le_iff_toNat_le] using h

theorem value_lt {cs : List Char} (h : Digits cs) : value cs < 10 ^ cs.length := by
  induction cs with
  | nil => simp
  | cons c cs ih =>
    have hc := digit_bounds (h c List.mem_cons_self)
    have hcs := ih fun d hd => h d (List.mem_cons_of_mem _ hd)
    rw [value_cons, List.length_cons, Nat.pow_succ]
    have hhead : (c.toNat - 48) * 10 ^ cs.length ≤ 9 * 10 ^ cs.length :=
      Nat.mul_le_mul_right _ (by omega)
    omega

/-- Numerals of one length are ordered as their numbers are. -/
theorem lt_iff_value_lt {cs ds : List Char} (hcs : Digits cs) (hds : Digits ds)
    (hlen : cs.length = ds.length) : cs < ds ↔ value cs < value ds := by
  induction cs generalizing ds with
  | nil => simp [List.eq_nil_of_length_eq_zero hlen.symm]
  | cons c cs ih =>
    cases ds with
    | nil => cases hlen
    | cons d ds =>
      have htail : cs.length = ds.length := Nat.succ.inj hlen
      have hcs' : Digits cs := fun x hx => hcs x (List.mem_cons_of_mem _ hx)
      have hds' : Digits ds := fun x hx => hds x (List.mem_cons_of_mem _ hx)
      have hc := digit_bounds (hcs c List.mem_cons_self)
      have hd := digit_bounds (hds d List.mem_cons_self)
      have hrest := value_lt hcs'
      have hrest' := value_lt hds'
      rw [value_cons, value_cons, List.cons_lt_cons_iff, ih hcs' hds' htail]
      rw [htail] at hrest ⊢
      rcases lt_trichotomy c d with hlt | rfl | hgt
      · -- the first digit decides: the rest is less than one in its place
        have hnat : c.toNat < d.toNat := hlt
        have hplace : (c.toNat - 48 + 1) * 10 ^ ds.length ≤ (d.toNat - 48) * 10 ^ ds.length :=
          Nat.mul_le_mul_right _ (by omega)
        rw [Nat.succ_mul] at hplace
        exact iff_of_true (.inl hlt) (by omega)
      · simp
      · have hnat : d.toNat < c.toNat := hgt
        have hplace : (d.toNat - 48 + 1) * 10 ^ ds.length ≤ (c.toNat - 48) * 10 ^ ds.length :=
          Nat.mul_le_mul_right _ (by omega)
        rw [Nat.succ_mul] at hplace
        refine iff_of_false ?_ (by omega)
        rintro (hlt | ⟨rfl, -⟩)
        · exact absurd hlt (lt_asymm hgt)
        · exact lt_irrefl _ hgt

/-- The later of two numerals of one length has the greater number. -/
theorem value_le_of_le {cs ds : List Char} (hcs : Digits cs) (hds : Digits ds)
    (hlen : cs.length = ds.length) (h : cs ≤ ds) : value cs ≤ value ds := by
  by_contra hgt
  have hlt := (lt_iff_value_lt hds hcs hlen.symm).mpr (Nat.lt_of_not_le hgt)
  exact absurd hlt (not_lt_of_ge h)

/-! ## Order of texts of different lengths -/

/-- The first digits of a numeral stand for the number without its last ones. -/
theorem value_take {ds : List Char} (h : Digits ds) (k : Nat) :
    value (ds.take k) = value ds / 10 ^ (ds.length - k) := by
  have hrest : value (ds.drop k) < 10 ^ (ds.length - k) := by
    rw [← List.length_drop]
    exact value_lt fun c hc => h c (List.mem_of_mem_drop hc)
  have hsplit : value ds = value (ds.take k) * 10 ^ (ds.length - k) + value (ds.drop k) := by
    rw [← List.length_drop, ← value_append, List.take_append_drop]
  rw [hsplit, Nat.mul_comm, Nat.mul_add_div (by positivity), Nat.div_eq_of_lt hrest, Nat.add_zero]

/-- A text comes before one that is no longer exactly if its beginning of that
length does. -/
theorem take_lt_iff {cs ds : List Char} (h : cs.length ≤ ds.length) :
    ds.take cs.length < cs ↔ ds < cs := by
  induction cs generalizing ds with
  | nil => simp
  | cons c cs ih =>
    cases ds with
    | nil => cases h
    | cons d ds =>
      rw [List.length_cons, List.take_succ_cons, List.cons_lt_cons_iff, List.cons_lt_cons_iff,
        ih (Nat.le_of_succ_le_succ h)]

theorem length_padded (width n : Nat) :
    (padded width n).length = max width (Nat.toDigits 10 n).length :=
  List.length_leftpad

/-- A greater number is printed no shorter. -/
theorem length_padded_mono (width : Nat) {n m : Nat} (h : n ≤ m) :
    (padded width n).length ≤ (padded width m).length := by
  have hpos : 0 < (Nat.toDigits 10 m).length := Nat.length_toDigits_pos
  have hm : m < 10 ^ (Nat.toDigits 10 m).length :=
    (Nat.length_toDigits_le_iff (by decide) hpos).mp le_rfl
  have hn : (Nat.toDigits 10 n).length ≤ (Nat.toDigits 10 m).length :=
    (Nat.length_toDigits_le_iff (by decide) hpos).mpr (Nat.lt_of_le_of_lt h hm)
  rw [length_padded, length_padded]
  omega

/-- The number the first `k` digits of `n` stand for, printed at the width. -/
def leading (width k n : Nat) : Nat := n / 10 ^ ((padded width n).length - k)

/-- The text of `n` comes no later than that of a number printed as long or
longer exactly if `n` is at most the leading digits of that number. -/
theorem padded_le_iff {width n m : Nat} (h : (padded width n).length ≤ (padded width m).length) :
    padded width n ≤ padded width m ↔ n ≤ leading width (padded width n).length m := by
  have htake : Digits ((padded width m).take (padded width n).length) :=
    fun c hc => digits_padded width m c (List.mem_of_mem_take hc)
  have hlen : ((padded width m).take (padded width n).length).length = (padded width n).length := by
    rw [List.length_take, Nat.min_eq_left h]
  rw [← not_lt, ← take_lt_iff h, lt_iff_value_lt htake (digits_padded width n) hlen, not_lt,
    value_take (digits_padded width m), value_padded, value_padded, leading]

end Numerals
