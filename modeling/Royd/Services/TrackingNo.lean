/-
Royd.Services.TrackingNo — `generate_tracking_no`: the tracking numbers of a
year, from a counter in Redis that is seeded from the database.

The call is a program of single steps: `INCR`, and where that gave 1 the
`MAX` query, `SET` and `EXPIRE`. All calls here are of one year, so there is
one key. The query raises while the database does not answer.

A tracking number is a text. `LIKE` and `MAX` compare texts and the number in
one is read with `int`; on a column of five digit numbers that is the same as
comparing the numbers (`highest_number`).
-/
import Royd.Core.Python
import Royd.Lib.Numerals
import Royd.Lib.Programs

namespace Royd.Tracking

open Programs Numerals

/-! ## The texts -/

/-- `f"REQ-{year}-"`. -/
def stem (year : Nat) : List Char := "REQ-".toList ++ Nat.toDigits 10 year ++ ['-']

/-- `f"REQ-{year}-{seq:05d}"`. -/
def trackingNo (year seq : Nat) : String := String.ofList (stem year ++ padded 5 seq)

/-- `tracking_no LIKE f"REQ-{year}-%"`. -/
def like (year : Nat) (no : String) : Bool := (stem year).isPrefixOf no.toList

/-- `text.rsplit("-", 1)[1]`, `none` where that is an `IndexError`. -/
def afterLastDash (cs : List Char) : Option (List Char) :=
  if '-' ∈ cs then some (cs.reverse.takeWhile (· != '-')).reverse else none

/-- `int(text)` of a text without a minus sign, `none` where that is a
`ValueError`: blanks around it, a plus sign and single underscores between
digits are let through. -/
def int? (cs : List Char) : Option Nat :=
  let cs := stripChars cs
  let cs := if cs.head? = some '+' then cs.tail else cs
  let groups := cs.splitOn '_'
  if groups.all fun g => !g.isEmpty && g.all Char.isDigit then some (value groups.flatten)
  else none

/-- The number in a tracking number. -/
def number? (no : String) : Option Nat := (afterLastDash no.toList).bind int?

/-- `SELECT max(tracking_no) … WHERE tracking_no LIKE …`. -/
def highest (year : Nat) (committed : List String) : Option String :=
  (committed.filter (like year)).max?

/-- The numbers of the year. -/
def numbers (year : Nat) (committed : List String) : List Nat :=
  (committed.filter (like year)).filterMap number?

/-! ## The call -/

/-- The steps of a call. -/
inductive Command where
  | incr
  | maxTrackingNo (year : Nat)
  | set (value : Nat)
  | expire (seconds : Nat)
  deriving DecidableEq, Repr

/-- The query failed. -/
inductive Failure where
  | database
  deriving DecidableEq, Repr

/-- What each step answers. -/
abbrev Command.Reply : Command → Type
  | .incr => Nat
  | .maxTrackingNo _ => Except Failure (Option String)
  | .set _ => Unit
  | .expire _ => Unit

abbrev Call := Prog Command Command.Reply Failure

def send (c : Command) : Call c.Reply := Prog.issue c

def incr : Call Nat := send .incr

def set (value : Nat) : Call Unit := send (.set value)

def expire (seconds : Nat) : Call Unit := send (.expire seconds)

def raiseOr {α : Type} : Except Failure α → Call α
  | .ok a => .pure a
  | .error e => .raise e

def maxTrackingNo (year : Nat) : Call (Option String) := do
  let answer ← send (.maxTrackingNo year)
  raiseOr answer

/-- What a call that found the counter at 1 does with the answer. A number it
cannot read is logged, and the counter stays. -/
def reseed (highest : Option String) : Call Nat :=
  match highest.filter (· != "") with
  | none => pure 1
  | some highest =>
    match number? highest with
    | none => pure 1
    | some recovered => do
      set (recovered + 1)
      pure (recovered + 1)

/-- `generate_tracking_no`. -/
def generateTrackingNo (year : Nat) : Call String := do
  let seq ← incr
  if seq = 1 then
    let highest ← maxTrackingNo year
    let seq ← reseed highest
    expire (60 * 60 * 24 * 366)
    pure (trackingNo year seq)
  else
    pure (trackingNo year seq)

/-! ## The counter and the column -/

/-- A value in Redis with the time it has left, if it expires. -/
structure Counter where
  value : Nat
  ttl : Option Nat := none
  deriving DecidableEq, Repr

/-- The counter of the year, the column of tracking numbers, and whether the
database answers. -/
structure Registry where
  counter : Option Counter
  committed : List String
  up : Bool := true
  deriving DecidableEq, Repr

/-- The value the next `INCR` goes on from. -/
def Registry.seq (s : Registry) : Nat := (s.counter.map (·.value)).getD 0

/-- What a step does. A counter that is gone starts at 1; `SET` takes the time
to live off. -/
def exec : (c : Command) → Registry → c.Reply × Registry
  | .incr, s =>
    (s.seq + 1, { s with counter := some { value := s.seq + 1, ttl := s.counter.bind (·.ttl) } })
  | .maxTrackingNo year, s =>
    (if s.up then .ok (highest year s.committed) else .error .database, s)
  | .set value, s => ((), { s with counter := some { value } })
  | .expire seconds, s =>
    ((), { s with counter := s.counter.map fun c => { c with ttl := some seconds } })

/-- The unique index on `tracking_no`: a number that is there is refused. -/
def insert (no : String) (s : Registry) : Registry :=
  if no ∈ s.committed then s else { s with committed := s.committed ++ [no] }

section Exec

variable (s : Registry)

@[simp] theorem exec_incr_seq : (exec .incr s).2.seq = s.seq + 1 := rfl

@[simp] theorem exec_incr_committed : (exec .incr s).2.committed = s.committed := rfl

@[simp] theorem exec_set_seq (value : Nat) : (exec (.set value) s).2.seq = value := rfl

@[simp] theorem exec_set_committed (value : Nat) :
    (exec (.set value) s).2.committed = s.committed := rfl

@[simp] theorem exec_expire_seq (seconds : Nat) : (exec (.expire seconds) s).2.seq = s.seq := by
  cases hcounter : s.counter with
  | none => simp [exec, Registry.seq, hcounter]
  | some c => simp [exec, Registry.seq, hcounter]

@[simp] theorem exec_expire_committed (seconds : Nat) :
    (exec (.expire seconds) s).2.committed = s.committed := rfl

end Exec

/-! ## Five digits -/

section Texts

variable {year : Nat}

/-- What follows the stem. -/
def digitsOf (year : Nat) (no : String) : List Char := no.toList.drop (stem year).length

/-- The numbers of the year have five digits each. -/
def FiveDigits (year : Nat) (committed : List String) : Prop :=
  ∀ no ∈ committed, like year no = true →
    (digitsOf year no).length = 5 ∧ Digits (digitsOf year no)

instance (year : Nat) (committed : List String) : Decidable (FiveDigits year committed) :=
  inferInstanceAs (Decidable (∀ no ∈ committed, _ → _ ∧ _))

theorem like_iff {no : String} :
    like year no = true ↔ no.toList = stem year ++ digitsOf year no := by
  unfold like digitsOf
  rw [List.isPrefixOf_iff_prefix]
  constructor
  · rintro ⟨rest, hrest⟩
    rw [← hrest, List.drop_left]
  · intro h
    exact ⟨_, h.symm⟩

@[simp] theorem toList_trackingNo (seq : Nat) :
    (trackingNo year seq).toList = stem year ++ padded 5 seq := String.toList_ofList

@[simp] theorem like_trackingNo (seq : Nat) : like year (trackingNo year seq) = true := by
  unfold like
  rw [toList_trackingNo, List.isPrefixOf_iff_prefix]
  exact List.prefix_append _ _

theorem afterLastDash_stem {ds : List Char} (h : '-' ∉ ds) :
    afterLastDash (stem year ++ ds) = some ds := by
  have hdash : '-' ∈ stem year ++ ds := by simp [stem]
  have hall : ∀ c ∈ ds.reverse, (c != '-') = true := by
    intro c hc
    rw [bne_iff_ne]
    rintro rfl
    exact h (List.mem_reverse.mp hc)
  rw [afterLastDash, if_pos hdash]
  unfold stem
  rw [List.append_assoc, List.reverse_append, List.reverse_append, List.reverse_singleton,
    List.append_assoc, List.singleton_append, List.takeWhile_append_of_pos hall,
    List.takeWhile_cons_of_neg (by simp), List.append_nil, List.reverse_reverse]

theorem not_isSpace_of_isDigit {c : Char} (h : c.isDigit = true) : isSpace c = false := by
  have hc := digit_bounds h
  simp only [isSpace, Bool.or_eq_false_iff, Bool.and_eq_false_iff, decide_eq_false_iff_not,
    beq_eq_false_iff_ne]
  omega

theorem stripChars_of_digits {ds : List Char} (h : Digits ds) : stripChars ds = ds := by
  have hdrop : ∀ cs : List Char, Digits cs → cs.dropWhile isSpace = cs := by
    intro cs hcs
    cases cs with
    | nil => rfl
    | cons c cs =>
      rw [List.dropWhile_cons_of_neg]
      simp [not_isSpace_of_isDigit (hcs c List.mem_cons_self)]
  have hrev : Digits ds.reverse := fun c hc => h c (List.mem_reverse.mp hc)
  unfold stripChars
  rw [hdrop ds h, hdrop _ hrev, List.reverse_reverse]

/-- `int` reads a text of digits as the number it stands for. -/
theorem int?_of_digits {ds : List Char} (h : Digits ds) (hne : ds ≠ []) :
    int? ds = some (value ds) := by
  have hmem : ∀ c : Char, c.isDigit = false → c ∉ ds := by
    intro c hc hin
    rw [h c hin] at hc
    cases hc
  have hplus : ds.head? ≠ some '+' := fun hhead =>
    hmem '+' rfl (List.mem_of_mem_head? (Option.mem_def.mpr hhead))
  have hsplit : ds.splitOn '_' = [ds] := by
    rw [List.splitOn_eq_splitOnP]
    apply List.splitOnP_eq_singleton
    intro c hc
    rw [beq_eq_false_iff_ne]
    rintro rfl
    exact hmem '_' rfl hc
  have hdigits : ds.all Char.isDigit = true := List.all_eq_true.mpr h
  simp [int?, stripChars_of_digits h, hplus, hsplit, hne, hdigits]

theorem number?_stem {no : String} {ds : List Char} (h : Digits ds) (hne : ds ≠ [])
    (hno : no.toList = stem year ++ ds) : number? no = some (value ds) := by
  have hdash : '-' ∉ ds := fun hin => by
    cases h '-' hin
  unfold number?
  rw [hno, afterLastDash_stem hdash]
  exact int?_of_digits h hne

@[simp] theorem number?_trackingNo (seq : Nat) : number? (trackingNo year seq) = some seq := by
  have hne : padded 5 seq ≠ [] := by
    intro hnil
    have hlen := congrArg List.length hnil
    rw [padded, List.length_leftpad, List.length_nil] at hlen
    omega
  rw [number?_stem (digits_padded 5 seq) hne (toList_trackingNo seq), value_padded]

/-- Two numbers of a year are never written alike. -/
theorem trackingNo_injective (year : Nat) : Function.Injective (trackingNo year) := by
  intro a b h
  have htexts := congrArg String.toList h
  rw [toList_trackingNo, toList_trackingNo] at htexts
  exact padded_injective 5 (List.append_cancel_left htexts)

theorem mem_numbers {committed : List String} {m : Nat} :
    m ∈ numbers year committed ↔ ∃ no ∈ committed, like year no = true ∧ number? no = some m := by
  simp [numbers, and_assoc]

/-- A number of the year is committed. -/
theorem mem_numbers_insert {s : Registry} {seq m : Nat} :
    m ∈ numbers year (insert (trackingNo year seq) s).committed ↔
      m ∈ numbers year s.committed ∨ m = seq := by
  have hnumber : number? (trackingNo year seq) = some m ↔ m = seq := by
    rw [number?_trackingNo, Option.some.injEq]
    exact eq_comm
  rw [mem_numbers, mem_numbers, insert]
  split
  · rename_i hin
    constructor
    · exact .inl
    · rintro (h | rfl)
      · exact h
      · exact ⟨_, hin, like_trackingNo m, number?_trackingNo m⟩
  · simp only [List.mem_append, List.mem_singleton, or_and_right, exists_or, exists_eq_left,
      like_trackingNo, true_and, hnumber]

/-- A number whose text is in the column is a number of the year. -/
theorem mem_numbers_of_mem {committed : List String} {seq : Nat}
    (h : trackingNo year seq ∈ committed) : seq ∈ numbers year committed :=
  mem_numbers.mpr ⟨_, h, like_trackingNo seq, number?_trackingNo seq⟩

theorem FiveDigits.number? {committed : List String} (h : FiveDigits year committed) {no : String}
    (hin : no ∈ committed) (hlike : like year no = true) :
    number? no = some (value (digitsOf year no)) := by
  obtain ⟨hlen, hdigits⟩ := h no hin hlike
  apply number?_stem hdigits _ (like_iff.mp hlike)
  intro hnil
  rw [hnil] at hlen
  cases hlen

/-- A number below 100000 has five digits. -/
theorem FiveDigits.insert {s : Registry} (h : FiveDigits year s.committed) {seq : Nat}
    (hseq : seq < 10 ^ 5) : FiveDigits year (insert (trackingNo year seq) s).committed := by
  have hdigits : digitsOf year (trackingNo year seq) = padded 5 seq := by
    rw [digitsOf, toList_trackingNo, List.drop_left]
  unfold Tracking.insert
  split
  · exact h
  · intro no hin hlike
    rcases List.mem_append.mp hin with hin | hin
    · exact h no hin hlike
    · rw [List.mem_singleton.mp hin, hdigits]
      exact ⟨length_padded_eq (by decide) hseq, digits_padded 5 seq⟩

/-- On five digits the greatest text has the greatest number. -/
theorem highest_number {committed : List String} (hfive : FiveDigits year committed) {no : String}
    (h : highest year committed = some no) :
    ∃ m, number? no = some m ∧ m ∈ numbers year committed ∧
      ∀ m' ∈ numbers year committed, m' ≤ m := by
  obtain ⟨hno, hgreatest⟩ := List.max?_eq_some_iff.mp h
  obtain ⟨hin, hlike⟩ := List.mem_filter.mp hno
  refine ⟨_, hfive.number? hin hlike, mem_numbers.mpr ⟨no, hin, hlike, hfive.number? hin hlike⟩, ?_⟩
  intro m' hm'
  obtain ⟨no', hin', hlike', hnumber⟩ := mem_numbers.mp hm'
  rw [hfive.number? hin' hlike', Option.some.injEq] at hnumber
  rw [← hnumber]
  have hle : no' ≤ no := hgreatest no' (List.mem_filter.mpr ⟨hin', hlike'⟩)
  obtain ⟨hlen, hdigits⟩ := hfive no hin hlike
  obtain ⟨hlen', hdigits'⟩ := hfive no' hin' hlike'
  apply value_le_of_le hdigits' hdigits (hlen'.trans hlen.symm)
  -- the texts agree on the stem, so their order is that of the digits
  by_contra hgt
  apply absurd hle
  rw [String.not_le, String.lt_iff_toList_lt, like_iff.mp hlike, like_iff.mp hlike']
  exact List.append_left_lt (not_le.mp hgt)

/-- What a call reads from the highest number. -/
def recovered (highest : Option String) : Option Nat :=
  (highest.filter (· != "")).bind Tracking.number?

theorem reseed_eq (highest : Option String) : reseed highest =
    match recovered highest with
    | none => pure 1
    | some seq => set (seq + 1) >>= fun _ => pure (seq + 1) := by
  unfold reseed recovered
  cases highest.filter (· != "") with
  | none => rfl
  | some no =>
    cases hnumber : Tracking.number? no with
    | none => simp [hnumber]
    | some seq => simp [hnumber]

/-- A column without a number of the year, and no other, gives nothing. -/
theorem recovered_eq_none {committed : List String} (hfive : FiveDigits year committed)
    (h : recovered (highest year committed) = none) : numbers year committed = [] := by
  cases hhighest : highest year committed with
  | none =>
    have hnil := List.max?_eq_none_iff.mp hhighest
    rw [numbers, hnil, List.filterMap_nil]
  | some no =>
    obtain ⟨m, hnumber, -, -⟩ := highest_number hfive hhighest
    have hne : no ≠ "" := by
      rintro rfl
      cases hnumber
    simp [recovered, hhighest, hne, hnumber] at h

/-- What is read is the highest number of the year. -/
theorem recovered_eq_some {committed : List String} (hfive : FiveDigits year committed) {m : Nat}
    (h : recovered (highest year committed) = some m) :
    m ∈ numbers year committed ∧ ∀ m' ∈ numbers year committed, m' ≤ m := by
  unfold recovered at h
  obtain ⟨no, hno, hnumber⟩ := Option.bind_eq_some_iff.mp h
  obtain ⟨m', hm', hin, hgreatest⟩ := highest_number hfive (Option.filter_eq_some_iff.mp hno).1
  rw [hnumber, Option.some.injEq] at hm'
  rw [hm']
  exact ⟨hin, hgreatest⟩

end Texts

end Royd.Tracking
