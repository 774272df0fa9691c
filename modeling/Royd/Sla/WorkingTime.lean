/-
Royd.Sla.WorkingTime — working time as a measure of local days, and the two
calendar functions as inverses of each other.

`workingTimeBetween_eq_sum` says that what `working_time_between` walks over
is the sum, over the working days, of what each contributes.
`addWorkingLoop_returns_iff` says when the bounded loop of `add_working_time`
returns at all. With the adjunction of `Sla.CalendarTheorems` these make up
`add_inverts_measure` and `working_time_composes`.
-/
import Royd.Sla.CalendarTheorems

namespace Royd.Sla

open IntervalCount

variable (cal : SlaCalendar)

/-! ## Local days -/

/-- The length of the part of `[start, stop)` that lies on the day. -/
def overlap (day start stop : Int) : Int :=
  max 0 (min (localMidnight cal (day + 1)) stop - max (localMidnight cal day) start)

/-- What a day contributes: its overlap, if it is a working day. -/
def share (start stop day : Int) : Int :=
  if isWorkingDay cal day then overlap cal day start stop else 0

/-- A day is what lies between its midnight and the next. -/
theorem localDate_eq_iff {x day : Int} :
    localDate cal x = day ↔ localMidnight cal day ≤ x ∧ x < localMidnight cal (day + 1) := by
  unfold localDate localMidnight oneDay
  omega

theorem localMidnight_mono {a b : Int} (h : a ≤ b) : localMidnight cal a ≤ localMidnight cal b := by
  unfold localMidnight oneDay
  omega

/-- The working instants of a stretch that lie on one day. -/
theorem card_day (start stop day : Int) :
    ((((Finset.Ico start stop).filter (works cal)).filter fun x => localDate cal x = day).card : ℤ) =
      share cal start stop day := by
  unfold share
  split
  · rename_i hw
    have hday : ((Finset.Ico start stop).filter (works cal)).filter (fun x => localDate cal x = day) =
        Finset.Ico (max (localMidnight cal day) start) (min (localMidnight cal (day + 1)) stop) := by
      ext x
      simp only [Finset.mem_filter, Finset.mem_Ico, localDate_eq_iff, works]
      constructor
      · omega
      · intro hx
        have hdate : localDate cal x = day := (localDate_eq_iff cal).mpr (by omega)
        rw [hdate]
        exact ⟨⟨by omega, hw⟩, by omega⟩
    rw [hday, Int.card_Ico, Int.toNat_eq_max, max_comm]
    rfl
  · rename_i hw
    rw [Nat.cast_eq_zero, Finset.card_eq_zero, Finset.filter_eq_empty_iff]
    intro x hx hdate
    refine hw ?_
    rw [← hdate]
    exact (Finset.mem_filter.mp hx).2

/-- Working time is the sum of what the days contribute, over any days that
are all those the stretch touches, and possibly more. -/
theorem workingTimeBetween_eq_sum (start stop : Int) (days : Finset Int)
    (hdays : ∀ x, start ≤ x → x < stop → localDate cal x ∈ days) :
    workingTimeBetween cal start stop = ∑ day ∈ days, share cal start stop day := by
  have hmaps : ∀ x ∈ (Finset.Ico start stop).filter (works cal), localDate cal x ∈ days := by
    intro x hx
    obtain ⟨hx1, hx2⟩ := Finset.mem_Ico.mp (Finset.mem_filter.mp hx).1
    exact hdays x hx1 hx2
  rw [workingTimeBetween_eq, count, Finset.card_eq_sum_card_fiberwise hmaps, Nat.cast_sum]
  exact Finset.sum_congr rfl fun day _ => card_day cal start stop day

/-- A day away from the stretch contributes nothing. -/
theorem share_eq_zero {start stop day : Int}
    (h : day < localDate cal start ∨ localDate cal stop < day) : share cal start stop day = 0 := by
  have hoverlap : overlap cal day start stop = 0 := by
    unfold overlap localMidnight
    unfold localDate at h
    unfold oneDay at *
    omega
  simp [share, hoverlap]

theorem support_share (start stop : Int) : Function.support (share cal start stop) ⊆
    (Finset.Icc (localDate cal start) (localDate cal stop) : Set Int) := by
  intro day hday
  by_contra hout
  rw [Finset.coe_Icc, Set.mem_Icc, not_and_or, not_le, not_le] at hout
  exact hday (share_eq_zero cal hout)

/-- The days that contribute anything are finitely many. -/
theorem finite_support_share (start stop : Int) : (Function.support (share cal start stop)).Finite :=
  (Finset.finite_toSet _).subset (support_share cal start stop)

theorem localDate_mono {a b : Int} (h : a ≤ b) : localDate cal a ≤ localDate cal b := by
  unfold localDate oneDay
  omega

/-- The sum over all days there are. -/
theorem workingTimeBetween_eq_finsum (start stop : Int) :
    workingTimeBetween cal start stop = ∑ᶠ day, share cal start stop day := by
  rw [finsum_eq_sum_of_support_subset _ (support_share cal start stop)]
  apply workingTimeBetween_eq_sum
  intro x h1 h2
  exact Finset.mem_Icc.mpr ⟨localDate_mono cal h1, localDate_mono cal h2.le⟩

theorem workingTimeBetween_add {start middle stop : Int} (h1 : start ≤ middle) (h2 : middle ≤ stop) :
    workingTimeBetween cal start stop =
      workingTimeBetween cal start middle + workingTimeBetween cal middle stop := by
  rw [workingTimeBetween_eq, workingTimeBetween_eq, workingTimeBetween_eq]
  exact (count_add (works cal) h1 h2).symm

/-! ## The loop of `working_time_between` ends -/

/-- One turn of the loop, on its cursor and total. -/
def workingTimeTurn (stop : Int) (state : Int × Int) : Int × Int :=
  let dayEnd := min (localMidnightAfter cal state.1) stop
  (dayEnd, if isWorkingDay cal (localDate cal state.1) then state.2 + (dayEnd - state.1) else state.2)

/-- The loop's condition holds before each of finitely many turns and fails
after the last, in this state. -/
def EndsIn (stop : Int) (state final : Int × Int) : Prop :=
  ∃ n : Nat, (∀ k < n, ((workingTimeTurn cal stop)^[k] state).1 < stop) ∧
    (workingTimeTurn cal stop)^[n] state = final ∧ stop ≤ final.1

variable {cal} in
theorem EndsIn.turn {stop : Int} {state state' final : Int × Int}
    (h : EndsIn cal stop state' final) (hlt : state.1 < stop)
    (hturn : workingTimeTurn cal stop state = state') : EndsIn cal stop state final := by
  obtain ⟨n, hbefore, hfinal, hstop⟩ := h
  refine ⟨n + 1, ?_, ?_, hstop⟩
  · intro k hk
    cases k with
    | zero => exact hlt
    | succ k =>
      rw [Function.iterate_succ_apply, hturn]
      exact hbefore k (by omega)
  · rw [Function.iterate_succ_apply, hturn]
    exact hfinal

/-- From any cursor the loop ends, and what its turns have added up is what it
returns. -/
theorem workingTimeLoop_ends (stop cursor total : Int) :
    EndsIn cal stop (cursor, total) (max cursor stop, workingTimeLoop cal stop cursor total) := by
  fun_induction workingTimeLoop cal stop cursor total with
  | case1 cursor total h dayEnd hw ih =>
    have hle : max dayEnd stop = max cursor stop := by omega
    rw [hle] at ih
    apply ih.turn h
    simp [workingTimeTurn, hw, dayEnd]
  | case2 cursor total h dayEnd hw ih =>
    have hle : max dayEnd stop = max cursor stop := by omega
    rw [hle] at ih
    apply ih.turn h
    simp [workingTimeTurn, hw, dayEnd]
  | case3 cursor total h =>
    exact ⟨0, fun i hi => (Nat.not_lt_zero i hi).elim, by simp; omega, by simp⟩

/-! ## When `add_working_time` returns -/

/-- The loop returns if the days it may look at have any working time, and at
least as much as remains. -/
theorem addWorkingLoop_returns_iff {days : Nat} {cursor remaining : Int} (h : 0 ≤ remaining) :
    (∃ r, addWorkingLoop cal days cursor remaining = .ok r) ↔
      let time := count (works cal) cursor (localMidnight cal (localDate cal cursor + days))
      0 < time ∧ remaining ≤ time := by
  induction days generalizing cursor remaining with
  | zero =>
    have hnone : localMidnight cal (localDate cal cursor) ≤ cursor := by
      unfold localMidnight localDate oneDay
      omega
    simp [addWorkingLoop, count_of_le _ hnone]
  | succ days ih =>
    have hlt := lt_localMidnightAfter cal cursor
    have hnext : localDate cal (localMidnightAfter cal cursor) = localDate cal cursor + 1 := by
      unfold localMidnightAfter localMidnight localDate oneDay
      omega
    have hend : localMidnight cal (localDate cal cursor + (days + 1 : Nat)) =
        localMidnight cal (localDate cal (localMidnightAfter cal cursor) + days) := by
      rw [hnext, Nat.cast_succ, add_assoc, add_comm 1]
    have hmid : localMidnightAfter cal cursor ≤
        localMidnight cal (localDate cal (localMidnightAfter cal cursor) + days) := by
      rw [hnext]
      exact localMidnight_mono cal (by omega)
    have hadd := count_add (works cal) hlt.le hmid
    have hrest := count_nonneg (works cal) (localMidnightAfter cal cursor)
      (localMidnight cal (localDate cal (localMidnightAfter cal cursor) + days))
    rw [hend, ← hadd]
    by_cases hw : isWorkingDay cal (localDate cal cursor) = true
    · have hday := count_working_day cal hlt.le le_rfl hw
      simp only [addWorkingLoop, hw, if_true]
      split
      · exact iff_of_true ⟨_, rfl⟩ (by omega)
      · rw [ih (by omega)]
        omega
    · have hoff := count_day_off cal (le_refl (localMidnightAfter cal cursor))
        (Bool.eq_false_iff.mpr hw)
      simp only [addWorkingLoop, hw]
      rw [hoff, zero_add]
      exact ih h

/-! ## Adding and measuring -/

/-- The working time of the 3660 days from that of `start` on, counted from
`start`. -/
def windowTime (start : Int) : Int :=
  ∑ i ∈ Finset.range 3660,
    share cal start (localMidnight cal (localDate cal start + 3660)) (localDate cal start + i)

theorem windowTime_eq (start : Int) : windowTime cal start =
    count (works cal) start (localMidnight cal (localDate cal start + 3660)) := by
  have hinj : Function.Injective fun i : Nat => localDate cal start + (i : Int) := by
    intro i j hij
    exact Nat.cast_injective (add_left_cancel hij)
  rw [← workingTimeBetween_eq,
    workingTimeBetween_eq_sum cal _ _ ((Finset.range 3660).map ⟨_, hinj⟩), Finset.sum_map]
  · rfl
  · intro x h1 h2
    have hfirst := localDate_mono cal h1
    have hlast : localDate cal x < localDate cal start + 3660 := by
      by_contra hout
      have hmono := localMidnight_mono cal (not_lt.mp hout)
      have hx := ((localDate_eq_iff cal (x := x)).mp rfl).1
      omega
    rw [Finset.mem_map]
    refine ⟨(localDate cal x - localDate cal start).toNat, ?_, ?_⟩
    · rw [Finset.mem_range]
      omega
    · show localDate cal start + ((localDate cal x - localDate cal start).toNat : Int) = _
      omega

/-- `add_working_time` returns exactly if the window has any working time, and
at least the duration. -/
theorem addWorkingTime_returns_iff {start duration : Int} (h : 0 ≤ duration) :
    (∃ r, addWorkingTime cal start duration = .ok r) ↔
      0 < windowTime cal start ∧ duration ≤ windowTime cal start := by
  rw [windowTime_eq]
  exact addWorkingLoop_returns_iff cal h

theorem raises_iff {start duration : Int} : (∃ e, addWorkingTime cal start duration = .error e) ↔
    ¬ ∃ r, addWorkingTime cal start duration = .ok r := by
  cases addWorkingTime cal start duration with
  | error e => simp
  | ok r => simp

/-- For every start, positive duration and calendar: what `add_working_time`
returns is the least instant by which the duration has been worked, measured
with `working_time_between`; and it raises exactly if the window has less. -/
theorem add_inverts_measure (start duration : Int) (hpos : 0 < duration) :
    (∀ r, addWorkingTime cal start duration = .ok r →
      IsLeast {t | start ≤ t ∧ duration ≤ workingTimeBetween cal start t} r ∧
        workingTimeBetween cal start r = duration ∧
        ∀ t, start ≤ t → (r ≤ t ↔ duration ≤ workingTimeBetween cal start t)) ∧
      ((∃ e, addWorkingTime cal start duration = .error e) ↔ windowTime cal start < duration) := by
  constructor
  · intro r hr
    have hreach := addWorkingTime_reach cal hpos hr
    have hcount := hreach.count_eq hpos
    simp only [workingTimeBetween_eq]
    refine ⟨⟨⟨hreach.1, hcount.ge⟩, ?_⟩, hcount, hreach.2⟩
    rintro t ⟨hstart, ht⟩
    exact (hreach.2 t hstart).mpr ht
  · rw [raises_iff, addWorkingTime_returns_iff cal hpos.le]
    omega

/-- A day's work from the first instant of 1970 on: New Year's Day is off, and
the second of January begins at 19:00 UTC. -/
theorem add_inverts_measure_newYear :
    IsLeast {t | 0 ≤ t ∧ hours 24 ≤ workingTimeBetween .default 0 t} (hours 43) ∧
      workingTimeBetween .default 0 (hours 43) = hours 24 ∧
      ∀ t, 0 ≤ t → (hours 43 ≤ t ↔ hours 24 ≤ workingTimeBetween .default 0 t) :=
  (add_inverts_measure .default 0 (hours 24) (by decide)).1 (hours 43) (by decide)

/-! ## Composition -/

/-- For no duration at all `add_working_time` returns an instant until which
nothing is worked. -/
theorem addWorkingLoop_zero {days : Nat} {cursor r : Int}
    (h : addWorkingLoop cal days cursor 0 = .ok r) :
    cursor ≤ r ∧ count (works cal) cursor r = 0 := by
  induction days generalizing cursor with
  | zero => cases h
  | succ days ih =>
    have hlt := lt_localMidnightAfter cal cursor
    by_cases hw : isWorkingDay cal (localDate cal cursor) = true
    · rw [addWorkingLoop, if_pos hw, if_pos (by omega), add_zero] at h
      cases h
      exact ⟨le_rfl, count_self _ _⟩
    · rw [addWorkingLoop, if_neg hw] at h
      obtain ⟨hle, hnone⟩ := ih h
      have hoff := count_day_off cal (le_refl (localMidnightAfter cal cursor))
        (Bool.eq_false_iff.mpr hw)
      have hadd := count_add (works cal) hlt.le hle
      exact ⟨hlt.le.trans hle, by omega⟩

/-- By what it returns, the duration has been worked exactly. -/
theorem addWorkingTime_count {start duration r : Int} (h : 0 ≤ duration)
    (hr : addWorkingTime cal start duration = .ok r) :
    start ≤ r ∧ count (works cal) start r = duration := by
  rcases h.eq_or_lt with rfl | hpos
  · exact addWorkingLoop_zero cal hr
  · have hreach := addWorkingTime_reach cal hpos hr
    exact ⟨hreach.1, hreach.count_eq hpos⟩

/-- Two durations one after the other reach what their sum reaches. -/
theorem reach_of_two {start middle r d₁ d₂ : Int} (h₁ : 0 ≤ d₁) (h₂ : 0 < d₂)
    (hfirst : addWorkingTime cal start d₁ = .ok middle)
    (hsecond : addWorkingTime cal middle d₂ = .ok r) :
    Reach (works cal) start (d₁ + d₂) r := by
  have hrest := addWorkingTime_reach cal h₂ hsecond
  obtain ⟨hle, hcount⟩ := addWorkingTime_count cal h₁ hfirst
  rcases h₁.eq_or_lt with rfl | hpos
  · rw [zero_add]
    exact hrest.extend hle hcount h₂
  · exact (addWorkingTime_reach cal hpos hfirst).trans hrest h₂ hcount

/-- Where the sum returns, the two calls do. -/
theorem returns_of_sum {start r d₁ d₂ : Int} (h₁ : 0 ≤ d₁) (h₂ : 0 < d₂)
    (hsum : addWorkingTime cal start (d₁ + d₂) = .ok r) :
    ∃ middle, addWorkingTime cal start d₁ = .ok middle ∧ addWorkingTime cal middle d₂ = .ok r := by
  obtain ⟨hpos, hle⟩ := (addWorkingTime_returns_iff cal (by omega)).mp ⟨r, hsum⟩
  obtain ⟨middle, hfirst⟩ := (addWorkingTime_returns_iff cal h₁).mpr ⟨hpos, by omega⟩
  obtain ⟨hstart, hcount⟩ := addWorkingTime_count cal h₁ hfirst
  rw [windowTime_eq] at hle
  have hmiddle : middle ≤ localMidnight cal (localDate cal start + 3660) := by
    by_contra hout
    have hmono := count_mono_right (works cal) start (not_le.mp hout).le
    omega
  have hadd := count_add (works cal) hstart hmiddle
  -- The window of the second call ends no earlier than that of the first.
  have hlater := count_mono_right (works cal) middle
    (localMidnight_mono cal (Int.add_le_add_right (localDate_mono cal hstart) 3660))
  have hwindow : d₂ ≤ windowTime cal middle := by
    rw [windowTime_eq]
    omega
  obtain ⟨r', hsecond⟩ := (addWorkingTime_returns_iff cal h₂.le).mpr ⟨by omega, hwindow⟩
  have hreach := reach_of_two cal h₁ h₂ hfirst hsecond
  rw [(addWorkingTime_reach cal (by omega) hsum).unique hreach]
  exact ⟨middle, hfirst, hsecond⟩

/-- Working time is a measure, and deadlines compose. -/
theorem working_time_composes :
    (∀ start middle stop, start ≤ middle → middle ≤ stop →
      workingTimeBetween cal start stop = ∑ᶠ day, share cal start stop day ∧
        (Function.support (share cal start stop)).Finite ∧
        workingTimeBetween cal start stop =
          workingTimeBetween cal start middle + workingTimeBetween cal middle stop ∧
        EndsIn cal stop (start, 0) (stop, workingTimeBetween cal start stop)) ∧
      ∀ start d₁ d₂, 0 ≤ d₁ → 0 < d₂ →
        (∀ middle r r', addWorkingTime cal start d₁ = .ok middle →
          addWorkingTime cal middle d₂ = .ok r →
          addWorkingTime cal start (d₁ + d₂) = .ok r' → r = r') ∧
        ∀ r, addWorkingTime cal start (d₁ + d₂) = .ok r →
          ∃ middle, addWorkingTime cal start d₁ = .ok middle ∧
            addWorkingTime cal middle d₂ = .ok r := by
  constructor
  · intro start middle stop h1 h2
    have hends := workingTimeLoop_ends cal stop start 0
    rw [max_eq_right (h1.trans h2)] at hends
    exact ⟨workingTimeBetween_eq_finsum cal start stop, finite_support_share cal start stop,
      workingTimeBetween_add cal h1 h2, hends⟩
  · intro start d₁ d₂ h₁ h₂
    constructor
    · intro middle r r' hfirst hsecond hsum
      exact (reach_of_two cal h₁ h₂ hfirst hsecond).unique
        (addWorkingTime_reach cal (by omega) hsum)
    · intro r hsum
      exact returns_of_sum cal h₁ h₂ hsum

/-- Two half days over New Year's Day. -/
theorem working_time_composes_newYear :
    workingTimeBetween .default 0 (hours 43) =
        workingTimeBetween .default 0 (hours 19) +
          workingTimeBetween .default (hours 19) (hours 43) ∧
      ∃ middle, addWorkingTime .default 0 (hours 12) = .ok middle ∧
        addWorkingTime .default middle (hours 12) = .ok (hours 43) := by
  obtain ⟨hmeasure, hdeadlines⟩ := working_time_composes .default
  constructor
  · exact (hmeasure 0 (hours 19) (hours 43) (by decide) (by decide)).2.2.1
  · exact (hdeadlines 0 (hours 12) (hours 12) (by decide) (by decide)).2 (hours 43) (by decide)

end Royd.Sla
