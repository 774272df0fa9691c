/-
Royd.Sla.CalendarTheorems — the two calendar loops against the measure
they are meant to compute.

`works cal t` says that the instant `t` lies on a working day. The loop of
`working_time_between` walks whole local days, and `workingTimeBetween_eq`
shows that it counts exactly the working instants of `[start, stop)`. The
loop of `add_working_time` walks the same days, and `addWorkingTime_reach`
shows that what it returns is the first instant by which that count has
reached the duration. Everything said about SLA deadlines afterwards uses
these two theorems and never looks into the loops again.
-/
import Royd.Sla.Calendar
import Royd.Lib.IntervalCount

namespace Royd.Sla

open IntervalCount

variable (cal : SlaCalendar)

/-- The instant lies on a working day. -/
def works (t : Int) : Prop := isWorkingDay cal (localDate cal t) = true

instance : DecidablePred (works cal) :=
  fun t => inferInstanceAs (Decidable (isWorkingDay cal (localDate cal t) = true))

/-! ## One local day -/

/-- Up to the next local midnight the local date does not change. -/
theorem localDate_eq {cursor x : Int} (h1 : cursor ≤ x) (h2 : x < localMidnightAfter cal cursor) :
    localDate cal x = localDate cal cursor := by
  unfold localMidnightAfter localMidnight localDate oneDay at *
  omega

/-- A stretch inside one working day counts in full. -/
theorem count_working_day {cursor stop : Int} (h1 : cursor ≤ stop)
    (h2 : stop ≤ localMidnightAfter cal cursor)
    (hw : isWorkingDay cal (localDate cal cursor) = true) :
    count (works cal) cursor stop = stop - cursor := by
  refine count_of_forall _ h1 fun x hx1 hx2 => ?_
  unfold works
  rw [localDate_eq cal hx1 (by omega)]
  exact hw

/-- A stretch inside one day off counts nothing. -/
theorem count_day_off {cursor stop : Int} (h2 : stop ≤ localMidnightAfter cal cursor)
    (hw : isWorkingDay cal (localDate cal cursor) = false) :
    count (works cal) cursor stop = 0 := by
  refine count_of_forall_not _ fun x hx1 hx2 => ?_
  unfold works
  rw [localDate_eq cal hx1 (by omega), hw]
  decide

/-! ## `working_time_between` -/

theorem workingTimeLoop_eq (stop cursor total : Int) :
    workingTimeLoop cal stop cursor total = total + count (works cal) cursor stop := by
  fun_induction workingTimeLoop cal stop cursor total with
  | case1 cursor total h dayEnd hw ih =>
    have hlt := lt_localMidnightAfter cal cursor
    have hday := count_working_day cal (show cursor ≤ dayEnd by omega) (by omega) hw
    have hadd := count_add (works cal) (show cursor ≤ dayEnd by omega) (show dayEnd ≤ stop by omega)
    rw [ih]
    omega
  | case2 cursor total h dayEnd hw ih =>
    have hlt := lt_localMidnightAfter cal cursor
    have hday := count_day_off cal (show dayEnd ≤ localMidnightAfter cal cursor by omega)
      (Bool.eq_false_iff.mpr hw)
    have hadd := count_add (works cal) (show cursor ≤ dayEnd by omega) (show dayEnd ≤ stop by omega)
    rw [ih]
    omega
  | case3 cursor total h => rw [count_of_le _ (by omega), add_zero]

/-- `working_time_between` counts the working instants from `start` to `stop`. -/
theorem workingTimeBetween_eq (start stop : Int) :
    workingTimeBetween cal start stop = count (works cal) start stop := by
  rw [workingTimeBetween, workingTimeLoop_eq, zero_add]

/-! ## `add_working_time` -/

/-- What the loop of `add_working_time` returns is the first instant by
which the remaining duration has been worked. -/
theorem addWorkingLoop_reach {days : Nat} {cursor remaining r : Int} (hpos : 0 < remaining)
    (h : addWorkingLoop cal days cursor remaining = .ok r) :
    Reach (works cal) cursor remaining r := by
  induction days generalizing cursor remaining with
  | zero => simp [addWorkingLoop] at h
  | succ days ih =>
    have hlt := lt_localMidnightAfter cal cursor
    by_cases hw : isWorkingDay cal (localDate cal cursor) = true
    · simp only [addWorkingLoop, hw, if_true] at h
      have hlast : ∀ x, cursor ≤ x → x < localMidnightAfter cal cursor → works cal x := by
        intro x hx1 hx2
        unfold works
        rwa [localDate_eq cal hx1 hx2]
      split at h
      · -- The duration ends on this day.
        rename_i hfits
        cases h
        refine reach_of_last (by omega) ?_ (hlast _ (by omega) (by omega))
        rw [count_working_day cal (by omega) (by omega) hw]
        omega
      · -- The rest of the day is used up and the loop goes on.
        rename_i hmore
        have hday := count_working_day cal hlt.le le_rfl hw
        have hfull : Reach (works cal) cursor (localMidnightAfter cal cursor - cursor)
            (localMidnightAfter cal cursor) :=
          reach_of_last hlt hday (hlast _ (by omega) (by omega))
        have hrest := ih (by omega) h
        have htotal := hfull.trans hrest (by omega) hday
        rwa [show localMidnightAfter cal cursor - cursor
          + (remaining - (localMidnightAfter cal cursor - cursor)) = remaining by omega] at htotal
    · simp only [addWorkingLoop, hw] at h
      have hoff := count_day_off cal (le_refl (localMidnightAfter cal cursor))
        (Bool.eq_false_iff.mpr hw)
      exact (ih hpos h).extend hlt.le hoff hpos

/-- `add_working_time` returns the first instant by which `duration` of
working time has elapsed after `start`. -/
theorem addWorkingTime_reach {start duration r : Int} (hpos : 0 < duration)
    (h : addWorkingTime cal start duration = .ok r) : Reach (works cal) start duration r :=
  addWorkingLoop_reach cal hpos h

end Royd.Sla
