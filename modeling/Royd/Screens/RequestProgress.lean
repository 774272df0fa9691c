/-
Royd.Screens.RequestProgress — `RequestProgress.tsx` and the pipeline of
`statusMeta.ts`: the stepper a request's page shows, computed from the status
and the history the server sends.

The component searches the history backwards for the last entry that moved
the request into a status. Over a faithful history (`Timeline`) that search
always finds what the component needs (`Timeline.into`), and in the order in
which it happened; so what the page shows is what happened.
-/
import Royd.Api.Views
import Royd.Lifecycle.History

namespace Royd.Screens

open Api

/-! ## The component -/

/-- `PROGRESS_STEPS`. -/
def progressSteps : List RequestStatus := [.new, .inProgress, .completed]

/-- `progressIndex`. -/
def progressIndex (status : RequestStatus) : Int :=
  match progressSteps.idxOf? (if status = .accepted then .inProgress else status) with
  | some i => i
  | none => -1

@[simp] theorem progressIndex_working : progressIndex .inProgress = 1 := rfl

@[simp] theorem progressIndex_completed : progressIndex .completed = 2 := rfl

/-- `lastEntryInto`. -/
def lastEntryInto (history : List RequestHistoryOut) (status : RequestStatus) :
    Option RequestHistoryOut :=
  history.reverse.find? fun h => h.newStatus == status && h.oldStatus != some h.newStatus

/-- The icons of a detour. -/
inductive DetourIcon where
  | cancel
  | reply
  deriving DecidableEq, Repr

/-- A step of the stepper: whose label it bears, how it is marked, and the
date or the hint beneath it. -/
structure StepView where
  step : RequestStatus
  label : RequestStatus
  done : Bool
  error : Bool
  icon : Option DetourIcon
  reachedAt : Option Int
  hint : Bool
  deriving DecidableEq, Repr

/-- The stepper and the box beneath it. -/
structure ProgressView where
  activeStep : Int
  steps : List StepView
  guide : RequestStatus
  reason : Option String
  deriving DecidableEq, Repr

/-- One step, where the stepper stands at `activeIndex`. -/
def stepView (status : RequestStatus) (history : List RequestHistoryOut) (activeIndex : Int)
    (step : RequestStatus) (i : Nat) : StepView :=
  let isRejected := status == .rejected
  let offPath := status == .returned || isRejected
  let isDetourStep := offPath && decide ((i : Int) = activeIndex)
  let reached := decide ((i : Int) ≤ activeIndex)
  let reachedAt :=
    if isDetourStep then (lastEntryInto history status).map (·.createdAt)
    else if reached then
      -- Legacy rows reached the working step through `accepted`.
      ((lastEntryInto history step).or
        (if step = .inProgress then lastEntryInto history .accepted else none)).map (·.createdAt)
    else none
  { step
    label := if isDetourStep then status else step
    done := decide ((i : Int) < activeIndex) ||
      (status == .completed && decide ((i : Int) = activeIndex))
    error := isRejected && isDetourStep
    icon := if isDetourStep then some (if isRejected then .cancel else .reply) else none
    reachedAt
    hint := reachedAt.isNone && !(reached || isRejected) }

/-- `RequestProgress`. -/
def requestProgress (status : RequestStatus) (history : List RequestHistoryOut) : ProgressView :=
  let offPath := status == .returned || status == .rejected
  let entry := lastEntryInto history status
  let activeIndex :=
    if offPath then max 0 (progressIndex ((entry.bind (·.oldStatus)).getD .new))
    else progressIndex status
  { activeStep := activeIndex
    steps := progressSteps.zipIdx.map fun (step, i) => stepView status history activeIndex step i
    guide := status
    reason := (if offPath then entry.bind (·.comment) else none).filter (!·.isEmpty) }

/-- The labels of the steps with the dates beneath them. -/
def ProgressView.dated (v : ProgressView) : List (RequestStatus × Option Int) :=
  v.steps.map fun s => (s.label, s.reachedAt)

/-! ## The search -/

/-- The entry moved the request into this status. -/
def Into (status : RequestStatus) (e : RequestHistory) : Prop :=
  e.newStatus = status ∧ e.oldStatus ≠ some e.newStatus

instance (status : RequestStatus) (e : RequestHistory) : Decidable (Into status e) := by
  unfold Into
  infer_instance

/-- The last such entry. -/
def lastInto (hs : List RequestHistory) (status : RequestStatus) : Option RequestHistory :=
  hs.reverse.find? fun e => decide (Into status e)

/-- The search sees a history as it is served. -/
theorem lastEntryInto_map (people : List User) (hs : List RequestHistory)
    (status : RequestStatus) :
    lastEntryInto (hs.map (historyOut people)) status =
      (lastInto hs status).map (historyOut people) := by
  unfold lastEntryInto lastInto
  rw [← List.map_reverse, List.find?_map]
  congr 2
  funext e
  by_cases hnew : e.newStatus = status <;> by_cases hold : e.oldStatus = some e.newStatus <;>
    simp [historyOut, Into, hnew, hold, bne, beq_eq_decide]

variable {hs : List RequestHistory} {status : RequestStatus} {e : RequestHistory}

/-- It is the last entry of the history that moved the request into a status. -/
def LastInto (hs : List RequestHistory) (status : RequestStatus) (i : ℕ) (e : RequestHistory) :
    Prop :=
  hs[i]? = some e ∧ Into status e ∧ ∀ j e', hs[j]? = some e' → Into status e' → j ≤ i

theorem lastInto_spec (h : lastInto hs status = some e) : ∃ i, LastInto hs status i e := by
  obtain ⟨hinto, later, earlier, hsplit, hlater⟩ := List.find?_eq_some_iff_append.mp h
  have hs_eq : hs = earlier.reverse ++ e :: later.reverse := by
    rw [← List.reverse_reverse hs, hsplit]
    simp
  refine ⟨earlier.reverse.length, ?_, of_decide_eq_true hinto, fun j e' he' hinto' => ?_⟩
  · rw [hs_eq, List.getElem?_append_right (Nat.le_refl _), Nat.sub_self, List.getElem?_cons_zero]
  · by_contra hj
    -- A later entry was passed over by the search.
    rw [hs_eq, List.getElem?_append_right (by omega),
      show j - earlier.reverse.length = j - earlier.reverse.length - 1 + 1 by omega,
      List.getElem?_cons_succ] at he'
    have hpassed := hlater e' (List.mem_reverse.mp (List.mem_of_getElem? he'))
    simp [hinto'] at hpassed

theorem exists_lastInto {i : ℕ} (hi : hs[i]? = some e) (hinto : Into status e) :
    ∃ m, lastInto hs status = some m := by
  cases h : lastInto hs status with
  | some m => exact ⟨m, rfl⟩
  | none =>
    have hnone := List.find?_eq_none.mp h e (List.mem_reverse.mpr (List.mem_of_getElem? hi))
    exact absurd hinto (by simpa using hnone)

/-! ## What it should show -/

/-- The stepper and the box tell what the history says. -/
structure ProgressView.Tells (v : ProgressView) (status : RequestStatus)
    (hs : List RequestHistory) : Prop where
  /-- The stepper stands at the end exactly if the request is answered. -/
  place : v.activeStep = if status = .completed then 2 else 1
  /-- A date is when the request last came to the status beside it. -/
  shown : ∀ label t, (label, some t) ∈ v.dated → ∃ i e, LastInto hs label i e ∧ e.createdAt = t
  /-- The current status is among the labels, with its date. -/
  current : ∃ t, (status, some t) ∈ v.dated
  /-- Dates do not decrease along the stepper. -/
  ordered : (v.dated.filterMap (·.2)).Pairwise (· ≤ ·)
  /-- Only the end and the work on a request answered at once lack a date. -/
  missing : ∀ label, (label, none) ∈ v.dated ↔
    (label = .completed ∧ status ≠ .completed) ∨
      (label = .inProgress ∧ ∃ e ∈ hs, e.oldStatus = some .new ∧ e.newStatus = .completed)
  /-- The reason is that of the last return, of a returned request only. -/
  reason : if status = .returned then
      ∃ i e text, LastInto hs .returned i e ∧ e.comment = some text ∧ v.reason = some text
        ∧ blank text = false
    else v.reason = none

end Royd.Screens

namespace Royd

open Api Screens

/-! ## A faithful history -/

variable {current status : RequestStatus} {hs : List RequestHistory} {e : RequestHistory}

theorem linked_at (h : Timeline current hs) {i : ℕ} {x y : RequestHistory}
    (hx : hs[i]? = some x) (hy : hs[i + 1]? = some y) : y.oldStatus = some x.newStatus := by
  obtain ⟨hlt, rfl⟩ := List.getElem?_eq_some_iff.mp hy
  obtain ⟨hlt', rfl⟩ := List.getElem?_eq_some_iff.mp hx
  exact List.isChain_iff_getElem.mp h.linked i hlt

/-- Whatever status an entry leaves, some entry has moved the request into it. -/
theorem Timeline.into (h : Timeline current hs) : ∀ {i : ℕ} {e : RequestHistory},
    hs[i]? = some e → ∃ j ≤ i, ∃ m, hs[j]? = some m ∧ Into e.newStatus m
  | 0, e, he => by
    obtain ⟨first, rest, rfl, hold, -⟩ := h.opening
    rw [List.getElem?_cons_zero, Option.some.injEq] at he
    subst he
    exact ⟨0, Nat.le_refl 0, first, rfl, rfl, by rw [hold]; nofun⟩
  | i + 1, e, he => by
    by_cases hold : e.oldStatus = some e.newStatus
    · obtain ⟨hlt, -⟩ := List.getElem?_eq_some_iff.mp he
      have hx := List.getElem?_eq_getElem (Nat.lt_of_succ_lt hlt)
      have hlink := linked_at h hx he
      rw [hold, Option.some.injEq] at hlink
      obtain ⟨j, hj, m, hm, hinto⟩ := Timeline.into h hx
      exact ⟨j, Nat.le_succ_of_le hj, m, hm, hlink ▸ hinto⟩
    · exact ⟨i + 1, Nat.le_refl _, e, he, rfl, hold⟩

/-- An entry that moves the request, but for the first, makes a listed move
from the status the entry before it left. -/
theorem Timeline.moved (h : Timeline current hs) {i : ℕ} (he : hs[i]? = some e)
    (hinto : Into status e) : (i = 0 ∧ status = .new) ∨
      ∃ old x, ListedMove i e old status ∧ hs[i - 1]? = some x ∧ x.newStatus = old ∧
        e.oldStatus = some old ∧ 0 < i := by
  obtain ⟨rfl, hmoving⟩ := hinto
  cases i with
  | zero =>
    obtain ⟨first, rest, rfl, -, hnew⟩ := h.opening
    cases he
    exact .inl ⟨rfl, hnew⟩
  | succ i =>
    obtain ⟨hlt, -⟩ := List.getElem?_eq_some_iff.mp he
    have hx := List.getElem?_eq_getElem (Nat.lt_of_succ_lt hlt)
    have hold := linked_at h hx he
    refine .inr ⟨_, _, h.moves _ e _ he hold fun heq => hmoving ?_, hx, rfl, hold, Nat.succ_pos i⟩
    rw [hold, heq]

/-- Only the filing moves a request into `new`. -/
theorem Timeline.into_new (h : Timeline current hs) {i : ℕ} (he : hs[i]? = some e)
    (hinto : Into .new e) : i = 0 := by
  rcases h.moved he hinto with ⟨hi, -⟩ | ⟨old, x, hmove, -⟩
  · exact hi
  · cases hmove

/-- Nothing moves one into `accepted`. -/
theorem Timeline.not_accepted (h : Timeline current hs) : lastInto hs .accepted = none := by
  refine List.find?_eq_none.mpr fun e he hinto => ?_
  obtain ⟨i, hi⟩ := List.mem_iff_getElem?.mp (List.mem_reverse.mp he)
  rcases h.moved hi (of_decide_eq_true hinto) with ⟨-, hnew⟩ | ⟨old, x, hmove, -⟩
  · cases hnew
  · cases hmove

/-- A request was worked on before it was returned. -/
theorem Timeline.into_working (h : Timeline current hs) {i : ℕ} (he : hs[i]? = some e)
    (hinto : Into .returned e) : ∃ j < i, ∃ m, hs[j]? = some m ∧ Into .inProgress m := by
  rcases h.moved he hinto with ⟨-, hnew⟩ | ⟨old, x, hmove, hx, hold, -, hpos⟩
  · cases hnew
  · cases hmove with
    | returned =>
      obtain ⟨j, hj, m, hm, hworking⟩ := h.into hx
      exact ⟨j, by omega, m, hm, hold ▸ hworking⟩

/-- The work is what a return interrupts, and it says why. -/
theorem Timeline.left_work (h : Timeline current hs) {m : RequestHistory}
    (hm : lastInto hs .returned = some m) :
    m.oldStatus = some .inProgress ∧ blank (m.comment.getD "") = false := by
  obtain ⟨i, hi, hinto, -⟩ := lastInto_spec hm
  rcases h.moved hi hinto with ⟨-, hnew⟩ | ⟨old, x, hmove, -, -, hold, -⟩
  · cases hnew
  · cases hmove with
    | returned why => exact ⟨hold, why⟩

/-- It was answered on the spot, or worked on before it was answered. -/
theorem Timeline.into_answered (h : Timeline current hs) {i : ℕ} (he : hs[i]? = some e)
    (hinto : Into .completed e) :
    (i = 1 ∧ e.oldStatus = some .new) ∨ ∃ j < i, ∃ m, hs[j]? = some m ∧ Into .inProgress m := by
  rcases h.moved he hinto with ⟨-, hnew⟩ | ⟨old, x, hmove, hx, hleft, hold, hpos⟩
  · cases hnew
  · cases hmove with
    | answeredAtOnce second => exact .inl ⟨second, hold⟩
    | answered =>
      obtain ⟨j, hj, m, hm, hworking⟩ := h.into hx
      exact .inr ⟨j, by omega, m, hm, hleft ▸ hworking⟩
    | answeredReturned =>
      obtain ⟨j, hj, m, hm, hreturned⟩ := h.into hx
      obtain ⟨k, hk, m', hm', hworking⟩ := h.into_working hm (hleft ▸ hreturned)
      exact .inr ⟨k, by omega, m', hm', hworking⟩

/-- The entry that left the request in its current status. -/
theorem Timeline.lastInto_current (h : Timeline current hs) :
    ∃ m, lastInto hs current = some m := by
  obtain ⟨e, he, hnew⟩ := Option.map_eq_some_iff.mp h.current
  rw [List.getLast?_eq_getElem?] at he
  obtain ⟨j, -, m, hm, hinto⟩ := h.into he
  exact exists_lastInto hm (hnew ▸ hinto)

theorem Timeline.lastInto_new (h : Timeline current hs) :
    ∃ first, lastInto hs .new = some first ∧ hs[0]? = some first := by
  obtain ⟨first, rest, hhs, hold, hnew⟩ := h.opening
  have hfirst : hs[0]? = some first := by rw [hhs]; rfl
  obtain ⟨m, hm⟩ := exists_lastInto hfirst ⟨hnew, by rw [hold]; nofun⟩
  obtain ⟨i, hi, hinto, -⟩ := lastInto_spec hm
  cases h.into_new hi hinto
  rw [hfirst] at hi
  cases hi
  exact ⟨first, hm, hfirst⟩

/-- Only an answered request was ever answered. -/
theorem Timeline.unanswered (h : Timeline current hs) (hne : current ≠ .completed) :
    ∀ e ∈ hs, e.newStatus ≠ .completed := by
  intro e he hanswered
  obtain ⟨i, hi⟩ := List.mem_iff_getElem?.mp he
  have hfinal := h.final i e hi hanswered
  have hlast := h.current
  rw [List.getLast?_eq_getElem?, show hs.length - 1 = i by omega, hi, Option.map_some,
    Option.some.injEq] at hlast
  exact hne (hlast ▸ hanswered)

theorem Timeline.not_answered (h : Timeline current hs) (hne : current ≠ .completed) :
    lastInto hs .completed = none :=
  List.find?_eq_none.mpr fun e he hinto =>
    h.unanswered hne e (List.mem_reverse.mp he) (of_decide_eq_true hinto).1

/-- An answered request was worked on unless its second entry answered it. -/
theorem Timeline.worked (h : Timeline .completed hs) : lastInto hs .inProgress = none ↔
    ∃ e ∈ hs, e.oldStatus = some .new ∧ e.newStatus = .completed := by
  constructor
  · intro hnone
    obtain ⟨m, hm⟩ := h.lastInto_current
    obtain ⟨i, hi, hinto, -⟩ := lastInto_spec hm
    rcases h.into_answered hi hinto with ⟨-, hold⟩ | ⟨j, -, w, hw, hworking⟩
    · exact ⟨m, List.mem_of_getElem? hi, hold, hinto.1⟩
    · obtain ⟨w', hw'⟩ := exists_lastInto hw hworking
      rw [hnone] at hw'
      cases hw'
  · rintro ⟨e, he, hold, hanswered⟩
    obtain ⟨i, hi⟩ := List.mem_iff_getElem?.mp he
    have hmove := h.moves i e _ hi hold (by rw [hanswered]; nofun)
    rw [hanswered] at hmove
    cases hmove with
    | answeredAtOnce second =>
      -- The two entries of such a history are the filing and the answer.
      have hfinal := h.final i e hi hanswered
      refine List.find?_eq_none.mpr fun w hw hinto => ?_
      obtain ⟨hnew, -⟩ := of_decide_eq_true hinto
      obtain ⟨j, hj⟩ := List.mem_iff_getElem?.mp (List.mem_reverse.mp hw)
      obtain ⟨hlt, -⟩ := List.getElem?_eq_some_iff.mp hj
      obtain ⟨first, rest, rfl, -, hfirst⟩ := h.opening
      obtain rfl | rfl : j = 0 ∨ j = i := by omega
      · cases hj
        rw [hfirst] at hnew
        cases hnew
      · rw [hi] at hj
        cases hj
        rw [hanswered] at hnew
        cases hnew

/-! ## What the page shows -/

/-- When the request was last moved into a status. -/
def dateInto (hs : List RequestHistory) (status : RequestStatus) : Option Int :=
  (lastInto hs status).map (·.createdAt)

theorem dateInto_spec {t : Int} (h : dateInto hs status = some t) :
    ∃ i e, LastInto hs status i e ∧ e.createdAt = t := by
  obtain ⟨e, he, rfl⟩ := Option.map_eq_some_iff.mp h
  obtain ⟨i, hlast⟩ := lastInto_spec he
  exact ⟨i, e, hlast, rfl⟩

/-- In a history in order, dates follow positions. -/
theorem dateInto_le (hsorted : hs.Pairwise fun a b => a.createdAt ≤ b.createdAt)
    {earlier later : RequestStatus}
    (hle : ∀ i j e e', LastInto hs earlier i e → LastInto hs later j e' → i ≤ j) {t t' : Int}
    (ht : dateInto hs earlier = some t) (ht' : dateInto hs later = some t') : t ≤ t' := by
  obtain ⟨i, e, hi, rfl⟩ := dateInto_spec ht
  obtain ⟨j, e', hj, rfl⟩ := dateInto_spec ht'
  obtain ⟨hlt, hie⟩ := List.getElem?_eq_some_iff.mp hi.1
  obtain ⟨hlt', hje⟩ := List.getElem?_eq_some_iff.mp hj.1
  rcases (hle i j e e' hi hj).lt_or_eq with hbefore | rfl
  · rw [← hie, ← hje]
    exact List.pairwise_iff_getElem.mp hsorted i j hlt hlt' hbefore
  · rw [← hie, ← hje]

theorem entry_date (people : List User) (hs : List RequestHistory) (status : RequestStatus) :
    (lastEntryInto (hs.map (historyOut people)) status).map (·.createdAt) = dateInto hs status := by
  rw [lastEntryInto_map, Option.map_map]
  rfl

/-- The stepper of a request that is worked on. -/
theorem progress_working (people : List User) (h : Timeline .inProgress hs) :
    let v := requestProgress .inProgress (hs.map (historyOut people))
    v.activeStep = 1 ∧ v.reason = none ∧
      v.dated =
        [(.new, dateInto hs .new), (.inProgress, dateInto hs .inProgress), (.completed, none)] := by
  have haccepted : lastEntryInto (hs.map (historyOut people)) .accepted = none := by
    rw [lastEntryInto_map, h.not_accepted, Option.map_none]
  refine ⟨rfl, rfl, ?_⟩
  simp [ProgressView.dated, requestProgress, progressSteps, stepView, haccepted, entry_date]

/-- Of one that is answered. -/
theorem progress_answered (people : List User) (h : Timeline .completed hs) :
    let v := requestProgress .completed (hs.map (historyOut people))
    v.activeStep = 2 ∧ v.reason = none ∧
      v.dated =
        [(.new, dateInto hs .new), (.inProgress, dateInto hs .inProgress),
          (.completed, dateInto hs .completed)] := by
  have haccepted : lastEntryInto (hs.map (historyOut people)) .accepted = none := by
    rw [lastEntryInto_map, h.not_accepted, Option.map_none]
  refine ⟨rfl, rfl, ?_⟩
  simp [ProgressView.dated, requestProgress, progressSteps, stepView, haccepted, entry_date]

/-- And of one that was returned: the working step bears the return. -/
theorem progress_returned (people : List User) {m : RequestHistory}
    (hm : lastInto hs .returned = some m) (hold : m.oldStatus = some .inProgress) :
    let v := requestProgress .returned (hs.map (historyOut people))
    v.activeStep = 1 ∧ v.reason = m.comment.filter (!·.isEmpty) ∧
      v.dated =
        [(.new, dateInto hs .new), (.returned, dateInto hs .returned), (.completed, none)] := by
  have hentry : lastEntryInto (hs.map (historyOut people)) .returned =
      some (historyOut people m) := by
    rw [lastEntryInto_map, hm, Option.map_some]
  have hleft : (historyOut people m).oldStatus = some .inProgress := hold
  have hdate : dateInto hs .returned = some m.createdAt := by
    rw [dateInto, hm, Option.map_some]
  refine ⟨?_, ?_, ?_⟩
  · simp [requestProgress, hentry, hleft]
  · simp [requestProgress, hentry, historyOut]
  · rw [hdate]
    simp [ProgressView.dated, requestProgress, progressSteps, stepView, hentry, hleft, entry_date]
    rfl

/-- What the steps of a request bear, whatever it has come to. -/
theorem progress_dated (people : List User) (h : Timeline status hs)
    (hstatus : status = .inProgress ∨ status = .returned ∨ status = .completed) :
    (requestProgress status (hs.map (historyOut people))).dated =
      [.new, if status = .returned then .returned else .inProgress, .completed].map
        fun label => (label, dateInto hs label) := by
  have hunanswered : status ≠ .completed → dateInto hs .completed = none := fun hne => by
    rw [dateInto, h.not_answered hne, Option.map_none]
  rcases hstatus with rfl | rfl | rfl
  · rw [(progress_working people h).2.2]
    simp [hunanswered]
  · obtain ⟨m, hm⟩ := h.lastInto_current
    rw [(progress_returned people hm (h.left_work hm).1).2.2]
    simp [hunanswered]
  · rw [(progress_answered people h).2.2]
    simp

/-- A step without a date. -/
theorem dateInto_none (hs : List RequestHistory) (status : RequestStatus) :
    dateInto hs status = none ↔ lastInto hs status = none := by
  rw [dateInto, Option.map_eq_none_iff]

/-- What the box says of a request that was returned, and of any other. -/
theorem progress_reason (people : List User) (h : Timeline status hs)
    (hstatus : status = .inProgress ∨ status = .returned ∨ status = .completed) :
    let v := requestProgress status (hs.map (historyOut people))
    v.activeStep = (if status = .completed then 2 else 1) ∧
      if status = .returned then
        ∃ i e text, LastInto hs .returned i e ∧ e.comment = some text ∧ v.reason = some text
          ∧ blank text = false
      else v.reason = none := by
  rcases hstatus with rfl | rfl | rfl
  · obtain ⟨hplace, hreason, -⟩ := progress_working people h
    exact ⟨hplace, hreason⟩
  · obtain ⟨m, hm⟩ := h.lastInto_current
    obtain ⟨hleft, hwhy⟩ := h.left_work hm
    obtain ⟨hplace, hreason, -⟩ := progress_returned people hm hleft
    obtain ⟨i, hlast⟩ := lastInto_spec hm
    obtain ⟨text, htext, hblank⟩ := blank_getD_false hwhy
    have hnonempty : text.isEmpty = false := by
      cases hempty : text.isEmpty with
      | false => rfl
      | true =>
        rw [String.isEmpty_iff.mp hempty] at hblank
        exact absurd hblank (by decide)
    refine ⟨hplace, i, m, text, hlast, htext, ?_, hblank⟩
    rw [hreason, htext]
    simp [hnonempty]
  · obtain ⟨hplace, hreason, -⟩ := progress_answered people h
    exact ⟨hplace, hreason⟩

/-- The dates of the steps in a history that is in order. -/
theorem Timeline.dates_in_order (h : Timeline current hs)
    (hsorted : hs.Pairwise fun a b => a.createdAt ≤ b.createdAt) (working : RequestStatus) :
    (([.new, working, .completed].map fun label => (label, dateInto hs label)).filterMap
      (·.2)).Pairwise (· ≤ ·) := by
  have hfirst : ∀ later t t', dateInto hs .new = some t → dateInto hs later = some t' → t ≤ t' :=
    fun later _ _ => dateInto_le hsorted fun i j e e' hi _ => by
      rw [h.into_new hi.1 hi.2.1]
      exact Nat.zero_le j
  have hlast : ∀ earlier t t', dateInto hs earlier = some t → dateInto hs .completed = some t' →
      t ≤ t' :=
    fun earlier _ _ => dateInto_le hsorted fun i j e e' hi hj => by
      have hfinal := h.final j e' hj.1 hj.2.1.1
      obtain ⟨hlt, -⟩ := List.getElem?_eq_some_iff.mp hi.1
      omega
  rw [List.pairwise_filterMap]
  simp only [List.map_cons, List.map_nil, List.pairwise_cons, List.mem_cons, List.not_mem_nil,
    or_false, forall_eq_or_imp, forall_eq]
  exact ⟨⟨fun t ht t' ht' => hfirst working t t' ht ht', fun t ht t' ht' => hfirst _ t t' ht ht'⟩,
    fun t ht t' ht' => hlast working t t' ht ht', nofun, List.Pairwise.nil⟩

/-- The statuses on the stepper the history has no entry into. -/
theorem Timeline.undated (h : Timeline status hs)
    (hstatus : status = .inProgress ∨ status = .returned ∨ status = .completed)
    (label : RequestStatus) :
    (label = .new ∨ label = (if status = .returned then .returned else .inProgress)
        ∨ label = .completed) ∧ lastInto hs label = none ↔
      (label = .completed ∧ status ≠ .completed) ∨
        (label = .inProgress ∧ ∃ e ∈ hs, e.oldStatus = some .new ∧ e.newStatus = .completed) := by
  obtain ⟨first, hfirst, -⟩ := h.lastInto_new
  obtain ⟨m, hm⟩ := h.lastInto_current
  by_cases hanswered : status = .completed
  · subst hanswered
    constructor
    · rintro ⟨rfl | rfl | rfl, hnone⟩
      · rw [hfirst] at hnone
        cases hnone
      · exact .inr ⟨rfl, h.worked.mp hnone⟩
      · rw [hm] at hnone
        cases hnone
    · rintro (⟨-, hne⟩ | ⟨rfl, hatOnce⟩)
      · exact absurd rfl hne
      · exact ⟨.inr (.inl rfl), h.worked.mpr hatOnce⟩
  · have hworking : (if status = .returned then .returned else .inProgress) = status := by
      rcases hstatus with rfl | rfl | rfl
      · rfl
      · rfl
      · exact absurd rfl hanswered
    rw [hworking]
    constructor
    · rintro ⟨rfl | rfl | rfl, hnone⟩
      · rw [hfirst] at hnone
        cases hnone
      · rw [hm] at hnone
        cases hnone
      · exact .inl ⟨rfl, hanswered⟩
    · rintro (⟨rfl, -⟩ | ⟨-, e, he, -, hcompleted⟩)
      · exact ⟨.inr (.inr rfl), h.not_answered hanswered⟩
      · exact absurd hcompleted (h.unanswered hanswered e he)

/-- Over a faithful history in order, the component tells what it says. -/
theorem progress_tells (people : List User) (h : Timeline status hs)
    (hstatus : status = .inProgress ∨ status = .returned ∨ status = .completed)
    (hsorted : hs.Pairwise fun a b => a.createdAt ≤ b.createdAt) :
    (requestProgress status (hs.map (historyOut people))).Tells status hs := by
  obtain ⟨hplace, hreason⟩ := progress_reason people h hstatus
  have hdated := progress_dated people h hstatus
  obtain ⟨first, hfirst, hzero⟩ := h.lastInto_new
  obtain ⟨m, hm⟩ := h.lastInto_current
  have hfiled : dateInto hs .new ≠ none := by simp [dateInto, hfirst]
  have hcurrent : dateInto hs status = some m.createdAt := by simp [dateInto, hm]
  have hshows : ∀ label d, (label, d) ∈
      (requestProgress status (hs.map (historyOut people))).dated ↔
      (label = .new ∨ label = (if status = .returned then .returned else .inProgress)
        ∨ label = .completed) ∧ dateInto hs label = d := fun label d => by
    rw [hdated, List.mem_map]
    simp only [List.mem_cons, List.not_mem_nil, or_false, Prod.mk.injEq]
    exact ⟨fun ⟨l, hl, heq, hd⟩ => heq ▸ ⟨hl, hd⟩, fun ⟨hl, hd⟩ => ⟨label, hl, rfl, hd⟩⟩
  refine ⟨hplace, fun label t hmem => dateInto_spec ((hshows label _).mp hmem).2,
    ⟨m.createdAt, (hshows status _).mpr ⟨?_, hcurrent⟩⟩, ?_, fun label => ?_, hreason⟩
  · rcases hstatus with rfl | rfl | rfl <;> simp
  · rw [hdated]
    exact h.dates_in_order hsorted _
  · rw [hshows, dateInto_none]
    exact h.undated hstatus label

/-! ## What is served -/

/-- In an ordered table the entries of a detail are those of its request, as
they were inserted. -/
theorem orderBy_of_ordered {db : Db} {t : Int} (h : db.Ordered t) (requestId : Nat) :
    orderBy (·.createdAt) (orderBy (fun e => (e.id : Int)) (db.historyOf requestId)) =
      db.historyOf requestId := by
  have hsorted : (db.historyOf requestId).Pairwise fun a b =>
      a.createdAt ≤ b.createdAt ∧ a.id < b.id := h.sorted.sublist List.filter_sublist
  unfold orderBy
  rw [(hsorted.imp fun hab => by omega : (db.historyOf requestId).Pairwise
      fun a b => (a.id : Int) ≤ b.id).insertionSort_eq]
  exact (hsorted.imp And.left).insertionSort_eq

/-- The page of a request shows the status and the history of its row. -/
theorem getDetail_history {db : Db} {t : Int} (h : db.Ordered t) {updatedAt : Nat → Int}
    {now : Int} {userId requestId : Nat} {d : RequestDetail}
    (hd : getDetail db updatedAt now userId requestId = .ok d) :
    ∃ req ∈ db.requests, req.id = requestId ∧ d.status = req.status ∧
      ∃ people, d.history = (db.historyOf requestId).map (historyOut people) := by
  obtain ⟨user, -, hload⟩ := bind_eq_ok.mp hd
  obtain ⟨w, hw, hview⟩ := bind_eq_ok.mp hload
  obtain ⟨req, hreq, rfl⟩ := getRequestForUser_eq_ok hw
  obtain ⟨hmem, rfl⟩ := getRequest_mem hreq
  change forViewer db updatedAt now (seesInternal user) req = .ok d at hview
  unfold forViewer at hview
  split at hview
  · cases hview
    refine ⟨req, hmem, rfl, rfl, actors db req, ?_⟩
    dsimp only
    rw [orderBy_of_ordered h req.id]
  · cases hview

/-- Whatever happens, under a clock that does not run backwards: the stepper
on the page of a request tells what became of it. It stands where the request
does, bears dates of moves that were made and in the order they were made in,
and leaves no step the request has passed without one, but for the work on a
request that was answered at once; and it says why a request was returned. -/
theorem progress_is_what_happened (cfg : Settings) {db₀ : Db} (h : Start db₀) {es : List Event}
    (hclock : Clocked es) (updatedAt : Nat → Int) (now : Int) (userId requestId : Nat)
    {d : RequestDetail}
    (hd : getDetail (Runs.run (step cfg) db₀ es) updatedAt now userId requestId = .ok d) :
    (requestProgress d.status d.history).Tells d.status
      ((Runs.run (step cfg) db₀ es).historyOf requestId) := by
  obtain ⟨later, hlater⟩ := exists_after es
  have hordered : (Runs.run (step cfg) db₀ es).Ordered later :=
    run_clocked (P := fun t db => db.Ordered t) (fun ht ho => ho.advance ht)
      (fun e hwf ho => (step_effects hwf e).ordered le_rfl ho) h.wf h.ordered hclock hlater
  obtain ⟨req, hreq, rfl, hstatus, people, hhistory⟩ := getDetail_history hordered hd
  have htraced := run_life cfg (P := fun l => ∀ k, l = some k → k.Traced)
    (fun hstep => step_traced hstep) h.wf req.id (by simp [h.life?]) es
  obtain ⟨hsound, htimeline⟩ := htraced _ ((run_wf cfg h.wf es).life?_mem hreq)
  rw [hstatus, hhistory]
  exact progress_tells people htimeline hsound.status
    ((hordered.sorted.sublist List.filter_sublist).imp And.left)

/-- The office returns a request of the second minute. -/
theorem progress_is_what_happened_office :
    ∃ d, getDetail (Runs.run (step {}) office [filing 0, returning 120]) (fun _ => 120) 180 1 10
        = .ok d ∧
      (requestProgress d.status d.history).reason = some "Nusxa" ∧
      (requestProgress d.status d.history).Tells d.status
        ((Runs.run (step {}) office [filing 0, returning 120]).historyOf 10) := by
  have hserved : ((getDetail (Runs.run (step {}) office [filing 0, returning 120])
      (fun _ => 120) 180 1 10).toOption.map fun d =>
        (requestProgress d.status d.history).reason) = some (some "Nusxa") := by decide +kernel
  cases hd : getDetail (Runs.run (step {}) office [filing 0, returning 120])
      (fun _ => 120) 180 1 10 with
  | error exc =>
    rw [hd] at hserved
    cases hserved
  | ok d =>
    rw [hd] at hserved
    refine ⟨d, rfl, Option.some.inj hserved, ?_⟩
    exact progress_is_what_happened {} office_start (by unfold Clocked; decide) (fun _ => 120) 180
      1 10 hd

end Royd
