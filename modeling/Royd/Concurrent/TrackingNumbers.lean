/-
Royd.Concurrent.TrackingNumbers — any number of calls of `generate_tracking_no`
at once, a counter that gets lost and a query that fails.

`CallStep` says what one step of a call does, stage by stage. Nothing in the
code keeps other calls from the counter between the `INCR` that found it cold
and the `SET` that seeds it, and a call whose query failed leaves the counter
at 1: the numbers collide then (`cold_counter_handed_out`). `Steady` is what
has to be true before each step for them not to, and
`tracking_numbers_distinct` is that it suffices.
-/
import Royd.Services.TrackingNo
import Royd.Lib.Pools

namespace Royd.Tracking

open Programs Pools Runs

/-! ## The calls and what happens between their steps -/

/-- The calls under way, or through. -/
abbrev Calls := Pool Unit Command Command.Reply Failure String Registry

abbrev CallThread := Thread Unit Command Command.Reply Failure String

/-- What happens besides: Redis loses the counter, the database goes or comes
back. -/
inductive Meanwhile where
  | lose
  | database (up : Bool)
  deriving DecidableEq, Repr

def meanwhile : Meanwhile → Registry → Registry
  | .lose, s => { s with counter := none }
  | .database up, s => { s with up }

/-- A call starts or goes on, or the request of a call that returned is
committed with its number. -/
inductive Event where
  | move (m : Move Unit Meanwhile)
  | commit (i : Nat)
  deriving DecidableEq, Repr

variable (year : Nat)

def proceed (w : Calls) : Event → Calls
  | .move m => Pools.next exec (fun _ => generateTrackingNo year) meanwhile w m
  | .commit i =>
    match (w.threads[i]?).bind result? with
    | none => w
    | some no => { w with shared := insert no w.shared }

/-- Before the first call. -/
def opening (s : Registry) : Calls := { shared := s }

/-! ## Where a call stands -/

/-- Where a call stands. -/
inductive Stage where
  | fresh
  /-- Its `INCR` gave 1. -/
  | cold
  /-- It is about to set the counter. -/
  | reseeding (value : Nat)
  /-- It has its number, and is about to set the time to live. -/
  | settling (seq : Nat)
  | returned (seq : Nat)
  | failed
  deriving DecidableEq, Repr

/-- The number of a call that has one. -/
def Stage.number : Stage → Option Nat
  | .settling seq => some seq
  | .returned seq => some seq
  | _ => none

/-- Where the answer of the query leads. -/
def asked : Except Failure (Option String) → Stage
  | .error _ => .failed
  | .ok highest =>
    match recovered highest with
    | none => .settling 1
    | some seq => .reseeding (seq + 1)

/-- Where the reply to a step leads. -/
def Stage.advance : Stage → (c : Command) → c.Reply → Stage
  | .fresh, .incr, seq => if seq = 1 then .cold else .returned seq
  | .cold, .maxTrackingNo _, answer => asked answer
  | .reseeding value, .set _, _ => .settling value
  | .settling seq, .expire _, _ => .returned seq
  | stage, _, _ => stage

/-- The rest of a call that found the counter at 1. -/
def afterCold : Call String := do
  let highest ← maxTrackingNo year
  let seq ← reseed highest
  expire (60 * 60 * 24 * 366)
  pure (trackingNo year seq)

/-- What is left of a call. -/
def Stage.left : Stage → Call String
  | .fresh => generateTrackingNo year
  | .cold => afterCold year
  | .reseeding value => do
    set value
    expire (60 * 60 * 24 * 366)
    pure (trackingNo year value)
  | .settling seq => do
    expire (60 * 60 * 24 * 366)
    pure (trackingNo year seq)
  | .returned seq => pure (trackingNo year seq)
  | .failed => .raise .database

/-- The stage of a call. -/
def stageOf (th : CallThread) : Stage :=
  th.trace.foldr (fun e stage => stage.advance e.1 e.2) .fresh

/-- The number of a call that has one. -/
def chosen (th : CallThread) : Option Nat := (stageOf th).number

theorem chosen_returned {th : CallThread} {seq : Nat} (h : stageOf th = .returned seq) :
    chosen th = some seq := by
  rw [chosen, h]
  rfl

theorem chosen_settling {th : CallThread} {seq : Nat} (h : stageOf th = .settling seq) :
    chosen th = some seq := by
  rw [chosen, h]
  rfl

/-- The numbers chosen so far. -/
def taken (w : Calls) : List Nat := w.threads.filterMap chosen

/-! ## The condition -/

/-- A live counter is not behind the highest number when it is incremented,
and a counter is below the value it is set to. -/
def InOrder (s : Registry) : Command → Prop
  | .incr => ∀ c ∈ s.counter, ∀ m ∈ numbers year s.committed, m ≤ c.value
  | .set value => s.seq < value
  | _ => True

/-- Not between its first step and its last. -/
def Resting (th : CallThread) : Prop := th.next? = none ∨ th.next? = some .incr

/-- What holds before a step that keeps the numbers apart. The counter is lost
between calls, when no number above the highest one is still to be committed. -/
def Steady (w : Calls) : Event → Prop
  | .move (.step i) => ∀ th ∈ w.threads[i]?, ∀ c ∈ th.next?, InOrder year w.shared c
  | .move (.act .lose) => (∀ th ∈ w.threads, Resting th) ∧
      ∀ no ∈ results w, ∀ n ∈ number? no, ∃ m ∈ numbers year w.shared.committed, n ≤ m
  | _ => True

instance (s : Registry) : DecidablePred (InOrder year s) := fun c =>
  match c with
  | .incr => inferInstanceAs (Decidable (∀ c ∈ s.counter, _))
  | .maxTrackingNo _ => .isTrue trivial
  | .set _ => inferInstanceAs (Decidable (_ < _))
  | .expire _ => .isTrue trivial

instance : DecidablePred Resting := fun th =>
  inferInstanceAs (Decidable (th.next? = none ∨ th.next? = some .incr))

instance (w : Calls) : DecidablePred (Steady year w) := fun e =>
  match e with
  | .move (.start _) => .isTrue trivial
  | .move (.step i) => inferInstanceAs (Decidable (∀ th ∈ w.threads[i]?, _))
  | .move (.act .lose) => inferInstanceAs (Decidable ((∀ th ∈ w.threads, Resting th) ∧ _))
  | .move (.act (.database _)) => .isTrue trivial
  | .commit _ => .isTrue trivial

/-! ## A call keeps to its stages -/

section Stages

variable {year}

attribute [local simp] send Prog.issue

theorem asked_left (answer : Except Failure (Option String)) :
    (do
      let highest ← raiseOr answer
      let seq ← reseed highest
      expire (60 * 60 * 24 * 366)
      pure (trackingNo year seq)) = (asked answer).left year := by
  cases answer with
  | error e => rfl
  | ok highest =>
    show (do let seq ← reseed highest; _) = _
    rw [reseed_eq]
    simp only [asked]
    cases recovered highest with
    | none => rfl
    | some seq => rfl

/-- What a reply leaves of a call is what is left at the stage it leads to. -/
theorem left_advance {stage : Stage} {c : Command} {k : c.Reply → Call String}
    (h : stage.left year = .call c k) (r : c.Reply) : k r = (stage.advance c r).left year := by
  cases stage with
  | fresh =>
    cases h
    show (if r = 1 then _ else _) = (if r = 1 then _ else _ : Stage).left year
    split
    · rfl
    · rfl
  | cold =>
    cases h
    exact asked_left r
  | reseeding value =>
    cases h
    rfl
  | settling seq =>
    cases h
    rfl
  | returned seq => cases h
  | failed => cases h

end Stages

/-! ## What one step of a call does -/

/-- One step of a call at a counter and a column, and where it leads. -/
inductive CallStep (s : Registry) : Command → Stage → Stage → Prop
  | cold (h : s.seq = 0) : CallStep s .incr .fresh .cold
  | counted (h : s.seq ≠ 0) : CallStep s .incr .fresh (.returned (s.seq + 1))
  | failed : CallStep s (.maxTrackingNo year) .cold .failed
  | empty (h : recovered (highest year s.committed) = none) :
      CallStep s (.maxTrackingNo year) .cold (.settling 1)
  | found (seq : Nat) (h : recovered (highest year s.committed) = some seq) :
      CallStep s (.maxTrackingNo year) .cold (.reseeding (seq + 1))
  | reseeded (value : Nat) : CallStep s (.set value) (.reseeding value) (.settling value)
  | done (seq seconds : Nat) : CallStep s (.expire seconds) (.settling seq) (.returned seq)

section Step

variable {year} {s : Registry} {c : Command} {stage stage' : Stage}

theorem callStep_of_left {k : c.Reply → Call String} (h : stage.left year = .call c k)
    (s : Registry) : CallStep year s c stage (stage.advance c (exec c s).1) := by
  cases stage with
  | fresh =>
    cases h
    show CallStep year s .incr .fresh (if s.seq + 1 = 1 then .cold else .returned (s.seq + 1))
    by_cases hseq : s.seq = 0
    · rw [if_pos (by omega)]
      exact .cold hseq
    · rw [if_neg (by omega)]
      exact .counted hseq
  | cold =>
    cases h
    show CallStep year s (.maxTrackingNo year) .cold
      (asked (if s.up then .ok (highest year s.committed) else .error .database))
    split
    · simp only [asked]
      cases hrecovered : recovered (highest year s.committed) with
      | none => exact .empty hrecovered
      | some seq => exact .found seq hrecovered
    · exact .failed
  | reseeding value =>
    cases h
    exact .reseeded value
  | settling seq =>
    cases h
    exact .done seq _
  | returned seq => cases h
  | failed => cases h

/-- No step of a call touches the column. -/
theorem exec_committed (c : Command) (s : Registry) : (exec c s).2.committed = s.committed := by
  cases c with
  | incr => rfl
  | maxTrackingNo year => rfl
  | set value => rfl
  | expire seconds => rfl

/-- In order, the counter never goes back. -/
theorem CallStep.seq_le (h : CallStep year s c stage stage') (horder : InOrder year s c) :
    s.seq ≤ (exec c s).2.seq := by
  cases h with
  | cold => exact Nat.le_succ _
  | counted => exact Nat.le_succ _
  | failed => exact Nat.le_refl _
  | empty => exact Nat.le_refl _
  | found => exact Nat.le_refl _
  | reseeded value => exact Nat.le_of_lt horder
  | done => exact Nat.le_of_eq (exec_expire_seq s _).symm

/-- A number that is chosen stays chosen. -/
theorem CallStep.number (h : CallStep year s c stage stage') {seq : Nat}
    (hseq : stage.number = some seq) : stage'.number = some seq := by
  cases h with
  | done => exact hseq
  | _ => cases hseq

/-- A call that is to set the counter has found the highest number. -/
theorem CallStep.aims {value : Nat} (h : CallStep year s c stage (.reseeding value)) :
    ∃ seq, recovered (highest year s.committed) = some seq ∧ value = seq + 1 := by
  cases h with
  | found seq hrecovered => exact ⟨seq, hrecovered, rfl⟩

/-- A call that is to set the time to live has chosen its number just now. -/
theorem CallStep.settles {seq : Nat} (h : CallStep year s c stage (.settling seq)) :
    stage.number = none := by
  cases h with
  | empty => rfl
  | reseeded => rfl

/-- A call returns by its first step, or with the number it had chosen. -/
theorem CallStep.returns {seq : Nat} (h : CallStep year s c stage (.returned seq)) :
    stage.number = none ∨ stage = .settling seq := by
  cases h with
  | counted => exact .inl rfl
  | done => exact .inr rfl

/-- The number a step chooses is above every committed one and not above the
counter; and it is above what the counter was, unless it is the first of all. -/
theorem CallStep.chooses (h : CallStep year s c stage stage') (hfive : FiveDigits year s.committed)
    (horder : InOrder year s c)
    (hcold : stage = .cold → numbers year s.committed = [] → s.seq ≠ 0)
    (hvalue : ∀ value, stage = .reseeding value →
      ∀ m ∈ numbers year s.committed, m < value ∨ m ≤ s.seq)
    {seq : Nat} (hnone : stage.number = none) (hsome : stage'.number = some seq) :
    (∀ m ∈ numbers year s.committed, m < seq) ∧ seq ≤ (exec c s).2.seq ∧
      (s.seq < seq ∨ stage = .cold ∧ seq = 1 ∧ numbers year s.committed = []) := by
  cases h with
  | counted hseq =>
    cases hsome
    refine ⟨fun m hm => ?_, Nat.le_refl _, .inl (Nat.lt_succ_self _)⟩
    obtain ⟨counter, hcounter⟩ : ∃ counter, s.counter = some counter := by
      cases hcounter : s.counter with
      | none => exact absurd (by simp [Registry.seq, hcounter]) hseq
      | some counter => exact ⟨counter, rfl⟩
    have hle : m ≤ counter.value := horder counter hcounter m hm
    simp only [Registry.seq, hcounter, Option.map_some, Option.getD_some]
    omega
  | empty hrecovered =>
    cases hsome
    have hnil := recovered_eq_none hfive hrecovered
    refine ⟨fun m hm => ?_, ?_, .inr ⟨rfl, rfl, hnil⟩⟩
    · rw [hnil] at hm
      cases hm
    · exact Nat.one_le_iff_ne_zero.mpr (hcold rfl hnil)
  | reseeded =>
    cases hsome
    have hlt : s.seq < seq := horder
    refine ⟨fun m hm => ?_, Nat.le_refl _, .inl hlt⟩
    rcases hvalue seq rfl m hm with hm | hm
    · exact hm
    · exact Nat.lt_of_le_of_lt hm hlt
  | done => cases hnone
  | cold => cases hsome
  | failed => cases hsome
  | found => cases hsome

end Step

/-! ## The numbers stay apart -/

/-- It has the first number of the year, or may get it. -/
def Stage.first : Stage → Bool
  | .cold => true
  | stage => stage.number == some 1

variable {year} in
/-- A step makes no call one for the first number, except from a counter that
was not there. -/
theorem CallStep.first {s : Registry} {c : Command} {stage stage' : Stage}
    (h : CallStep year s c stage stage') (haim : ∀ value, stage ≠ .reseeding value) :
    stage'.first.toNat ≤ stage.first.toNat ∨ s.seq = 0 ∧ (exec c s).2.seq = 1 := by
  cases h with
  | cold hseq => exact .inr ⟨hseq, by rw [exec_incr_seq, hseq]⟩
  | counted hseq => exact .inl (by simp [Stage.first, Stage.number, hseq])
  | failed => exact .inl (Nat.zero_le _)
  | empty => exact .inl (Nat.le_refl _)
  | found => exact .inl (Nat.zero_le _)
  | reseeded value => exact absurd rfl (haim value)
  | done => exact .inl (Nat.le_refl _)

/-- What holds of the calls at all times. -/
structure Apart (w : Calls) : Prop where
  placed : ∀ th ∈ w.threads, th.prog = (stageOf th).left year
  distinct : (taken w).Nodup
  bounded : ∀ seq ∈ taken w,
    seq ≤ w.shared.seq ∨ ∃ m ∈ numbers year w.shared.committed, seq ≤ m
  first : numbers year w.shared.committed = [] →
    tally (fun th => (stageOf th).first) w ≤ 1 ∧
      (w.shared.seq = 0 → tally (fun th => (stageOf th).first) w = 0)
  aiming : ∀ th ∈ w.threads, ∀ value, stageOf th = .reseeding value →
    numbers year w.shared.committed ≠ [] ∧
      ∀ m ∈ numbers year w.shared.committed, m < value ∨ m ≤ w.shared.seq
  unused : ∀ th ∈ w.threads, ∀ seq, stageOf th = .settling seq →
    seq ∉ numbers year w.shared.committed

section Apart

variable {year} {w : Calls}

theorem mem_taken {seq : Nat} : seq ∈ taken w ↔ ∃ th ∈ w.threads, chosen th = some seq :=
  List.mem_filterMap

theorem apart_opening (s : Registry) : Apart year (opening s) where
  placed := by simp [opening]
  distinct := List.nodup_nil
  bounded := by simp [opening, taken]
  first := fun _ => ⟨Nat.zero_le _, fun _ => rfl⟩
  aiming := by simp [opening]
  unused := by simp [opening]

/-- A step does nothing, or one call gets a step executed. -/
theorem proceed_step (h : Apart year w) (i : Nat) : proceed year w (.move (.step i)) = w ∨
    ∃ before th th' after c, w.threads[i]? = some th ∧ w.threads = before ++ th :: after ∧
      th.next? = some c ∧ result? th = none ∧
      CallStep year w.shared c (stageOf th) (stageOf th') ∧
      th'.prog = (stageOf th').left year ∧
      proceed year w (.move (.step i)) = ⟨(exec c w.shared).2, before ++ th' :: after⟩ := by
  rcases next_step exec (fun _ => generateTrackingNo year) meanwhile w i with
    heq | ⟨before, th, after, c, k, hth, hthreads, hcall, heq⟩
  · exact .inl heq
  · have hleft : (stageOf th).left year = .call c k := by
      rw [← h.placed th (by simp [hthreads]), hcall]
    have hnext : th.next? = some c := by simp [Thread.next?, hcall]
    have hresult : result? th = none := by simp [result?, hcall]
    exact .inr ⟨before, th, th.goOn c (exec c w.shared).1 (k (exec c w.shared).1), after, c, hth,
      hthreads, hnext, hresult, callStep_of_left hleft w.shared, left_advance hleft _, heq⟩

/-- Where one call goes on, the numbers are those there were and the one it
chooses, if it chooses one. -/
theorem taken_goOn {before after : List CallThread} {th th' : CallThread} (s s' : Registry)
    (hkeep : ∀ seq, chosen th = some seq → chosen th' = some seq) :
    taken ⟨s', before ++ th' :: after⟩ = taken ⟨s, before ++ th :: after⟩ ∨
      ∃ seq, chosen th = none ∧ chosen th' = some seq ∧
        (taken ⟨s', before ++ th' :: after⟩).Perm (seq :: taken ⟨s, before ++ th :: after⟩) := by
  unfold taken
  rw [List.filterMap_append, List.filterMap_append]
  cases hth : chosen th with
  | some seq => exact .inl (by simp [hth, hkeep seq hth])
  | none =>
    cases hth' : chosen th' with
    | none => exact .inl (by simp [hth, hth'])
    | some seq =>
      refine .inr ⟨seq, rfl, rfl, ?_⟩
      rw [List.filterMap_cons_some hth', List.filterMap_cons_none hth]
      exact List.perm_middle

end Apart

/-! ## One call goes on -/

section GoOn

variable {year} {s : Registry} {c : Command} {before after : List CallThread} {th th' : CallThread}

/-- While no number of the year is committed, at most one call has the first
one or may get it. -/
theorem first_alone (h : Apart year ⟨s, before ++ th :: after⟩)
    (hnil : numbers year s.committed = []) (hfirst : (stageOf th).first = true) :
    s.seq ≠ 0 ∧ ∀ x ∈ before ++ after, (stageOf x).first = false := by
  have htally := h.first hnil
  rw [tally_split, hfirst, Bool.toNat_true] at htally
  have hnone : (before ++ after).countP (fun x => (stageOf x).first) = 0 :=
    Nat.le_zero.mp (Nat.le_of_succ_le_succ htally.1)
  refine ⟨fun hzero => ?_, fun x hx => ?_⟩
  · exact absurd (htally.2 hzero) (Nat.succ_ne_zero _)
  · simpa using List.countP_eq_zero.mp hnone x hx

variable (h : Apart year ⟨s, before ++ th :: after⟩) (hfive : FiveDigits year s.committed)
  (horder : InOrder year s c) (hstep : CallStep year s c (stageOf th) (stageOf th'))

include h hfive horder hstep

theorem goOn_chooses {seq : Nat} (hnone : chosen th = none) (hsome : chosen th' = some seq) :
    (∀ m ∈ numbers year s.committed, m < seq) ∧ seq ≤ (exec c s).2.seq ∧
      (s.seq < seq ∨ stageOf th = .cold ∧ seq = 1 ∧ numbers year s.committed = []) := by
  apply hstep.chooses hfive horder _ _ hnone hsome
  · intro hstage hnil
    exact (first_alone h hnil (by rw [hstage]; rfl)).1
  · intro value hvalue
    exact (h.aiming th (by simp) value hvalue).2

/-- A number that is chosen was not. -/
theorem goOn_new {seq : Nat} (hnone : chosen th = none) (hsome : chosen th' = some seq) :
    seq ∉ taken ⟨s, before ++ th :: after⟩ := by
  intro hin
  obtain ⟨habove, -, hnew⟩ := goOn_chooses h hfive horder hstep hnone hsome
  rcases hnew with hlt | ⟨hstage, rfl, hnil⟩
  · rcases h.bounded seq hin with hseq | ⟨m, hm, hseq⟩
    · exact absurd hlt (Nat.not_lt_of_le hseq)
    · exact absurd (habove m hm) (Nat.not_lt_of_le hseq)
  · -- the query found no number, and no other call has the first one
    obtain ⟨x, hx, hchosen⟩ := mem_taken.mp hin
    have hother := (first_alone h hnil (by rw [hstage]; rfl)).2
    have hfirst : (stageOf x).first = true := by
      unfold chosen at hchosen
      cases hstageOf : stageOf x <;> simp_all [Stage.first, Stage.number]
    have hne : x ≠ th := by
      rintro rfl
      rw [hnone] at hchosen
      cases hchosen
    have hin : x ∈ before ++ after := by simpa [hne] using hx
    rw [hother x hin] at hfirst
    cases hfirst

theorem distinct_goOn : (taken ⟨(exec c s).2, before ++ th' :: after⟩).Nodup := by
  rcases taken_goOn s (exec c s).2 fun seq hseq => hstep.number hseq with
    heq | ⟨seq, hnone, hsome, hperm⟩
  · rw [heq]
    exact h.distinct
  · rw [hperm.nodup_iff, List.nodup_cons]
    exact ⟨goOn_new h hfive horder hstep hnone hsome, h.distinct⟩

theorem bounded_goOn : ∀ seq ∈ taken ⟨(exec c s).2, before ++ th' :: after⟩,
    seq ≤ (exec c s).2.seq ∨ ∃ m ∈ numbers year s.committed, seq ≤ m := by
  have hle := hstep.seq_le horder
  have hold : ∀ seq ∈ taken ⟨s, before ++ th :: after⟩,
      seq ≤ (exec c s).2.seq ∨ ∃ m ∈ numbers year s.committed, seq ≤ m :=
    fun seq hin => (h.bounded seq hin).imp_left (Nat.le_trans · hle)
  rcases taken_goOn s (exec c s).2 fun seq hseq => hstep.number hseq with
    heq | ⟨seq, hnone, hsome, hperm⟩
  · rw [heq]
    exact hold
  · intro seq' hin
    rcases List.mem_cons.mp (hperm.mem_iff.mp hin) with rfl | hin
    · exact .inl (goOn_chooses h hfive horder hstep hnone hsome).2.1
    · exact hold seq' hin

omit hfive in
theorem first_goOn (hnil : numbers year s.committed = []) :
    tally (fun th => (stageOf th).first) ⟨(exec c s).2, before ++ th' :: after⟩ ≤ 1 ∧
      ((exec c s).2.seq = 0 →
        tally (fun th => (stageOf th).first) ⟨(exec c s).2, before ++ th' :: after⟩ = 0) := by
  obtain ⟨hone, hzero⟩ := h.first hnil
  have hgoOn := tally_goOn (fun th => (stageOf th).first) before after th s (exec c s).2 th'
  have hmove := hstep.first fun value hvalue => (h.aiming th (by simp) value hvalue).1 hnil
  have hle := hstep.seq_le horder
  constructor
  · rcases hmove with hmove | ⟨hseq, -⟩
    · omega
    · have htally := hzero hseq
      have hbool := Bool.toNat_le (stageOf th').first
      omega
  · intro hseq'
    have htally := hzero (by simp only; omega)
    omega

theorem aiming_goOn : ∀ x ∈ before ++ th' :: after, ∀ value, stageOf x = .reseeding value →
    numbers year s.committed ≠ [] ∧
      ∀ m ∈ numbers year s.committed, m < value ∨ m ≤ (exec c s).2.seq := by
  intro x hx value hvalue
  rcases Tables.mem_exchange hx with rfl | hx
  · rw [hvalue] at hstep
    obtain ⟨seq, hrecovered, rfl⟩ := hstep.aims
    obtain ⟨hin, hgreatest⟩ := recovered_eq_some hfive hrecovered
    exact ⟨List.ne_nil_of_mem hin, fun m hm => .inl (Nat.lt_succ_of_le (hgreatest m hm))⟩
  · obtain ⟨hne, habove⟩ := h.aiming x hx value hvalue
    exact ⟨hne, fun m hm => (habove m hm).imp_right (Nat.le_trans · (hstep.seq_le horder))⟩

theorem unused_goOn : ∀ x ∈ before ++ th' :: after, ∀ seq, stageOf x = .settling seq →
    seq ∉ numbers year s.committed := by
  intro x hx seq hseq
  rcases Tables.mem_exchange hx with rfl | hx
  · have hnone : chosen th = none := by
      rw [hseq] at hstep
      exact hstep.settles
    have hsome : chosen x = some seq := chosen_settling hseq
    intro hin
    exact absurd ((goOn_chooses h hfive horder hstep hnone hsome).1 seq hin) (lt_irrefl seq)
  · exact h.unused x hx seq hseq

/-- What the step of a call keeps, if it comes in order. -/
theorem apart_goOn (hplaced : th'.prog = (stageOf th').left year) :
    Apart year ⟨(exec c s).2, before ++ th' :: after⟩ where
  placed := by
    intro x hx
    rcases Tables.mem_exchange hx with rfl | hx
    · exact hplaced
    · exact h.placed x hx
  distinct := distinct_goOn h hfive horder hstep
  bounded := by
    rw [exec_committed]
    exact bounded_goOn h hfive horder hstep
  first := by
    rw [exec_committed]
    exact first_goOn h horder hstep
  aiming := by
    rw [exec_committed]
    exact aiming_goOn h hfive horder hstep
  unused := by
    rw [exec_committed]
    exact unused_goOn h hfive horder hstep

end GoOn

/-! ## What every event keeps -/

section Events

variable {year} {w : Calls}

theorem left_eq_pure {stage : Stage} {no : String} :
    stage.left year = .pure no ↔ ∃ seq, stage = .returned seq ∧ no = trackingNo year seq := by
  constructor
  · intro h
    cases stage with
    | returned seq =>
      cases h
      exact ⟨seq, rfl, rfl⟩
    | fresh => cases h
    | cold => cases h
    | reseeding value => cases h
    | settling seq => cases h
    | failed => cases h
  · rintro ⟨seq, rfl, rfl⟩
    rfl

/-- A call that is through returned the number it chose. -/
theorem result?_eq_some_iff {th : CallThread} (hplaced : th.prog = (stageOf th).left year)
    {no : String} :
    result? th = some no ↔ ∃ seq, stageOf th = .returned seq ∧ no = trackingNo year seq := by
  rw [result?_eq_some, hplaced, left_eq_pure]

/-- A call at rest that has a number returned it. -/
theorem resting_stage {th : CallThread} (hplaced : th.prog = (stageOf th).left year)
    (h : Resting th) :
    stageOf th = .fresh ∨ stageOf th = .failed ∨ ∃ seq, stageOf th = .returned seq := by
  have hnext : th.next? = none ∨ th.next? = some .incr := h
  unfold Thread.next? at hnext
  rw [hplaced] at hnext
  cases hstage : stageOf th with
  | fresh => exact .inl rfl
  | failed => exact .inr (.inl rfl)
  | returned seq => exact .inr (.inr ⟨seq, rfl⟩)
  | cold =>
    rw [hstage] at hnext
    rcases hnext with h | h
    · cases h
    · cases h
  | reseeding value =>
    rw [hstage] at hnext
    rcases hnext with h | h
    · cases h
    · cases h
  | settling seq =>
    rw [hstage] at hnext
    rcases hnext with h | h
    · cases h
    · cases h

/-- A call that starts is the only new one. -/
theorem mem_start {u : Unit} {th : CallThread}
    (hth : th ∈ (proceed year w (.move (.start u))).threads) :
    th ∈ w.threads ∨ stageOf th = .fresh ∧ th.prog = Stage.fresh.left year := by
  rcases List.mem_append.mp hth with hth | hth
  · exact .inl hth
  · rw [List.mem_singleton.mp hth]
    exact .inr ⟨rfl, rfl⟩

theorem apart_start (h : Apart year w) (u : Unit) : Apart year (proceed year w (.move (.start u))) := by
  have htaken : taken (proceed year w (.move (.start u))) = taken w := by
    show (w.threads ++ [_]).filterMap chosen = _
    rw [List.filterMap_append, List.filterMap_cons_none rfl, List.filterMap_nil, List.append_nil]
    rfl
  constructor
  case placed =>
    intro th hth
    rcases mem_start hth with hth | ⟨hstage, hprog⟩
    · exact h.placed th hth
    · rw [hstage, hprog]
  case distinct =>
    rw [htaken]
    exact h.distinct
  case bounded =>
    rw [htaken]
    exact h.bounded
  case first =>
    intro hnil
    have htally : tally (fun th => (stageOf th).first) (proceed year w (.move (.start u))) =
        tally (fun th => (stageOf th).first) w := by
      unfold proceed
      rw [tally_start]
      rfl
    rw [htally]
    exact h.first hnil
  case aiming =>
    intro th hth value hvalue
    rcases mem_start hth with hth | ⟨hstage, -⟩
    · exact h.aiming th hth value hvalue
    · rw [hstage] at hvalue
      cases hvalue
  case unused =>
    intro th hth seq hseq
    rcases mem_start hth with hth | ⟨hstage, -⟩
    · exact h.unused th hth seq hseq
    · rw [hstage] at hseq
      cases hseq

theorem apart_lose (h : Apart year w) (hsteady : Steady year w (.move (.act .lose))) :
    Apart year (proceed year w (.move (.act .lose))) := by
  obtain ⟨hresting, hcovered⟩ := hsteady
  have hstage : ∀ th ∈ w.threads, _ := fun th hth =>
    resting_stage (h.placed th hth) (hresting th hth)
  -- what was chosen was returned, so it is covered
  have hbounded : ∀ seq ∈ taken w, ∃ m ∈ numbers year w.shared.committed, seq ≤ m := by
    intro seq hin
    obtain ⟨th, hth, hchosen⟩ := mem_taken.mp hin
    unfold chosen at hchosen
    rcases hstage th hth with hfresh | hfailed | ⟨seq', hreturned⟩
    · rw [hfresh] at hchosen
      cases hchosen
    · rw [hfailed] at hchosen
      cases hchosen
    · rw [hreturned] at hchosen
      cases hchosen
      have hresult := (result?_eq_some_iff (h.placed th hth)).mpr ⟨seq, hreturned, rfl⟩
      exact hcovered _ (List.mem_filterMap.mpr ⟨th, hth, hresult⟩) seq (number?_trackingNo seq)
  constructor
  case placed => exact h.placed
  case distinct => exact h.distinct
  case bounded => exact fun seq hin => .inr (hbounded seq hin)
  case first =>
    intro hnil
    have hzero : tally (fun th => (stageOf th).first) w = 0 := by
      rw [tally, List.countP_eq_zero]
      intro th hth hfirst
      rcases hstage th hth with hfresh | hfailed | ⟨seq, hreturned⟩
      · rw [hfresh] at hfirst
        cases hfirst
      · rw [hfailed] at hfirst
        cases hfirst
      · have hin : seq ∈ taken w := mem_taken.mpr ⟨th, hth, chosen_returned hreturned⟩
        obtain ⟨m, hm, -⟩ := hbounded seq hin
        have hm' : m ∈ numbers year w.shared.committed := hm
        rw [show numbers year w.shared.committed = [] from hnil] at hm'
        cases hm'
    exact ⟨hzero.trans_le (Nat.zero_le 1), fun _ => hzero⟩
  case aiming =>
    intro th hth value hvalue
    rcases hstage th hth with hfresh | hfailed | ⟨seq, hreturned⟩ <;> simp_all
  case unused => exact h.unused

theorem apart_commit (h : Apart year w) (i : Nat) : Apart year (proceed year w (.commit i)) := by
  cases hresult : (w.threads[i]?).bind result? with
  | none =>
    have heq : proceed year w (.commit i) = w := by simp [proceed, hresult]
    rw [heq]
    exact h
  | some no =>
    obtain ⟨th, hget, hno⟩ := Option.bind_eq_some_iff.mp hresult
    have hth : th ∈ w.threads := List.mem_of_getElem? hget
    obtain ⟨seq, hreturned, rfl⟩ := (result?_eq_some_iff (h.placed th hth)).mp hno
    have hchosen : chosen th = some seq := chosen_returned hreturned
    have heq : proceed year w (.commit i) =
        { w with shared := insert (trackingNo year seq) w.shared } := by simp [proceed, hresult]
    have hseq : (insert (trackingNo year seq) w.shared).seq = w.shared.seq := by
      unfold insert
      split
      · rfl
      · rfl
    have hin : seq ∈ numbers year (insert (trackingNo year seq) w.shared).committed :=
      mem_numbers_insert.mpr (.inr rfl)
    rw [heq]
    constructor
    case placed => exact h.placed
    case distinct => exact h.distinct
    case bounded =>
      intro x hx
      show x ≤ (insert _ _).seq ∨ _
      rw [hseq]
      rcases h.bounded x hx with hle | ⟨m, hm, hle⟩
      · exact .inl hle
      · exact .inr ⟨m, mem_numbers_insert.mpr (.inl hm), hle⟩
    case first =>
      intro hnil
      exact absurd hnil (List.ne_nil_of_mem hin)
    case aiming =>
      intro x hx value hvalue
      refine ⟨List.ne_nil_of_mem hin, fun m hm => ?_⟩
      show m < value ∨ m ≤ (insert _ _).seq
      rw [hseq]
      have habove := (h.aiming x hx value hvalue).2
      rcases mem_numbers_insert.mp hm with hm | rfl
      · exact habove m hm
      · -- a number that was handed out is not above both
        rcases h.bounded m (mem_taken.mpr ⟨th, hth, hchosen⟩) with hle | ⟨m', hm', hle⟩
        · exact .inr hle
        · exact (habove m' hm').imp (Nat.lt_of_le_of_lt hle) (Nat.le_trans hle)
    case unused =>
      intro x hx seq' hseq' hin'
      rcases mem_numbers_insert.mp hin' with hin' | rfl
      · exact h.unused x hx seq' hseq' hin'
      · have hsame : x = th := Tables.eq_of_filterMap h.distinct hx hth (chosen_settling hseq')
          hchosen
        rw [hsame, hreturned] at hseq'
        cases hseq'

/-- What every event keeps, if it comes in order. -/
theorem apart_proceed (h : Apart year w) (hfive : FiveDigits year w.shared.committed) {e : Event}
    (hsteady : Steady year w e) : Apart year (proceed year w e) := by
  match e with
  | .move (.start u) => exact apart_start h u
  | .move (.step i) =>
    rcases proceed_step h i with
      heq | ⟨before, th, th', after, c, hth, hthreads, hnext, -, hstep, hplaced, heq⟩
    · rw [heq]
      exact h
    · rw [heq]
      obtain ⟨s, threads⟩ := w
      subst hthreads
      exact apart_goOn h hfive (hsteady th hth c hnext) hstep hplaced
  | .move (.act .lose) => exact apart_lose h hsteady
  | .move (.act (.database up)) => exact ⟨h.placed, h.distinct, h.bounded, h.first, h.aiming, h.unused⟩
  | .commit i => exact apart_commit h i

end Events

/-! ## No collision -/

/-- No two calls return one number, and what a call returns is the number it
chose. -/
structure Unique (w : Calls) : Prop where
  distinct : (results w).Nodup
  chosen : ∀ no ∈ results w, ∃ seq ∈ taken w, no = trackingNo year seq

/-- What a call returns is not committed yet, and a call chooses a number
above every committed one. -/
structure Above (w : Calls) (e : Event) : Prop where
  uncommitted : ∀ no ∈ results (proceed year w e), no ∈ results w ∨ no ∉ w.shared.committed
  continues : ∀ seq ∈ taken (proceed year w e), seq ∈ taken w ∨
    ∀ m ∈ numbers year w.shared.committed, m < seq

section Unique

variable {year} {w : Calls}

theorem unique_of_apart (h : Apart year w) : Unique year w where
  distinct := by
    apply List.pairwise_filterMap.mpr
    apply (List.pairwise_filterMap.mp h.distinct).imp_of_mem
    intro a b ha hb hdistinct no hno no' hno'
    obtain ⟨seq, hseq, rfl⟩ := (result?_eq_some_iff (h.placed a ha)).mp hno
    obtain ⟨seq', hseq', rfl⟩ := (result?_eq_some_iff (h.placed b hb)).mp hno'
    have hne := hdistinct seq (chosen_returned hseq) seq' (chosen_returned hseq')
    exact fun heq => hne (trackingNo_injective year heq)
  chosen := by
    intro no hin
    obtain ⟨th, hth, hno⟩ := List.mem_filterMap.mp hin
    obtain ⟨seq, hseq, rfl⟩ := (result?_eq_some_iff (h.placed th hth)).mp hno
    exact ⟨seq, mem_taken.mpr ⟨th, hth, chosen_returned hseq⟩, rfl⟩

/-- The number a call returns by a step in order is not committed. -/
theorem goOn_uncommitted {s : Registry} {c : Command} {before after : List CallThread}
    {th th' : CallThread} (h : Apart year ⟨s, before ++ th :: after⟩)
    (hfive : FiveDigits year s.committed) (horder : InOrder year s c)
    (hstep : CallStep year s c (stageOf th) (stageOf th')) {seq : Nat}
    (hreturned : stageOf th' = .returned seq) : trackingNo year seq ∉ s.committed := by
  intro hin
  have hnumber := mem_numbers_of_mem hin
  have hstep' := hstep
  rw [hreturned] at hstep'
  rcases hstep'.returns with hnone | hstage
  · have habove := (goOn_chooses h hfive horder hstep hnone (chosen_returned hreturned)).1
    exact absurd (habove seq hnumber) (lt_irrefl seq)
  · exact h.unused th (by simp) seq hstage hnumber

theorem above_of_apart (h : Apart year w) (hfive : FiveDigits year w.shared.committed) {e : Event}
    (hsteady : Steady year w e) : Above year w e := by
  match e with
  | .move (.start u) =>
    constructor
    · intro no hin
      obtain ⟨th, hth, hno⟩ := List.mem_filterMap.mp hin
      rcases mem_start hth with hth | ⟨-, hprog⟩
      · exact .inl (List.mem_filterMap.mpr ⟨th, hth, hno⟩)
      · rw [result?_eq_some, hprog] at hno
        cases hno
    · intro seq hin
      obtain ⟨th, hth, hseq⟩ := mem_taken.mp hin
      rcases mem_start hth with hth | ⟨hstage, -⟩
      · exact .inl (mem_taken.mpr ⟨th, hth, hseq⟩)
      · rw [Tracking.chosen, hstage] at hseq
        cases hseq
  | .move (.step i) =>
    rcases proceed_step h i with
      heq | ⟨before, th, th', after, c, hth, hthreads, hnext, hresult, hstep, hplaced, heq⟩
    · constructor
      · rw [heq]
        exact fun no hin => .inl hin
      · rw [heq]
        exact fun seq hin => .inl hin
    · obtain ⟨s, threads⟩ := w
      subst hthreads
      have horder : InOrder year s c := hsteady th hth c hnext
      constructor
      · intro no hin
        rw [heq] at hin
        obtain ⟨x, hx, hno⟩ := List.mem_filterMap.mp hin
        rcases Tables.mem_exchange hx with rfl | hx
        · obtain ⟨seq, hreturned, rfl⟩ := (result?_eq_some_iff hplaced).mp hno
          exact .inr (goOn_uncommitted h hfive horder hstep hreturned)
        · exact .inl (List.mem_filterMap.mpr ⟨x, hx, hno⟩)
      · intro seq hin
        rw [heq] at hin
        rcases taken_goOn s (exec c s).2 fun seq hseq => hstep.number hseq with
          hsame | ⟨seq', hnone, hsome, hperm⟩
        · rw [hsame] at hin
          exact .inl hin
        · rcases List.mem_cons.mp (hperm.mem_iff.mp hin) with rfl | hin
          · exact .inr (goOn_chooses h hfive horder hstep hnone hsome).1
          · exact .inl hin
  | .move (.act a) => exact ⟨fun no hin => .inl hin, fun seq hin => .inl hin⟩
  | .commit i =>
    have hthreads : (proceed year w (.commit i)).threads = w.threads := by
      simp only [proceed]
      split
      · rfl
      · rfl
    constructor
    · intro no hin
      rw [results, hthreads] at hin
      exact .inl hin
    · intro seq hin
      rw [taken, hthreads] at hin
      exact .inl hin

end Unique

/-- While the numbers of the year have five digits: if no call increments a
live counter that is behind the highest number, no call sets the counter to
what it has reached already, and the counter is lost only between calls when
no number above the highest one is still to be committed, then the numbers the
calls return are pairwise distinct, none of them is committed yet, and each is
chosen above every committed one, also after a failed query. -/
theorem tracking_numbers_distinct (s : Registry) (events : List Event)
    (h : Along (proceed year)
      (fun w e => FiveDigits year w.shared.committed ∧ Steady year w e) (opening s) events) :
    Always (proceed year) (Unique year) (opening s) events ∧
      Along (proceed year) (Above year) (opening s) events := by
  have hkeep : ∀ w e, Apart year w → FiveDigits year w.shared.committed ∧ Steady year w e →
      Apart year (proceed year w e) := fun _ _ hw hC => apart_proceed hw hC.1 hC.2
  have habove : ∀ w e, Apart year w → FiveDigits year w.shared.committed ∧ Steady year w e →
      Above year w e := fun _ _ hw hC => above_of_apart hw hC.1 hC.2
  exact ⟨always_of_invariant_along hkeep (fun _ => unique_of_apart) (apart_opening s) h,
    along_of_invariant hkeep habove (apart_opening s) h⟩

/-- A call that seeds a flushed counter and one that counts on, both
committed; a second flush, at which a query fails; a third, and one more
call. -/
def patient : List Event :=
  [.move (.start ()), .move (.step 0), .move (.step 0), .move (.step 0), .move (.step 0),
    .commit 0, .move (.start ()), .move (.step 1), .commit 1,
    .move (.act .lose), .move (.act (.database false)), .move (.start ()), .move (.step 2),
    .move (.step 2), .move (.act (.database true)), .move (.act .lose),
    .move (.start ()), .move (.step 3), .move (.step 3), .move (.step 3), .move (.step 3)]

theorem tracking_numbers_distinct_patient :
    let s : Registry := { counter := none, committed := ["REQ-2025-00042", "REQ-2024-00077"] }
    Always (proceed 2025) (Unique 2025) (opening s) patient ∧
      Along (proceed 2025) (Above 2025) (opening s) patient ∧
      results (run (proceed 2025) (opening s) patient) =
        ["REQ-2025-00043", "REQ-2025-00044", "REQ-2025-00045"] :=
  have h := tracking_numbers_distinct 2025
    { counter := none, committed := ["REQ-2025-00042", "REQ-2024-00077"] } patient
    (by decide +kernel)
  ⟨h.1, h.2, by decide +kernel⟩

/-- A column of two numbers, and a flushed Redis. -/
def flushed : Registry :=
  { counter := none, committed := ["REQ-2025-00001", "REQ-2025-00002"] }

/-- Two calls at once after a flush: the second goes on from the counter the
first has not seeded yet. -/
def race : List Event :=
  [.move (.start ()), .move (.start ()), .move (.step 0), .move (.step 1)]

/-- A call after a flush whose query fails, and the next call. -/
def outage : List Event :=
  [.move (.start ()), .move (.act (.database false)), .move (.step 0), .move (.step 0),
    .move (.act (.database true)), .move (.start ()), .move (.step 1)]

/-- Both ways a number that is committed is handed out again. -/
theorem cold_counter_handed_out :
    Along (proceed 2025) (fun w _ => FiveDigits 2025 w.shared.committed) (opening flushed) race ∧
      Along (proceed 2025) (fun w _ => FiveDigits 2025 w.shared.committed)
        (opening flushed) outage ∧
      .move (.act .lose) ∉ race ∧ .move (.act .lose) ∉ outage ∧
      "REQ-2025-00002" ∈ flushed.committed ∧
      "REQ-2025-00002" ∈ results (run (proceed 2025) (opening flushed) race) ∧
      "REQ-2025-00002" ∈ results (run (proceed 2025) (opening flushed) outage) := by
  decide +kernel

end Royd.Tracking
