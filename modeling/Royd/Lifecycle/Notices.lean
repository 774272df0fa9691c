/-
Royd.Lifecycle.Notices — a request is warned about once per stage.

The sweep marks a request when it notices it, and leaving `returned` may
clear the marks. `Life.Noted` couples the marks with the notices in the
history: a breach mark lies behind the deadline and before every pause, so
the working time left at the pause is nothing and the mark stays.
-/
import Royd.Lifecycle.Acts
import Royd.Lifecycle.History
import Royd.Sla.CalendarTheorems

namespace Royd

open Api

/-! ## Notices in a history -/

/-- The words a notice's comment starts with. -/
def noticeMarker (breached : Bool) : String :=
  if breached then "[sla-breach]" else "[sla-warning]"

/-- The entry `_notify` leaves, once for every notice it sends. -/
def RequestHistory.isNotice (breached : Bool) (e : RequestHistory) : Bool :=
  e.changedBy.isNone && e.oldStatus == some e.newStatus &&
    e.comment.any fun text => (noticeMarker breached).toList.isPrefixOf text.toList

/-- The entry of a request that goes back to work. -/
def RequestHistory.isResumption (e : RequestHistory) : Bool :=
  e.oldStatus == some .returned && e.newStatus == .inProgress

/-- The notices in a history, of either kind. -/
def noticesIn (hs : List RequestHistory) : List RequestHistory :=
  hs.filter fun e => e.isNotice true || e.isNotice false

/-- The warnings in a history, and the resumptions between them. -/
def warningsIn (hs : List RequestHistory) : List RequestHistory :=
  hs.filter fun e => e.isNotice false || e.isResumption

theorem not_isNotice_of_signed {e : RequestHistory} (h : e.changedBy.isSome = true)
    (breached : Bool) : e.isNotice breached = false := by
  cases hby : e.changedBy with
  | none =>
    rw [hby] at h
    cases h
  | some _ => simp [RequestHistory.isNotice, hby]

theorem not_isNotice_of_moved {e : RequestHistory} {old : RequestStatus}
    (h : e.oldStatus = some old) (hne : old ≠ e.newStatus) (breached : Bool) :
    e.isNotice breached = false := by
  simp [RequestHistory.isNotice, h, hne]

theorem not_isResumption_of_same {e : RequestHistory} (h : e.oldStatus = some e.newStatus) :
    e.isResumption = false := by
  unfold RequestHistory.isResumption
  rw [h]
  cases e.newStatus <;> decide

/-- A comment tells the two kinds of notice apart. -/
theorem isNotice_marked {e : RequestHistory} {breached : Bool} {body : String}
    (hby : e.changedBy = none) (hold : e.oldStatus = some e.newStatus)
    (hcomment : e.comment = some (noticeMarker breached ++ " " ++ body)) (b : Bool) :
    e.isNotice b = (b == breached) := by
  unfold RequestHistory.isNotice
  rw [hby, hold, hcomment]
  simp only [Option.isNone_none, BEq.rfl, Bool.and_self, Bool.true_and, Option.any_some,
    String.toList_append]
  cases b <;> cases breached <;>
    simp [noticeMarker, List.isPrefixOf]

/-! ## The marks of a request -/

variable {cfg : Settings} {now : Int}

/-- What `_apply_status` does to the marks: it clears them when work resumes
with working time left, and else leaves them as they are. -/
inductive MarksApplied (cfg : Settings) (r : Request) (target : RequestStatus) (r' : Request) : Prop
  | kept (warned : r'.slaWarnedAt = r.slaWarnedAt) (breached : r'.slaBreachedAt = r.slaBreachedAt)
      (deadline : r'.slaDeadline = r.slaDeadline) : MarksApplied cfg r target r'
  | cleared {p : Int} (returned : r.status = .returned) (leaves : target ≠ .returned)
      (paused : r.slaPausedAt = some p)
      (left : 0 < Sla.workingTimeBetween cfg.cal p r.slaDeadline)
      (breached : r'.slaBreachedAt = none) : MarksApplied cfg r target r'

theorem setClock_marks {r r' : Request} {target : RequestStatus}
    (h : setClock cfg r target now = .ok r') : MarksApplied cfg r target r' := by
  unfold setClock at h
  split at h
  · cases h
    exact .kept rfl rfl rfl
  split at h
  · rename_i hleaves
    obtain ⟨hreturned, hne⟩ := hleaves
    unfold resumeClock at h
    split at h
    · cases h
      exact .kept rfl rfl rfl
    rename_i p hp
    dsimp only at h
    split at h
    · rename_i hleft
      obtain ⟨_, _, h⟩ := bind_eq_ok.mp h
      cases h
      exact .cleared hreturned hne hp hleft rfl
    · cases h
      exact .kept rfl rfl rfl
  · cases h
    exact .kept rfl rfl rfl

theorem applyStatus_marks {r r' : Request} {target : RequestStatus}
    (h : applyStatus cfg r target now = .ok r') : MarksApplied cfg r target r' := by
  obtain ⟨mid, hmid, h⟩ := bind_eq_ok.mp h
  cases h
  cases setClock_marks hmid with
  | kept warned breached deadline => exact .kept warned breached deadline
  | cleared returned leaves paused left breached =>
    exact .cleared returned leaves paused left breached

/-- A pause begins now, or is the one there was. -/
theorem applyStatus_paused {r r' : Request} {target : RequestStatus}
    (h : applyStatus cfg r target now = .ok r') {p : Int} (hp : r'.slaPausedAt = some p) :
    r.slaPausedAt = some p ∨ p = now := by
  have happlied := applyStatus_eq_ok h
  by_cases htarget : target = .returned
  · rw [(happlied.returned htarget).1, Option.or_eq_some_iff] at hp
    rcases hp with hp | ⟨-, hp⟩
    · exact .inl hp
    · exact .inr (Option.some.inj hp).symm
  by_cases hreturned : r.status = .returned
  · rw [(happlied.resumed htarget hreturned).1] at hp
    cases hp
  · rw [(happlied.kept htarget hreturned).1] at hp
    exact .inl hp

/-- At instant `t`, when a request counts as overdue: its deadline lay behind
before it was marked, and every pause is later than the mark. -/
structure Overdue (t : Int) (r : Request) : Prop where
  behind : ∀ b, r.slaBreachedAt = some b → r.slaDeadline < b
  past : ∀ b, r.slaBreachedAt = some b → b ≤ t
  unpaused : ∀ b, r.slaBreachedAt = some b → ∀ p, r.slaPausedAt = some p → b ≤ p

/-- No working time is left at the pause of an overdue request. -/
theorem Overdue.spent {t b p : Int} {r : Request} (h : Overdue t r)
    (hb : r.slaBreachedAt = some b) (hp : r.slaPausedAt = some p) :
    Sla.workingTimeBetween cfg.cal p r.slaDeadline = 0 := by
  have hbehind := h.behind b hb
  have hpause := h.unpaused b hb p hp
  rw [Sla.workingTimeBetween_eq]
  exact IntervalCount.count_of_le _ (by omega)

/-- The mark of a breach survives every change of status. -/
theorem Overdue.keeps {t : Int} {r r' : Request} {target : RequestStatus} (h : Overdue t r)
    (hmarks : MarksApplied cfg r target r') {b : Int} (hb : r.slaBreachedAt = some b) :
    r'.slaBreachedAt = some b ∧ r'.slaDeadline = r.slaDeadline := by
  cases hmarks with
  | kept warned breached deadline => exact ⟨breached.trans hb, deadline⟩
  | cleared returned leaves paused left breached =>
    rw [h.spent hb paused] at left
    exact absurd left (lt_irrefl 0)

theorem Overdue.apply {t : Int} {r r' : Request} {target : RequestStatus} (h : Overdue t r)
    (ht : t ≤ now) (hmarks : MarksApplied cfg r target r')
    (hpaused : ∀ p, r'.slaPausedAt = some p → r.slaPausedAt = some p ∨ p = now) :
    Overdue now r' := by
  have hold : ∀ b, r'.slaBreachedAt = some b → r.slaBreachedAt = some b ∧
      r'.slaDeadline = r.slaDeadline := by
    intro b hb
    cases hmarks with
    | kept warned breached deadline => exact ⟨breached ▸ hb, deadline⟩
    | cleared returned leaves paused left breached =>
      rw [breached] at hb
      cases hb
  constructor
  · intro b hb
    obtain ⟨hb, hdeadline⟩ := hold b hb
    rw [hdeadline]
    exact h.behind b hb
  · intro b hb
    exact (h.past b (hold b hb).1).trans ht
  · intro b hb p hp
    obtain ⟨hb, -⟩ := hold b hb
    rcases hpaused p hp with hp | rfl
    · exact h.unpaused b hb p hp
    · exact (h.past b hb).trans ht

/-! ## Marks and notices -/

/-- At instant `t`: the marks of a request tell which notices its history
holds. -/
structure Noted (t : Int) (r : Request) (hs : List RequestHistory) : Prop where
  overdue : Overdue t r
  breachLast : (noticesIn hs).Pairwise fun a _ => a.isNotice true = false
  unbreached : r.slaBreachedAt = none → ∀ e ∈ hs, e.isNotice true = false
  apart : (warningsIn hs).IsChain fun a b => a.isNotice false = true → b.isNotice false = false
  unwarned : r.slaWarnedAt = none → r.status ≠ .completed →
    ∀ e ∈ (warningsIn hs).getLast?, e.isNotice false = false

theorem Noted.advance {t : Int} {r : Request} {hs : List RequestHistory} (h : Noted t r hs)
    (ht : t ≤ now) : Noted now r hs :=
  { h with overdue := ⟨h.overdue.behind, fun b hb => (h.overdue.past b hb).trans ht,
      h.overdue.unpaused⟩ }

theorem noticesIn_append (hs es : List RequestHistory) :
    noticesIn (hs ++ es) = noticesIn hs ++ noticesIn es :=
  List.filter_append ..

theorem warningsIn_append (hs es : List RequestHistory) :
    warningsIn (hs ++ es) = warningsIn hs ++ warningsIn es :=
  List.filter_append ..

/-- Entries of which none is a notice. -/
def Unnoticed (es : List RequestHistory) : Prop := ∀ b, ∀ e ∈ es, e.isNotice b = false

theorem Unnoticed.nil {es : List RequestHistory} (h : Unnoticed es) : noticesIn es = [] :=
  List.filter_eq_nil_iff.mpr fun e he => by simp [h true e he, h false e he]

/-- Entries without a notice keep the bookkeeping, as long as a missing mark
is one that was missing before or was cleared by a resumption. -/
theorem Noted.unnoticed {t : Int} {r r' : Request} {hs es : List RequestHistory}
    (h : Noted t r hs) (hes : Unnoticed es) (hoverdue : Overdue now r')
    (hbreached : r'.slaBreachedAt = none → r.slaBreachedAt = none ∨
      ∀ e ∈ hs, e.isNotice true = false)
    (hwarned : r'.slaWarnedAt = none → r'.status ≠ .completed →
      (r.slaWarnedAt = none ∧ r.status ≠ .completed) ∨ ∃ e ∈ es, e.isResumption = true) :
    Noted now r' (hs ++ es) := by
  have hquiet : ∀ e ∈ warningsIn es, e.isNotice false = false :=
    fun e he => hes false e (List.mem_filter.mp he).1
  constructor
  · exact hoverdue
  · rw [noticesIn_append, hes.nil, List.append_nil]
    exact h.breachLast
  · intro hnone e he
    rcases List.mem_append.mp he with he | he
    · rcases hbreached hnone with hold | hold
      · exact h.unbreached hold e he
      · exact hold e he
    · exact hes true e he
  · rw [warningsIn_append, List.isChain_append]
    refine ⟨h.apart, ?_, fun a _ b hb _ => hquiet b (List.mem_of_head? hb)⟩
    apply List.Pairwise.isChain
    apply List.pairwise_of_forall_mem_list
    exact fun a _ b hb _ => hquiet b hb
  · intro hnone hopen e he
    rw [warningsIn_append] at he
    cases hlast : (warningsIn es).getLast? with
    | some e' =>
      rw [List.getLast?_append, hlast, Option.some_or, Option.mem_some_iff] at he
      subst he
      exact hquiet _ (List.mem_of_getLast? hlast)
    | none =>
      have hnil := List.getLast?_eq_none_iff.mp hlast
      rw [hnil, List.append_nil] at he
      rcases hwarned hnone hopen with ⟨hold, hbefore⟩ | ⟨e', he', hresumed⟩
      · exact h.unwarned hold hbefore e he
      · have hmem : e' ∈ warningsIn es := List.mem_filter.mpr ⟨he', by simp [hresumed]⟩
        rw [hnil] at hmem
        cases hmem

/-- A notice of the sweep, with the marks it sets. -/
theorem Noted.noticed {t : Int} {r r' : Request} {hs : List RequestHistory} {e : RequestHistory}
    (breached : Bool) (h : Noted t r hs) (hopen : r.status ≠ .completed)
    (hnone : r.slaBreachedAt = none) (hfirst : breached = false → r.slaWarnedAt = none)
    (hoverdue : Overdue now r') (hmarked : breached = true → r'.slaBreachedAt.isSome = true)
    (hwarned : r'.slaWarnedAt.isSome = true)
    (hnotice : ∀ b, e.isNotice b = (b == breached)) (hplain : e.isResumption = false) :
    Noted now r' (hs ++ [e]) := by
  have hbefore := h.unbreached hnone
  constructor
  · exact hoverdue
  · rw [noticesIn_append, List.pairwise_append]
    refine ⟨h.breachLast, ?_, fun a ha _ _ => hbefore a (List.mem_filter.mp ha).1⟩
    cases breached <;> simp [noticesIn, hnotice]
  · intro hunmarked a ha
    rcases List.mem_append.mp ha with ha | ha
    · exact hbefore a ha
    · rw [List.mem_singleton.mp ha, hnotice]
      cases breached with
      | false => rfl
      | true =>
        have := hmarked rfl
        rw [hunmarked] at this
        cases this
  · rw [warningsIn_append, List.isChain_append]
    refine ⟨h.apart, ?_, fun a ha b hb hwarning => ?_⟩
    · cases breached <;> simp [warningsIn, hnotice, hplain]
    · cases breached with
      | true =>
        rw [List.mem_singleton.mp (List.mem_filter.mp (List.mem_of_head? hb)).1, hnotice]
        rfl
      | false =>
        rw [h.unwarned (hfirst rfl) hopen a ha] at hwarning
        cases hwarning
  · intro hunwarned
    rw [hunwarned] at hwarned
    cases hwarned

/-! ## The steps of a life -/

/-- A new request has no mark and no notice. -/
theorem filed_noted {db : Db} {student : User} {client : Option ApiClient} {req : Request}
    {first second : RequestHistory} {fs : List RequestFile} {s : Session}
    (h : Opened cfg db now student client req first second fs s) :
    Noted now req [first, second] := by
  obtain ⟨category, hfiled, hopening⟩ := h.filed
  obtain ⟨-, hunbreached⟩ := h.unmarked
  have hfirst : ∀ b, first.isNotice b = false := fun b =>
    not_isNotice_of_signed (by rw [h.by']; rfl) b
  have hmoved : RequestStatus.new ≠ second.newStatus := by
    rw [hopening.entry.newStatus]
    by_cases hauto : category.routing = .autoReply
    · rw [(hfiled.answered hauto).1]
      decide
    · rw [(hfiled.routed hauto).1]
      decide
  have hsecond : ∀ b, second.isNotice b = false :=
    not_isNotice_of_moved hopening.entry.oldStatus hmoved
  have hquiet : Unnoticed [first, second] := by
    intro b e he
    rcases List.mem_cons.mp he with rfl | he
    · exact hfirst b
    · rw [List.mem_singleton.mp he]
      exact hsecond b
  have hempty : Noted now req [] := by
    refine ⟨⟨?_, ?_, ?_⟩, .nil, by simp, .nil, by simp [warningsIn]⟩ <;>
      simp [hunbreached]
  refine hempty.unnoticed hquiet hempty.overdue (fun _ => .inr (by simp)) fun hnone hopen => ?_
  exact .inl ⟨hnone, hopen⟩

/-- A user signs every entry of a deed. -/
theorem Api.Deed.signed {db : Db} {r req' : Request} {actor : User} {s : Session}
    (h : Deed cfg db now r actor req' s) : ∀ e ∈ s.history, e.changedBy.isSome = true := by
  cases h with
  | assigned _ _ _ _ _ _ by' rows => simp [rows.history, by']
  | moved _ _ _ _ _ _ by' rows => simp [rows.history, by']
  | resubmitted _ _ _ _ _ by' rows => simp [rows.history, by']
  | answered _ _ _ _ _ by' _ rows => simp [rows.history, by']
  | said _ _ _ _ rows => simp [rows.history]
  | attached _ _ _ _ rows => simp [rows.history]

/-- What a deed does to the marks. Only the status moves them, and marks
that are cleared leave a resumption behind, unless the request is closed. -/
theorem Api.Deed.marks {db : Db} {l : Life} {req' : Request} {actor : User} {s : Session}
    (h : Deed cfg db now l.req actor req' s) (hsound : l.Sound) :
    ∃ target, MarksApplied cfg l.req target req' ∧
      (∀ p, req'.slaPausedAt = some p → l.req.slaPausedAt = some p ∨ p = now) ∧
      (req'.status ≠ .completed → l.req.status ≠ .completed) ∧
      (l.req.status = .returned → target ≠ .returned → req'.status ≠ .completed →
        (req'.slaWarnedAt = l.req.slaWarnedAt) ∨ ∃ e ∈ s.history, e.isResumption = true) := by
  cases h with
  | assigned _ _ _ _ _ _ _ _ =>
    exact ⟨l.req.status, .kept rfl rfl rfl, fun p hp => .inl hp, id, fun _ _ _ => .inl rfl⟩
  | @moved _ e _ target comment mover allowed applied entry by' rows =>
    refine ⟨target, applyStatus_marks applied, fun p hp => applyStatus_paused applied hp,
      fun _ hcompleted => ?_, fun hreturned hleaves _ => .inr ⟨e, by simp [rows.history], ?_⟩⟩
    · rw [hcompleted] at allowed
      cases allowed
    · rcases hsound.moves allowed with ⟨hstatus, -⟩ | ⟨-, rfl⟩
      · rw [hreturned] at hstatus
        cases hstatus
      · rw [RequestHistory.isResumption, entry.oldStatus, entry.newStatus, hreturned]
        decide
  | @resubmitted _ e _ comment owner status applied entry by' rows =>
    refine ⟨.inProgress, applyStatus_marks applied, fun p hp => applyStatus_paused applied hp,
      fun _ => by rw [status]; decide, fun _ _ _ => .inr ⟨e, by simp [rows.history], ?_⟩⟩
    rw [RequestHistory.isResumption, entry.oldStatus, entry.newStatus]
    decide
  | answered _ _ _ applied _ _ _ _ =>
    have hstatus := congrArg Request.status (applyStatus_eq_ok applied).shape
    refine ⟨.completed, ?_, fun p hp => applyStatus_paused applied hp, fun hne => ?_,
      fun _ _ hne => ?_⟩
    · cases applyStatus_marks applied with
      | kept warned breached deadline => exact .kept warned breached deadline
      | cleared returned leaves paused left breached =>
        exact .cleared returned leaves paused left breached
    · exact absurd hstatus hne
    · exact absurd hstatus hne
  | said _ _ _ _ _ =>
    exact ⟨l.req.status, .kept rfl rfl rfl, fun p hp => .inl hp, id, fun _ _ _ => .inl rfl⟩
  | attached _ _ _ _ _ =>
    exact ⟨l.req.status, .kept rfl rfl rfl, fun p hp => .inl hp, id, fun _ _ _ => .inl rfl⟩

/-- A deed keeps the bookkeeping. -/
theorem deed_noted {db : Db} {t : Int} {l : Life} {req' : Request} {actor : User} {s : Session}
    (hsound : l.Sound) (h : Noted t l.req l.history) (ht : t ≤ now)
    (hdeed : Deed cfg db now l.req actor req' s) : Noted now req' (l.history ++ s.history) := by
  obtain ⟨target, hmarks, hpaused, hopen, hresumed⟩ := hdeed.marks hsound
  refine h.unnoticed ?_ (h.overdue.apply ht hmarks hpaused) (fun hnone => .inl ?_)
    fun hnone hlive => ?_
  · exact fun b e he => not_isNotice_of_signed (hdeed.signed e he) b
  · cases hb : l.req.slaBreachedAt with
    | none => rfl
    | some b =>
      have hkept := (h.overdue.keeps hmarks hb).1
      rw [hnone] at hkept
      cases hkept
  · cases hmarks with
    | kept warned breached deadline => exact .inl ⟨warned ▸ hnone, hopen hlive⟩
    | cleared returned leaves paused left breached =>
      rcases hresumed returned leaves hlive with hwarned | hresumed
      · exact .inl ⟨hwarned ▸ hnone, hopen hlive⟩
      · exact .inr hresumed

theorem needsNotice_unmarked {r : Request} (h : needsNotice cfg now r = true) :
    r.slaBreachedAt = none ∧ (r.slaDeadline < now ∨ r.slaWarnedAt = none) := by
  unfold needsNotice at h
  simp only [Bool.and_eq_true, Bool.or_eq_true, Option.isNone_iff_eq_none,
    decide_eq_true_eq] at h
  exact ⟨h.1.2, h.2.imp id fun hwarn => hwarn.2⟩

/-- The entry the sweep leaves is a notice of the kind it sends. -/
theorem sweepOne_notice (cfg : Settings) (db : Db) (r : Request) (now : Int) :
    ∃ e, (sweepOne cfg db r now).session.history = [e] ∧ e.isResumption = false ∧
      ∀ b, e.isNotice b = (b == decide (r.slaDeadline < now)) :=
  ⟨_, (sweepOne_leaves cfg db r now).history, not_isResumption_of_same rfl,
    isNotice_marked rfl rfl rfl⟩

/-- A pass of the sweep keeps the bookkeeping. -/
theorem sweepOne_noted {db : Db} {t : Int} {l : Life} (hsound : l.Sound)
    (h : Noted t l.req l.history) (ht : t ≤ now) (hneeds : needsNotice cfg now l.req = true) :
    Noted now (sweepOne cfg db l.req now).req
      (l.history ++ (sweepOne cfg db l.req now).session.history) := by
  have hrunning := needsNotice_running hneeds
  obtain ⟨hnone, hdue⟩ := needsNotice_unmarked hneeds
  have hopen : l.req.status ≠ .completed := fun heq => by
    rw [heq] at hrunning
    exact absurd hrunning (by decide)
  have hunpaused : l.req.slaPausedAt = none := by
    rw [← Option.not_isSome_iff_eq_none, hsound.paused]
    intro hreturned
    rw [hreturned] at hrunning
    exact absurd hrunning (by decide)
  obtain ⟨e, he, hplain, hnotice⟩ := sweepOne_notice cfg db l.req now
  rw [he]
  by_cases hlate : l.req.slaDeadline < now
  · have hreq : (sweepOne cfg db l.req now).req =
        { l.req with slaBreachedAt := some now, slaWarnedAt := l.req.slaWarnedAt.or (some now) } := by
      simp [sweepOne, hlate]
    rw [hreq]
    have hoverdue : Overdue now
        { l.req with slaBreachedAt := some now, slaWarnedAt := l.req.slaWarnedAt.or (some now) } := by
      constructor
      · rintro b ⟨⟩
        exact hlate
      · rintro b ⟨⟩
        exact le_rfl
      · intro b _ p hp
        rw [show l.req.slaPausedAt = some p from hp] at hunpaused
        cases hunpaused
    refine h.noticed true hopen hnone ?_ hoverdue (fun _ => rfl) ?_ ?_ hplain
    · exact fun hfalse => by cases hfalse
    · cases l.req.slaWarnedAt <;> rfl
    · simpa [hlate] using hnotice
  · have hreq : (sweepOne cfg db l.req now).req = { l.req with slaWarnedAt := some now } := by
      simp [sweepOne, hlate]
    rw [hreq]
    refine h.noticed false hopen hnone (fun _ => hdue.resolve_left hlate) ?_
      (fun hfalse => by cases hfalse) rfl ?_ hplain
    · exact ⟨h.overdue.behind, fun b hb => (h.overdue.past b hb).trans ht, h.overdue.unpaused⟩
    · simpa [hlate] using hnotice

/-- A life whose marks and notices agree at instant `t`. -/
def Life.Noted (t : Int) (l : Life) : Prop := l.Sound ∧ Royd.Noted t l.req l.history

variable {e : Event}

theorem story_noted {l l' : Option Life} {ws : List Webhook} (hstory : Story cfg e l l' ws)
    (h : ∀ k, l = some k → k.Noted e.now) : ∀ k, l' = some k → k.Noted e.now := by
  cases hstory with
  | filed opened catalogue answers =>
    rintro k ⟨⟩
    obtain ⟨category, hfiled, hopening⟩ := opened.filed
    exact ⟨filed_sound catalogue hfiled hopening answers, filed_noted opened⟩
  | done call deed change =>
    rintro k ⟨⟩
    obtain ⟨hsound, hnoted⟩ := h _ rfl
    exact ⟨change_sound hsound change, deed_noted hsound hnoted le_rfl deed⟩
  | @noticed db _ _ l sweep needs =>
    rintro k ⟨⟩
    obtain ⟨hsound, hnoted⟩ := h _ rfl
    have hchange : Change cfg db.nextId e.now l.req (sweepOne cfg db l.req e.now).req
        (sweepOne cfg db l.req e.now).session := sweepOne_change (needsNotice_running needs)
    exact ⟨change_sound hsound hchange, sweepOne_noted hsound hnoted le_rfl needs⟩

/-- What one event leaves of a request that was `l`: the mark of a breach,
and, while its clock stands still, its notices. -/
structure Life.Notified (e : Event) (l l' : Life) : Prop where
  noted : l'.Noted e.now
  breached : ∀ b, l.req.slaBreachedAt = some b → l'.req.slaBreachedAt = some b
  notices : l.req.status ∉ RequestStatus.slaRunning →
    noticesIn l'.history = noticesIn l.history
  -- A pass of the sweep is many commits, and none of them restarts the clock.
  halted : l.req.status ∉ RequestStatus.slaRunning → (∃ useLock won, e.step = .sweep useLock won) →
    l'.req.status ∉ RequestStatus.slaRunning

theorem story_notified {first : Life} {l l' : Option Life} {ws : List Webhook}
    (hstory : Story cfg e l l' ws) (h : ∃ k, l = some k ∧ first.Notified e k) :
    ∃ k, l' = some k ∧ first.Notified e k := by
  obtain ⟨k, rfl, hk⟩ := h
  obtain ⟨hsound, hnoted⟩ := hk.noted
  have hnext := story_noted hstory fun k' hk' => by
    cases hk'
    exact hk.noted
  cases hstory with
  | done call deed change =>
    refine ⟨_, rfl, hnext _ rfl, fun b hb => ?_, fun hhalted => ?_, fun _ hsweep => ?_⟩
    · obtain ⟨target, hmarks, -⟩ := deed.marks hsound
      exact (hnoted.overdue.keeps hmarks (hk.breached b hb)).1
    · have hquiet : Unnoticed _ := fun b e he => not_isNotice_of_signed (deed.signed e he) b
      show noticesIn (_ ++ _) = _
      rw [noticesIn_append, hquiet.nil, List.append_nil]
      exact hk.notices hhalted
    · obtain ⟨useLock, won, hsweep⟩ := hsweep
      rw [call] at hsweep
      cases hsweep
  | noticed sweep needs =>
    have hrunning := needsNotice_running needs
    refine ⟨_, rfl, hnext _ rfl, fun b hb => ?_, fun hhalted => ?_, fun hhalted _ => ?_⟩
    · have hmarked := hk.breached b hb
      rw [(needsNotice_unmarked needs).1] at hmarked
      cases hmarked
    · exact absurd hrunning (hk.halted hhalted ⟨_, _, sweep⟩)
    · exact absurd hrunning (hk.halted hhalted ⟨_, _, sweep⟩)

/-! ## Every run -/

/-- At instant `t` the marks of every request agree with its notices. -/
def Db.Noted (t : Int) (db : Db) : Prop := ∀ id k, db.life? id = some k → k.Noted t

theorem step_noted {db : Db} (e : Event) (hwf : db.Wf) (h : db.Noted e.now) :
    (step cfg db e).Noted e.now := by
  intro id
  refine acts_keep (P := fun l _ => ∀ k, l = some k → k.Noted e.now) ?_ hwf (step_acts cfg hwf e) ?_
  · exact fun hstory hl => story_noted hstory hl
  · exact h id

theorem run_noted (cfg : Settings) {db₀ : Db} (h : Start db₀) {es : List Event}
    (hclock : Clocked es) {now : Int} (hnow : ∀ e ∈ es, e.now ≤ now) :
    (Runs.run (step cfg) db₀ es).Noted now := by
  refine run_clocked (P := fun t db => db.Noted t) (fun ht hdb id k hk => ?_)
    (fun e hwf hdb => step_noted e hwf hdb) h.wf (fun t id k hk => ?_) hclock hnow
  · exact ⟨(hdb id k hk).1, (hdb id k hk).2.advance ht⟩
  · rw [h.life?] at hk
    cases hk

/-- What the notices in a history are like, in the order they were sent: one
breach at most and nothing after it, and a resumption between any two
warnings. -/
structure NoticesKept (hs : List RequestHistory) : Prop where
  breachOnce : hs.countP (·.isNotice true) ≤ 1
  breachLast : ∀ xs a ys, hs = xs ++ a :: ys → a.isNotice true = true →
    ∀ b ∈ ys, b.isNotice false = false
  warningsApart : ∀ xs a ys b zs, hs = xs ++ a :: (ys ++ b :: zs) → a.isNotice false = true →
    b.isNotice false = true → ∃ c ∈ ys, c.isResumption = true

/-- Neighbours that are never both warnings are kept apart by something
else. -/
theorem chain_apart {as : List RequestHistory} {a b : RequestHistory} {zs : List RequestHistory}
    (h : (a :: (as ++ b :: zs)).IsChain
      fun a b => a.isNotice false = true → b.isNotice false = false)
    (ha : a.isNotice false = true) (hb : b.isNotice false = true) :
    ∃ c ∈ as, c.isNotice false = false := by
  cases as with
  | nil =>
    have hnext := (List.isChain_cons_cons.mp h).1 ha
    rw [hb] at hnext
    cases hnext
  | cons c as => exact ⟨c, List.mem_cons_self, (List.isChain_cons_cons.mp h).1 ha⟩

/-- What nothing may follow is there once at most. -/
theorem countP_le_one {α : Type} {p : α → Bool} {xs : List α}
    (h : xs.Pairwise fun a _ => p a = false) : xs.countP p ≤ 1 := by
  induction xs with
  | nil => simp
  | cons a xs ih =>
    obtain ⟨hfirst, hrest⟩ := List.pairwise_cons.mp h
    cases xs with
    | nil =>
      rw [List.countP_singleton]
      split <;> omega
    | cons b xs =>
      rw [List.countP_cons_of_neg (by simp [hfirst b List.mem_cons_self])]
      exact ih hrest

theorem Noted.kept {t : Int} {r : Request} {hs : List RequestHistory} (h : Noted t r hs) :
    NoticesKept hs where
  breachOnce := by
    have hcount : hs.countP (·.isNotice true) = (noticesIn hs).countP (·.isNotice true) := by
      unfold noticesIn
      rw [List.countP_filter]
      exact List.countP_congr fun e _ => by cases e.isNotice true <;> simp
    rw [hcount]
    exact countP_le_one h.breachLast
  breachLast := by
    rintro xs a ys rfl ha b hb
    by_contra hwarning
    rw [Bool.not_eq_false] at hwarning
    have hlast := h.breachLast
    rw [noticesIn_append, List.pairwise_append] at hlast
    have hrest : noticesIn (a :: ys) = a :: noticesIn ys := by simp [noticesIn, ha]
    rw [hrest, List.pairwise_cons] at hlast
    have hfirst := hlast.2.1.1 b (List.mem_filter.mpr ⟨hb, by simp [hwarning]⟩)
    rw [ha] at hfirst
    cases hfirst
  warningsApart := by
    rintro xs a ys b zs rfl ha hb
    have happart := h.apart
    have hmiddle : warningsIn (a :: (ys ++ b :: zs)) = a :: (warningsIn ys ++ b :: warningsIn zs) := by
      simp [warningsIn, ha, hb]
    rw [warningsIn_append, List.isChain_append, hmiddle] at happart
    obtain ⟨c, hc, hquiet⟩ := chain_apart happart.2.1 ha hb
    obtain ⟨hmem, hkind⟩ := List.mem_filter.mp hc
    exact ⟨c, hmem, by simpa [hquiet] using hkind⟩

/-- SLA notices are sent once per stage. After every run under a clock that
does not run backwards, each request was told of one breach at most and of
nothing after it, and of one warning at most between two resumptions; if it
is marked as breached, its deadline lies in the past; and whatever event `e`
comes next leaves that mark alone, and sends no notice while the request is
returned or closed. -/
theorem sla_notices (cfg : Settings) {db₀ : Db} (h : Start db₀) {es : List Event}
    (hclock : Clocked es) :
    ∀ req ∈ (Runs.run (step cfg) db₀ es).requests,
      NoticesKept ((Runs.run (step cfg) db₀ es).timelineOf req.id) ∧
      (∀ now, (∀ e ∈ es, e.now ≤ now) → req.slaBreachedAt.isSome = true →
        req.slaDeadline < now) ∧
      ∀ e : Event, (∀ e' ∈ es, e'.now ≤ e.now) →
        ∃ req' ∈ (Runs.run (step cfg) db₀ (es ++ [e])).requests, req'.id = req.id ∧
          (∀ b, req.slaBreachedAt = some b → req'.slaBreachedAt = some b) ∧
          (req.status ∉ RequestStatus.slaRunning →
            noticesIn ((Runs.run (step cfg) db₀ (es ++ [e])).timelineOf req.id)
              = noticesIn ((Runs.run (step cfg) db₀ es).timelineOf req.id)) := by
  intro req hreq
  have hwf := run_wf cfg h.wf es
  have hlife := hwf.life?_mem hreq
  have hnoted : ∀ now, (∀ e ∈ es, e.now ≤ now) →
      ((Runs.run (step cfg) db₀ es).lifeOf req).Noted now :=
    fun now hnow => run_noted cfg h hclock hnow req.id _ hlife
  rw [run_timelineOf cfg h hclock]
  refine ⟨?_, fun now hnow hmarked => ?_, fun e he => ?_⟩
  · obtain ⟨now, hnow⟩ := exists_after es
    exact (hnoted now hnow).2.kept
  · obtain ⟨b, hb⟩ := Option.isSome_iff_exists.mp hmarked
    have hoverdue := (hnoted now hnow).2.overdue
    exact (hoverdue.behind b hb).trans_le (hoverdue.past b hb)
  · have hclock' : Clocked (es ++ [e]) := by
      unfold Clocked at hclock ⊢
      rw [List.map_append, List.pairwise_append]
      refine ⟨hclock, List.pairwise_singleton _ _, fun a ha b hb => ?_⟩
      obtain ⟨e', he', rfl⟩ := List.mem_map.mp ha
      rw [List.map_singleton, List.mem_singleton] at hb
      rw [hb]
      exact he e' he'
    rw [run_timelineOf cfg h hclock', Runs.run_concat]
    have hkeep : ∃ k, (step cfg (Runs.run (step cfg) db₀ es) e).life? req.id = some k ∧
        ((Runs.run (step cfg) db₀ es).lifeOf req).Notified e k := by
      refine acts_keep (P := fun l _ => ∃ k, l = some k ∧
          ((Runs.run (step cfg) db₀ es).lifeOf req).Notified e k)
        (fun hstory hl => story_notified hstory hl) hwf (step_acts cfg hwf e) ⟨_, hlife, ?_⟩
      exact ⟨hnoted e.now he, fun b hb => hb, fun _ => rfl, fun hhalted _ => hhalted⟩
    obtain ⟨k, hk, hnotified⟩ := hkeep
    obtain ⟨req', hreq', hid, rfl⟩ := life?_eq_some hk
    refine ⟨req', hreq', hid, hnotified.breached, fun hhalted => ?_⟩
    rw [← hid]
    have hnotices := hnotified.notices hhalted
    rwa [Db.lifeOf, Db.lifeOf, ← hid] at hnotices

/-- A pass of the sweep. -/
def sweeping (now : Int) : Event := ⟨now, .sweep false true⟩

/-- The office is warned on the Thursday and returns the request on the
Friday; it comes back on the Sunday, and by the next Sunday it is late. -/
def lateOffice : List Event :=
  [filing 0, sweeping (Sla.hours 20), returning (Sla.hours 30), sweeping (Sla.hours 60),
    resubmitting (Sla.hours 80), sweeping (Sla.hours 81), sweeping (Sla.hours 240),
    sweeping (Sla.hours 250)]

theorem sla_notices_office :
    (noticesIn ((Runs.run (step {}) office lateOffice).historyOf 10)).map
      (fun e => (e.createdAt, e.isNotice true)) =
        [(Sla.hours 20, false), (Sla.hours 81, false), (Sla.hours 240, true)] ∧
    ∀ req ∈ (Runs.run (step {}) office lateOffice).requests,
      NoticesKept ((Runs.run (step {}) office lateOffice).timelineOf req.id) ∧
      (∀ now, (∀ e ∈ lateOffice, e.now ≤ now) → req.slaBreachedAt.isSome = true →
        req.slaDeadline < now) ∧
      ∀ e : Event, (∀ e' ∈ lateOffice, e'.now ≤ e.now) →
        ∃ req' ∈ (Runs.run (step {}) office (lateOffice ++ [e])).requests, req'.id = req.id ∧
          (∀ b, req.slaBreachedAt = some b → req'.slaBreachedAt = some b) ∧
          (req.status ∉ RequestStatus.slaRunning →
            noticesIn ((Runs.run (step {}) office (lateOffice ++ [e])).timelineOf req.id)
              = noticesIn ((Runs.run (step {}) office lateOffice).timelineOf req.id)) :=
  ⟨by decide +kernel, sla_notices {} office_start (by unfold Clocked lateOffice; decide)⟩

end Royd
