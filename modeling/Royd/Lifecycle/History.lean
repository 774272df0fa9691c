/-
Royd.Lifecycle.History — the history of a request is a faithful trace of
its status.

Two invariants meet here. `Timeline` is about one request: its entries, in
the order they were inserted, form a chain that ends in the current status
and makes only the listed moves. `Db.Ordered` is about the whole table:
under a clock that does not run backwards the order of insertion is the
order by `(created_at, id)`, which is the one the application reads.
-/
import Royd.Lifecycle.States
import Mathlib.Data.List.Chain

namespace Royd

open Api

/-! ## The chain of one request -/

/-- `Request.history` as the ORM loads it: by creation time, ties by id. -/
def Db.timelineOf (db : Db) (requestId : Nat) : List RequestHistory :=
  (db.historyOf requestId).mergeSort fun a b =>
    decide (a.createdAt < b.createdAt ∨ (a.createdAt = b.createdAt ∧ a.id ≤ b.id))

/-- The moves an entry at position `i` may record. -/
inductive ListedMove (i : Nat) (e : RequestHistory) : RequestStatus → RequestStatus → Prop
  | routed (second : i = 1) (byNobody : e.changedBy = none) : ListedMove i e .new .inProgress
  | answeredAtOnce (second : i = 1) (byNobody : e.changedBy = none) : ListedMove i e .new .completed
  | returned (why : blank (e.comment.getD "") = false) : ListedMove i e .inProgress .returned
  | resumed : ListedMove i e .returned .inProgress
  | answered : ListedMove i e .inProgress .completed
  | answeredReturned : ListedMove i e .returned .completed

/-- The entries of a history lead, step by step, to the current status. -/
structure Timeline (status : RequestStatus) (hs : List RequestHistory) : Prop where
  opening : ∃ e rest, hs = e :: rest ∧ e.oldStatus = none ∧ e.newStatus = .new
  linked : hs.IsChain fun a b => b.oldStatus = some a.newStatus
  current : hs.getLast?.map (·.newStatus) = some status
  moves : ∀ i e old, hs[i]? = some e → e.oldStatus = some old → old ≠ e.newStatus →
    ListedMove i e old e.newStatus
  final : ∀ i e, hs[i]? = some e → e.newStatus = .completed → i + 1 = hs.length

/-- A history grows by entries that start at the current status. -/
theorem Timeline.append {status : RequestStatus} {hs : List RequestHistory} {e : RequestHistory}
    (h : Timeline status hs) (hne : status ≠ .completed) (hold : e.oldStatus = some status)
    (hmove : status ≠ e.newStatus → ListedMove hs.length e status e.newStatus) :
    Timeline e.newStatus (hs ++ [e]) where
  opening := by
    obtain ⟨first, rest, rfl, hfirst⟩ := h.opening
    exact ⟨first, rest ++ [e], rfl, hfirst⟩
  linked := by
    rw [List.isChain_append]
    refine ⟨h.linked, List.isChain_singleton _, fun x hx y hy => ?_⟩
    have hcurrent := h.current
    rw [Option.mem_def.mp hx, Option.map_some, Option.some.injEq] at hcurrent
    rw [List.head?_cons, Option.mem_some_iff] at hy
    rw [← hy, hold, hcurrent]
  current := by simp
  moves := by
    intro i e' old he' hold' hdiff
    rcases Nat.lt_trichotomy i hs.length with hi | rfl | hi
    · rw [List.getElem?_append_left hi] at he'
      exact h.moves i e' old he' hold' hdiff
    · rw [List.getElem?_append_right le_rfl, Nat.sub_self, List.getElem?_cons_zero,
        Option.some.injEq] at he'
      subst he'
      rw [hold, Option.some.injEq] at hold'
      subst hold'
      exact hmove hdiff
    · rw [List.getElem?_eq_none (by simp; omega)] at he'
      cases he'
  final := by
    intro i e' he' hcompleted
    rcases Nat.lt_trichotomy i hs.length with hi | rfl | hi
    · -- An earlier entry into `completed` would be the last one so far.
      rw [List.getElem?_append_left hi] at he'
      have hlast := h.final i e' he' hcompleted
      have hcurrent := h.current
      rw [List.getLast?_eq_getElem?, show hs.length - 1 = i by omega, he', Option.map_some,
        Option.some.injEq] at hcurrent
      exact absurd (hcurrent.symm.trans hcompleted) hne
    · simp
    · rw [List.getElem?_eq_none (by simp; omega)] at he'
      cases he'

/-- The two entries a filing opens the history with. -/
theorem filed_timeline {cfg : Settings} {db : Db} {now : Int} {category : RequestCategory}
    {req : Request} {first second : RequestHistory} {fs : List RequestFile}
    (hfiled : Filed cfg db now category req)
    (hopening : Opening now req category first second fs) :
    Timeline req.status [first, second] := by
  have hfirst : Timeline .new [first] :=
    { opening := ⟨first, [], rfl, hopening.first.2.1, hopening.first.2.2.1⟩
      linked := List.isChain_singleton _
      current := by simp [hopening.first.2.2.1]
      moves := by
        intro i e old he hold
        rw [List.getElem?_singleton] at he
        split at he
        · cases he
          rw [hopening.first.2.1] at hold
          cases hold
        · cases he
      final := by
        intro i e he hcompleted
        rw [List.getElem?_singleton] at he
        split at he
        · cases he
          rw [hopening.first.2.2.1] at hcompleted
          cases hcompleted
        · cases he }
  have hentry := hopening.entry
  have hsecond := hfirst.append (e := second) (by decide) hentry.oldStatus fun _ => by
    rw [hentry.newStatus]
    by_cases hauto : category.routing = .autoReply
    · rw [(hfiled.answered hauto).1]
      exact .answeredAtOnce rfl hopening.noActor
    · rw [(hfiled.routed hauto).1]
      exact .routed rfl hopening.noActor
  rwa [hentry.newStatus] at hsecond

variable {cfg : Settings} {now : Int} {cats : List RequestCategory}

/-- An entry that repeats the current status of an open request. -/
theorem Timeline.repeat {status : RequestStatus} {hs : List RequestHistory} {r : Request}
    {e : RequestHistory} (h : Timeline status hs) (hne : status ≠ .completed)
    (hentry : e.Entry r now status status) : Timeline status (hs ++ [e]) := by
  have happend := h.append hne hentry.oldStatus fun hdiff => absurd hentry.newStatus.symm hdiff
  rwa [hentry.newStatus] at happend

/-- Every change of a sound request continues its timeline. -/
theorem change_timeline {l : Life} {req' : Request} {start : Nat} {s : Session} (h : l.Sound)
    (ht : Timeline l.req.status l.history) (hchange : Change cfg start now l.req req' s) :
    Timeline req'.status (l.history ++ s.history) := by
  cases hchange with
  | assigned _ _ _ isOpen entry rows =>
    rw [rows.history]
    exact ht.repeat (h.not_completed isOpen).2 entry
  | @moved _ e _ target allowed applied entry why rows =>
    rw [rows.history, applied.shape]
    rcases h.moves allowed with ⟨hstatus, rfl⟩ | ⟨hstatus, rfl⟩
    · have happend := ht.append (by rw [hstatus]; decide) entry.oldStatus fun _ => by
        rw [entry.newStatus, hstatus]
        exact .returned (why rfl)
      rwa [entry.newStatus] at happend
    · have happend := ht.append (by rw [hstatus]; decide) entry.oldStatus fun _ => by
        rw [entry.newStatus, hstatus]
        exact .resumed
      rwa [entry.newStatus] at happend
  | @answered _ e _ _ _ _ isOpen _ applied entry _ rows =>
    rw [rows.history, applied.shape]
    obtain ⟨hstatus, hne⟩ := h.not_completed isOpen
    have happend := ht.append hne entry.oldStatus fun _ => by
      rw [entry.newStatus]
      rcases hstatus with hstatus | hstatus
      · rw [hstatus]
        exact .answered
      · rw [hstatus]
        exact .answeredReturned
    rwa [entry.newStatus] at happend
  | said _ _ rows =>
    rw [rows.history, List.append_nil]
    exact ht
  | attached _ _ _ rows =>
    rw [rows.history, List.append_nil]
    exact ht
  | noticed _ _ running entry rows =>
    rw [rows.history]
    refine ht.repeat (fun heq => ?_) entry
    rw [heq] at running
    exact absurd running (by decide)

/-- Sound, with a history that tells how it got there. -/
def Life.Traced (l : Life) : Prop := l.Sound ∧ Timeline l.req.status l.history

theorem step_traced {l l' : Option Life} (hstep : Life.Step cfg now cats l l')
    (h : ∀ k, l = some k → k.Traced) : ∀ k, l' = some k → k.Traced := by
  cases hstep with
  | filed _ catalogue filed opening answers =>
    rintro k ⟨⟩
    exact ⟨filed_sound catalogue filed opening answers, filed_timeline filed opening⟩
  | changed change =>
    rintro k ⟨⟩
    obtain ⟨hsound, htimeline⟩ := h _ rfl
    exact ⟨change_sound hsound change, change_timeline hsound htimeline change⟩

/-! ## The order of the table -/

/-- The ids of a session's rows of one kind increase, from its start on. -/
theorem Session.ids_of {α : Type} (s : Session) {pick : PendingRow → Option α} {key : α → Nat}
    (h : ∀ row a, pick row = some a → row.id? = some (key a)) :
    ((s.rows.filterMap pick).map key).Pairwise (· < ·) ∧
      ∀ a ∈ s.rows.filterMap pick, s.start ≤ key a ∧ key a < s.nextId := by
  have hsub : ((s.rows.filterMap pick).map key).Sublist (s.rows.filterMap PendingRow.id?) := by
    generalize s.rows = rows
    induction rows with
    | nil => exact .slnil
    | cons row rows ih =>
      cases hpick : pick row with
      | none =>
        rw [List.filterMap_cons_none hpick]
        exact ih.trans ((List.sublist_cons_self row rows).filterMap _)
      | some a =>
        rw [List.filterMap_cons_some hpick, List.filterMap_cons_some (h row a hpick)]
        exact ih.cons_cons _
  rw [s.consecutive] at hsub
  constructor
  · exact List.Pairwise.sublist hsub List.pairwise_lt_range'
  · intro a ha
    have hmem := hsub.subset (List.mem_map_of_mem ha)
    rw [List.mem_range'_1] at hmem
    exact hmem

theorem Session.history_ids (s : Session) :
    (s.history.map (·.id)).Pairwise (· < ·) ∧
      ∀ e ∈ s.history, s.start ≤ e.id ∧ e.id < s.nextId :=
  s.ids_of fun row e hrow => by
    cases row <;> simp_all

theorem Session.outbox_ids (s : Session) :
    (s.outbox.map (·.id)).Pairwise (· < ·) ∧
      ∀ m ∈ s.outbox, s.start ≤ m.id ∧ m.id < s.nextId :=
  s.ids_of fun row m hrow => by
    cases row <;> simp_all

/-- No entry of the history has an id that is still to be given out. -/
def Db.HistoryBelow (db : Db) : Prop := ∀ e ∈ db.history, e.id < db.nextId

instance decidableHistoryBelow (db : Db) : Decidable db.HistoryBelow :=
  inferInstanceAs (Decidable (∀ e ∈ db.history, e.id < db.nextId))

theorem Db.HistoryBelow.commit {db : Db} (h : db.HistoryBelow) (s : Session) :
    (db.commit s).HistoryBelow := by
  intro e he
  show e.id < max db.nextId s.nextId
  rcases List.mem_append.mp he with he | he
  · have := h e he
    omega
  · have := (s.history_ids.2 e he).2
    omega

theorem Effects.historyBelow {db db' : Db} (h : Effects cfg now cats db db')
    (hbelow : db.HistoryBelow) : db'.HistoryBelow := by
  induction h with
  | refl => exact hbelow
  | tail _ heffect ih =>
    cases heffect with
    | outside requests history files messages outbox nextId catalogue =>
      intro e he
      rw [history] at he
      exact (ih e he).trans_le nextId
    | filed current filed opening rows => exact ih.commit _
    | changed committed change => exact ih.commit _

/-- At instant `t` the history is in order and lies in the past. -/
structure Db.Ordered (db : Db) (t : Int) : Prop where
  sorted : db.history.Pairwise fun a b => a.createdAt ≤ b.createdAt ∧ a.id < b.id
  past : ∀ e ∈ db.history, e.createdAt ≤ t
  below : ∀ e ∈ db.history, e.id < db.nextId

/-- Entries made now, under new ids, go to the end. -/
theorem Db.Ordered.append {db : Db} {t : Int} (h : db.Ordered t) (ht : t ≤ now) (s : Session)
    (hstart : db.nextId ≤ s.start) (hnow : ∀ e ∈ s.history, e.createdAt = now) :
    (db.commit s).Ordered now := by
  obtain ⟨hids, hrange⟩ := s.history_ids
  constructor
  · refine List.pairwise_append.mpr ⟨h.sorted, ?_, fun a ha b hb => ?_⟩
    · refine (List.pairwise_map.mp hids).imp_of_mem fun ha hb hlt => ⟨?_, hlt⟩
      rw [hnow _ ha, hnow _ hb]
    · have hpast := h.past a ha
      have hbelow := h.below a ha
      have := (hrange b hb).1
      rw [hnow b hb]
      omega
  · intro e he
    rcases List.mem_append.mp he with he | he
    · exact (h.past e he).trans ht
    · exact (hnow e he).le
  · exact Db.HistoryBelow.commit h.below s

/-- Every entry of a change is made at its instant, under ids of its own. -/
theorem Change.stamped {start : Nat} {r req' : Request} {s : Session}
    (h : Change cfg start now r req' s) :
    s.start = start ∧ ∀ e ∈ s.history, e.createdAt = now := by
  cases h with
  | assigned _ _ _ _ entry rows => simp [rows.start, rows.history, entry.createdAt]
  | moved _ _ _ entry _ rows => simp [rows.start, rows.history, entry.createdAt]
  | answered _ _ _ _ _ entry _ rows => simp [rows.start, rows.history, entry.createdAt]
  | said _ _ rows => simp [rows.start, rows.history]
  | attached _ _ _ rows => simp [rows.start, rows.history]
  | noticed _ _ _ entry rows => simp [rows.start, rows.history, entry.createdAt]

theorem Effect.ordered {db db' : Db} {t : Int} (h : Effect cfg now cats db db') (ht : t ≤ now)
    (ho : db.Ordered t) : db'.Ordered now := by
  cases h with
  | outside requests history files messages outbox nextId catalogue =>
    constructor
    · rw [history]; exact ho.sorted
    · rw [history]; exact fun e he => (ho.past e he).trans ht
    · rw [history]; exact fun e he => (ho.below e he).trans_le nextId
  | @filed category req first second fs s current filed opening rows =>
    have happend := ho.append ht s (by rw [rows.start]; omega) fun e he => by
      rw [rows.history, List.mem_cons, List.mem_singleton] at he
      rcases he with rfl | rfl
      · exact opening.first.2.2.2
      · exact opening.entry.createdAt
    exact ⟨happend.sorted, happend.past, happend.below⟩
  | changed _ change =>
    obtain ⟨hstart, hnow⟩ := change.stamped
    have happend := ho.append ht _ hstart.ge hnow
    exact ⟨happend.sorted, happend.past, happend.below⟩

theorem Db.Ordered.advance {db : Db} {t : Int} (h : db.Ordered t) (ht : t ≤ now) :
    db.Ordered now :=
  ⟨h.sorted, fun e he => (h.past e he).trans ht, h.below⟩

theorem Effects.ordered {db db' : Db} {t : Int} (h : Effects cfg now cats db db') (ht : t ≤ now)
    (ho : db.Ordered t) : db'.Ordered now := by
  induction h with
  | refl => exact ho.advance ht
  | tail _ heffect ih => exact heffect.ordered le_rfl ih

/-- The clock of a run does not run backwards. -/
def Clocked (es : List Event) : Prop := (es.map (·.now)).Pairwise (· ≤ ·)

/-- Some instant lies behind a whole run. -/
theorem exists_after (es : List Event) : ∃ now, ∀ e ∈ es, e.now ≤ now := by
  induction es with
  | nil => exact ⟨0, by simp⟩
  | cons e es ih =>
    obtain ⟨now, hnow⟩ := ih
    refine ⟨max e.now now, fun e' he' => ?_⟩
    rcases List.mem_cons.mp he' with rfl | he'
    · exact le_max_left _ _
    · exact (hnow e' he').trans (le_max_right _ _)

section Clocked

variable {P : Int → Db → Prop}

/-- A property of the tables at an instant that outlives time and events
holds at the end of a run. -/
theorem run_from (hmono : ∀ {t t' db}, t ≤ t' → P t db → P t' db)
    (hstep : ∀ {db : Db} (e : Event), db.Wf → P e.now db → P e.now (step cfg db e)) :
    ∀ {es : List Event} {db : Db} {t : Int}, db.Wf → P t db → (∀ e ∈ es, t ≤ e.now) →
      Clocked es → ∀ {now : Int}, t ≤ now → (∀ e ∈ es, e.now ≤ now) →
      P now (Runs.run (step cfg) db es)
  | [], _, _, _, h, _, _, _, ht, _ => hmono ht h
  | e :: es, db, t, hwf, h, hlater, hclock, now, _, hnow => by
    obtain ⟨hfirst, hrest⟩ := List.pairwise_cons.mp hclock
    rw [Runs.run_cons]
    exact run_from hmono hstep (step_life cfg hwf e).1
      (hstep e hwf (hmono (hlater e List.mem_cons_self) h))
      (fun e' he' => hfirst _ (List.mem_map_of_mem he')) hrest (hnow e List.mem_cons_self)
      (fun e' he' => hnow e' (List.mem_cons_of_mem _ he'))

/-- The same of a run that starts where the property holds at any time. -/
theorem run_clocked (hmono : ∀ {t t' db}, t ≤ t' → P t db → P t' db)
    (hstep : ∀ {db : Db} (e : Event), db.Wf → P e.now db → P e.now (step cfg db e))
    {es : List Event} {db : Db} (hwf : db.Wf) (h : ∀ t, P t db) (hclock : Clocked es) {now : Int}
    (hnow : ∀ e ∈ es, e.now ≤ now) : P now (Runs.run (step cfg) db es) := by
  cases es with
  | nil => exact h now
  | cons e es =>
    refine run_from (P := P) hmono hstep hwf (h e.now) (fun e' he' => ?_) hclock
      (hnow e List.mem_cons_self) hnow
    rcases List.mem_cons.mp he' with rfl | he'
    · exact le_rfl
    · exact (List.pairwise_cons.mp hclock).1 _ (List.mem_map_of_mem he')

end Clocked

/-- In an ordered table a request's entries are read as they were inserted. -/
theorem Db.Ordered.timelineOf {db : Db} {t : Int} (h : db.Ordered t) (requestId : Nat) :
    db.timelineOf requestId = db.historyOf requestId := by
  unfold Db.timelineOf
  refine List.mergeSort_of_pairwise ?_
  refine (h.sorted.sublist List.filter_sublist).imp fun {a b} hab => ?_
  rw [decide_eq_true_eq]
  rcases hab.1.lt_or_eq with hlt | heq
  · exact .inl hlt
  · exact .inr ⟨heq, hab.2.le⟩

theorem Start.ordered {db : Db} (h : Start db) (t : Int) : db.Ordered t :=
  ⟨by simp [h.history], by simp [h.history], by simp [h.history]⟩

/-! ## Every run -/

/-- Under a clock that does not run backwards a history is read as it was
inserted. -/
theorem run_timelineOf (cfg : Settings) {db₀ : Db} (h : Start db₀) {es : List Event}
    (hclock : Clocked es) (requestId : Nat) :
    (Runs.run (step cfg) db₀ es).timelineOf requestId =
      (Runs.run (step cfg) db₀ es).historyOf requestId := by
  obtain ⟨now, hnow⟩ := exists_after es
  have hordered : (Runs.run (step cfg) db₀ es).Ordered now :=
    run_clocked (P := fun t db => db.Ordered t) (fun ht ho => ho.advance ht)
      (fun e hwf ho => (step_effects hwf e).ordered le_rfl ho) h.wf h.ordered hclock hnow
  exact hordered.timelineOf requestId

/-- The history of every request, as it is read, is a faithful trace: it
opens with the filing, each entry continues the one before it, every move
is a listed one, it ends in the current status, and nothing follows the
answer. -/
theorem history_faithful (cfg : Settings) {db₀ : Db} (h : Start db₀) {es : List Event}
    (hclock : Clocked es) :
    ∀ req ∈ (Runs.run (step cfg) db₀ es).requests,
      Timeline req.status ((Runs.run (step cfg) db₀ es).timelineOf req.id) := by
  intro req hreq
  rw [run_timelineOf cfg h hclock]
  have htraced := run_life cfg (P := fun l => ∀ k, l = some k → k.Traced)
    (fun hstep => step_traced hstep) h.wf req.id (by simp [h.life?]) es
  exact (htraced _ ((run_wf cfg h.wf es).life?_mem hreq)).2

/-- The office files, returns, gets back and answers a request. -/
theorem history_faithful_office :
    (Runs.run (step {}) office [filing 0, returning 1, resubmitting 2, answering 3]).requests.map
      (·.status) = [.completed] ∧
    ∀ req ∈ (Runs.run (step {}) office
        [filing 0, returning 1, resubmitting 2, answering 3]).requests,
      Timeline req.status ((Runs.run (step {}) office
        [filing 0, returning 1, resubmitting 2, answering 3]).timelineOf req.id) :=
  ⟨by decide +kernel, history_faithful {} office_start (by unfold Clocked; decide)⟩

end Royd
