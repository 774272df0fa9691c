/-
Royd.Lifecycle.States — the states a request can be in, and that an
answered one stays as it is.

`Life.Sound` couples the status with the columns that must agree with it;
`Life.Frozen` is what no later step changes. Both are proved by the cases of
`Change`. The automatic answer is the case that needs the catalogue: its
text is the service's, and only `CatalogueOk` makes it visible.
-/
import Royd.Lifecycle.Runs

namespace Royd

open Api

/-! ## Sound requests -/

/-- The columns of a request agree with its status. -/
structure Life.Sound (l : Life) : Prop where
  status : l.req.status = .inProgress ∨ l.req.status = .returned ∨ l.req.status = .completed
  answered : l.req.status = .completed → l.req.closedAt.isSome = true ∧
    l.req.answeredAt.isSome = true ∧ ∃ text, l.req.answerText = some text ∧ blank text = false
  unanswered : l.req.status ≠ .completed →
    l.req.closedAt = none ∧ l.req.answeredAt = none ∧ l.req.answerText = none
  paused : l.req.slaPausedAt.isSome = true ↔ l.req.status = .returned
  assigned : l.req.status ∈ RequestStatus.opens → l.req.assignedTo.isSome = true
  automatic : l.req.status = .completed → l.req.answeredBy = none →
    ∃ e ∈ l.history, e.oldStatus = some .new ∧ e.newStatus = .completed ∧ e.changedBy = none
  answerFiles : ∀ f ∈ l.files, f.isAnswer = true → l.req.status = .completed

theorem blank_getD_false {text : Option String} (h : blank (text.getD "") = false) :
    ∃ t, text = some t ∧ blank t = false := by
  cases text with
  | none =>
    have : blank "" = true := by decide
    rw [Option.getD_none, this] at h
    cases h
  | some t => exact ⟨t, rfl, h⟩

variable {cfg : Settings} {now : Int} {cats : List RequestCategory}

theorem filed_sound {db : Db} {category : RequestCategory} {req : Request}
    {first second : RequestHistory} {fs : List RequestFile} (hcatalogue : CatalogueOk db)
    (hfiled : Filed cfg db now category req)
    (hopening : Opening now req category first second fs) (answers : List OutboxMessage) :
    Life.Sound ⟨req, [first, second], fs, [], answers⟩ := by
  by_cases hauto : category.routing = .autoReply
  · obtain ⟨hstatus, hclosed, hat, htext⟩ := hfiled.answered hauto
    have hvisible := hcatalogue category hfiled.listed hfiled.leaf hauto
    have hentry := hopening.entry.newStatus
    rw [hstatus] at hentry
    constructor
    · exact .inr (.inr hstatus)
    · intro _
      rw [hclosed, hat, htext]
      exact ⟨rfl, rfl, blank_getD_false hvisible⟩
    · exact fun hne => absurd hstatus hne
    · simp [hfiled.unpaused, hstatus]
    · intro hopen
      rw [hstatus] at hopen
      exact absurd hopen (by decide)
    · exact fun _ _ => ⟨second, by simp, hopening.entry.oldStatus, hentry, hopening.noActor⟩
    · exact fun _ _ _ => hstatus
  · obtain ⟨hstatus, hassigned, hclosed, hat, htext⟩ := hfiled.routed hauto
    have hne : req.status ≠ .completed := by rw [hstatus]; decide
    constructor
    · exact .inl hstatus
    · exact fun heq => absurd heq hne
    · exact fun _ => ⟨hclosed, hat, htext⟩
    · simp [hfiled.unpaused, hstatus]
    · exact fun _ => hassigned
    · exact fun heq => absurd heq hne
    · intro f hf
      rw [hopening.noFiles hauto] at hf
      cases hf

/-- A move of a sound request is a return or the end of one. -/
theorem Life.Sound.moves {l : Life} (h : l.Sound) {target : RequestStatus}
    (hallowed : target ∈ allowedTransitions l.req.status) :
    (l.req.status = .inProgress ∧ target = .returned) ∨
      (l.req.status = .returned ∧ target = .inProgress) := by
  rcases h.status with hstatus | hstatus | hstatus
  · rw [hstatus] at hallowed
    exact .inl ⟨hstatus, by simpa [allowedTransitions] using hallowed⟩
  · rw [hstatus] at hallowed
    exact .inr ⟨hstatus, by simpa [allowedTransitions] using hallowed⟩
  · rw [hstatus] at hallowed
    cases hallowed

/-- An open request of the live flow is not answered yet. -/
theorem Life.Sound.not_completed {l : Life} (h : l.Sound)
    (hopen : l.req.status ∉ RequestStatus.closed) :
    (l.req.status = .inProgress ∨ l.req.status = .returned) ∧ l.req.status ≠ .completed := by
  rcases h.status with hstatus | hstatus | hstatus
  · exact ⟨.inl hstatus, by rw [hstatus]; decide⟩
  · exact ⟨.inr hstatus, by rw [hstatus]; decide⟩
  · rw [hstatus] at hopen
    exact absurd (by decide) hopen

/-- After an answer the clock is stopped for good: no pause is left. -/
theorem answer_unpaused {req req' : Request}
    (happlied : StatusApplied cfg now req .completed req')
    (hpaused : req.slaPausedAt.isSome = true ↔ req.status = .returned) :
    req'.slaPausedAt = none := by
  by_cases hreturned : req.status = .returned
  · exact (happlied.resumed (by decide) hreturned).1
  · rw [(happlied.kept (by decide) hreturned).1]
    rwa [← Option.not_isSome_iff_eq_none, hpaused]

/-- Every change of a sound request leaves a sound request. -/
theorem change_sound {l : Life} {req' : Request} {start : Nat} {s : Session} (h : l.Sound)
    (hchange : Change cfg start now l.req req' s) :
    (l.after req' s).Sound := by
  obtain ⟨req, history, files, messages, answers⟩ := l
  unfold Life.after
  cases hchange with
  | @assigned _ e assignee facultyId departmentId isOpen entry rows =>
    obtain ⟨hstatus, hne⟩ := h.not_completed isOpen
    rw [rows.history, rows.files, rows.messages, List.append_nil]
    exact
      { status := h.status
        answered := h.answered
        unanswered := h.unanswered
        paused := h.paused
        assigned := fun _ => rfl
        automatic := fun heq => absurd heq hne
        answerFiles := h.answerFiles }
  | @moved _ e _ target allowed applied entry why rows =>
    rw [rows.history, rows.files, rows.messages, List.append_nil]
    have hmoved : (target = .inProgress ∨ target = .returned) ∧
        target ∉ RequestStatus.closed ∧ target ≠ .completed ∧
        req.status ≠ .completed ∧ req.status ∈ RequestStatus.opens ∧
        (req'.slaPausedAt.isSome = true ↔ target = .returned) := by
      dsimp only at applied
      rcases h.moves allowed with ⟨hstatus, rfl⟩ | ⟨hstatus, rfl⟩
      · -- The request goes back to the student and the clock stops.
        dsimp only at hstatus
        obtain ⟨hpause, -⟩ := applied.returned rfl
        simp [hstatus, hpause, RequestStatus.opens, RequestStatus.closed]
      · -- Work resumes.
        dsimp only at hstatus
        obtain ⟨hpause, -⟩ := applied.resumed (by decide) hstatus
        simp [hstatus, hpause, RequestStatus.opens, RequestStatus.closed]
    obtain ⟨hto, hclosed, hleft, hwas, hopen, hpaused⟩ := hmoved
    have hunanswered := h.unanswered hwas
    rw [applied.shape] at hpaused ⊢
    exact
      { status := hto.imp_right .inl
        answered := fun heq => absurd heq hleft
        unanswered := fun _ => by simpa [hclosed] using hunanswered
        paused := hpaused
        assigned := fun _ => h.assigned hopen
        automatic := fun heq => absurd heq hleft
        answerFiles := fun f hf hanswer => absurd (h.answerFiles f hf hanswer) hwas }
  | @answered _ e _ fs actor text isOpen visible applied entry answerFiles rows =>
    rw [rows.history, rows.files, rows.messages]
    have hpause := answer_unpaused applied h.paused
    rw [applied.shape]
    exact
      { status := .inr (.inr rfl)
        answered := fun _ => ⟨rfl, rfl, text, rfl, visible⟩
        unanswered := fun hne => absurd rfl hne
        paused := by simp [hpause]
        assigned := fun hopen => absurd hopen (by decide : RequestStatus.completed ∉ _)
        automatic := fun _ hnobody => by cases hnobody
        answerFiles := fun _ _ _ => rfl }
  | said own isOpen rows =>
    rw [rows.history, rows.files, List.append_nil, List.append_nil]
    exact ⟨h.status, h.answered, h.unanswered, h.paused, h.assigned, h.automatic, h.answerFiles⟩
  | @attached _ f own ordinary isOpen rows =>
    rw [rows.history, rows.files, List.append_nil]
    refine ⟨h.status, h.answered, h.unanswered, h.paused, h.assigned, h.automatic, ?_⟩
    intro g hg hanswer
    rcases List.mem_append.mp hg with hg | hg
    · exact h.answerFiles g hg hanswer
    · rw [List.mem_singleton.mp hg, ordinary] at hanswer
      cases hanswer
  | @noticed _ e warnedAt breachedAt running entry rows =>
    rw [rows.history, rows.files, List.append_nil]
    have hne : req.status ≠ .completed := fun heq => by
      dsimp only at running
      rw [heq] at running
      exact absurd running (by decide)
    exact
      { status := h.status
        answered := h.answered
        unanswered := h.unanswered
        paused := h.paused
        assigned := h.assigned
        automatic := fun heq => absurd heq hne
        answerFiles := h.answerFiles }

/-- Every step in the life of a request keeps it sound. -/
theorem step_sound {l l' : Option Life} (hstep : Life.Step cfg now cats l l')
    (h : ∀ k, l = some k → k.Sound) : ∀ k, l' = some k → k.Sound := by
  cases hstep with
  | filed _ catalogue filed opening answers =>
    rintro k ⟨⟩
    exact filed_sound catalogue filed opening answers
  | changed change =>
    rintro k ⟨⟩
    exact change_sound (h _ rfl) change

/-! ## Answered requests -/

/-- What an answered request keeps: its outcome, its handler, its files and
its conversation. Only internal notes may still be added. -/
structure Life.Frozen (l l' : Life) : Prop where
  status : l'.req.status = l.req.status
  answerText : l'.req.answerText = l.req.answerText
  answerDescription : l'.req.answerDescription = l.req.answerDescription
  slaDeadline : l'.req.slaDeadline = l.req.slaDeadline
  assignedTo : l'.req.assignedTo = l.req.assignedTo
  files : l'.files = l.files
  publicMessages : l'.messages.filter (!·.isInternal) = l.messages.filter (!·.isInternal)

theorem Life.Frozen.refl (l : Life) : l.Frozen l := ⟨rfl, rfl, rfl, rfl, rfl, rfl, rfl⟩

theorem Life.Frozen.trans {l₁ l₂ l₃ : Life} (h₁ : l₁.Frozen l₂) (h₂ : l₂.Frozen l₃) :
    l₁.Frozen l₃ where
  status := h₂.status.trans h₁.status
  answerText := h₂.answerText.trans h₁.answerText
  answerDescription := h₂.answerDescription.trans h₁.answerDescription
  slaDeadline := h₂.slaDeadline.trans h₁.slaDeadline
  assignedTo := h₂.assignedTo.trans h₁.assignedTo
  files := h₂.files.trans h₁.files
  publicMessages := h₂.publicMessages.trans h₁.publicMessages

/-- Every operation but an internal note refuses an answered request. -/
theorem change_completed {r req' : Request} {start : Nat} {s : Session}
    (hstatus : r.status = .completed) (hchange : Change cfg start now r req' s) :
    req' = r ∧ s.history = [] ∧ s.files = [] ∧ ∀ m ∈ s.messages, m.isInternal = true := by
  cases hchange with
  | assigned _ _ _ isOpen =>
    rw [hstatus] at isOpen
    exact absurd (by decide) isOpen
  | moved target allowed =>
    rw [hstatus] at allowed
    cases allowed
  | answered _ _ isOpen =>
    rw [hstatus] at isOpen
    exact absurd (by decide) isOpen
  | @said _ m own isOpen rows =>
    refine ⟨rfl, rows.history, rows.files, ?_⟩
    rw [rows.messages]
    intro m' hm'
    rw [List.mem_singleton.mp hm']
    by_contra hpublic
    rw [hstatus] at isOpen
    exact absurd (by decide) (isOpen (by simpa using hpublic))
  | attached _ _ isOpen =>
    rw [hstatus] at isOpen
    exact absurd (by decide) isOpen
  | noticed _ _ running =>
    rw [hstatus] at running
    exact absurd running (by decide)

theorem change_frozen {l : Life} {req' : Request} {start : Nat} {s : Session}
    (hstatus : l.req.status = .completed) (hchange : Change cfg start now l.req req' s) :
    l.Frozen (l.after req' s) := by
  obtain ⟨rfl, -, hfiles, hinternal⟩ := change_completed hstatus hchange
  refine ⟨rfl, rfl, rfl, rfl, rfl, ?_, ?_⟩
  · simp [Life.after, hfiles]
  · simpa [Life.after] using hinternal

/-- Once answered, a request stays answered as it is. -/
theorem step_frozen {l l' : Option Life} {first : Life} (hfirst : first.req.status = .completed)
    (hstep : Life.Step cfg now cats l l') (h : ∃ k, l = some k ∧ first.Frozen k) :
    ∃ k, l' = some k ∧ first.Frozen k := by
  obtain ⟨k, hk, hfrozen⟩ := h
  cases hstep with
  | filed => cases hk
  | changed change =>
    cases hk
    exact ⟨_, rfl, hfrozen.trans (change_frozen (hfrozen.status.trans hfirst) change)⟩

/-! ## Every run -/

theorem run_sound (cfg : Settings) {db₀ : Db} (h : Start db₀) (es : List Event) :
    ∀ req ∈ (Runs.run (step cfg) db₀ es).requests,
      ((Runs.run (step cfg) db₀ es).lifeOf req).Sound := by
  intro req hreq
  have hlife := run_life cfg (P := fun l => ∀ k, l = some k → k.Sound)
    (fun hstep => step_sound hstep) h.wf req.id (by simp [h.life?]) es
  exact hlife _ ((run_wf cfg h.wf es).life?_mem hreq)

/-- The lifecycle of a request. In every state the system can reach each
request is sound, and one that is answered there stays frozen through
whatever happens next. -/
theorem lifecycle_invariant (cfg : Settings) {db₀ : Db} (h : Start db₀) (es later : List Event) :
    (∀ req ∈ (Runs.run (step cfg) db₀ es).requests,
      ((Runs.run (step cfg) db₀ es).lifeOf req).Sound) ∧
    ∀ req ∈ (Runs.run (step cfg) db₀ es).requests, req.status = .completed →
      ∃ req' ∈ (Runs.run (step cfg) db₀ (es ++ later)).requests, req'.id = req.id ∧
        ((Runs.run (step cfg) db₀ es).lifeOf req).Frozen
          ((Runs.run (step cfg) db₀ (es ++ later)).lifeOf req') := by
  have hwf := run_wf cfg h.wf es
  constructor
  · exact run_sound cfg h es
  · intro req hreq hstatus
    rw [Runs.run_append]
    have hlife := run_life cfg (P := fun l => ∃ k, l = some k ∧
        ((Runs.run (step cfg) db₀ es).lifeOf req).Frozen k)
      (fun hstep => step_frozen hstatus hstep) hwf req.id
      ⟨_, hwf.life?_mem hreq, .refl _⟩ later
    obtain ⟨k, hk, hfrozen⟩ := hlife
    obtain ⟨req', hreq', hid, rfl⟩ := life?_eq_some hk
    exact ⟨req', hreq', hid, hfrozen⟩

/-- The office files, answers and then tries to return a request. -/
theorem lifecycle_invariant_office :
    (Runs.run (step {}) office [filing 0, answering 1]).requests.map (·.status) = [.completed] ∧
    (∀ req ∈ (Runs.run (step {}) office [filing 0, answering 1]).requests,
      ((Runs.run (step {}) office [filing 0, answering 1]).lifeOf req).Sound) ∧
    ∀ req ∈ (Runs.run (step {}) office [filing 0, answering 1]).requests, req.status = .completed →
      ∃ req' ∈ (Runs.run (step {}) office ([filing 0, answering 1] ++ [returning 2])).requests,
        req'.id = req.id ∧
        ((Runs.run (step {}) office [filing 0, answering 1]).lifeOf req).Frozen
          ((Runs.run (step {}) office ([filing 0, answering 1] ++ [returning 2])).lifeOf req') :=
  ⟨by decide +kernel, lifecycle_invariant {} office_start [filing 0, answering 1] [returning 2]⟩

end Royd
