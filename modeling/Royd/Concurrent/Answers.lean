/-
Royd.Concurrent.Answers — how often a request is answered when several
handlers work on it at once.

A handler checks the status on the row it loaded, so a commit is as good as
the row is by then. `CommitsInTime` is what the checks were meant to ensure:
no handler that moves the status commits onto a row that is completed
already. It is exactly the runs in which a request is answered at most once
and its outcome stays as it was committed. The runs that miss it exist: two
handlers that loaded the same open row both commit.

The induction carries `Life.Tally`: a completed request has one entry into
`completed` and at most one queued answer, any other request has none.
-/
import Royd.Concurrent.Handlers

namespace Royd

open Api

/-! ## The outcome of a request -/

/-- The columns an answer fixes. -/
structure Outcome where
  status : RequestStatus
  closedAt : Option Int
  answerText : Option String
  answeredAt : Option Int
  answeredBy : Option Nat
  slaDeadline : Int
  slaPausedAt : Option Int
  deriving DecidableEq, Repr

def Request.outcome (r : Request) : Outcome where
  status := r.status
  closedAt := r.closedAt
  answerText := r.answerText
  answeredAt := r.answeredAt
  answeredBy := r.answeredBy
  slaDeadline := r.slaDeadline
  slaPausedAt := r.slaPausedAt

/-- The entries into `completed`. -/
def completions (history : List RequestHistory) : Nat :=
  history.countP (·.newStatus = .completed)

@[simp] theorem completions_append (xs ys : List RequestHistory) :
    completions (xs ++ ys) = completions xs + completions ys := List.countP_append

/-- A completed request was completed by one entry, with at most one answer
announced; another request was not. -/
structure Life.Tally (l : Life) : Prop where
  entries : completions l.history = if l.req.status = .completed then 1 else 0
  answers : l.answers.length ≤ if l.req.status = .completed then 1 else 0

variable {cfg : Settings} {now : Int} {cats : List RequestCategory}

/-- What an operation does to the outcome: nothing, or it moves the request
to a status that is still open, or it answers it. -/
theorem Change.moves {start : Nat} {r req' : Request} {s : Session}
    (h : Change cfg start now r req' s) :
    (req'.status = r.status ∧ (∀ row : Request, (row.write r req').outcome = row.outcome) ∧
      completions s.history = 0 ∧ answersQueued s.outbox r.id = []) ∨
    (req'.status ≠ r.status ∧ req'.status ≠ .completed ∧
      completions s.history = 0 ∧ answersQueued s.outbox r.id = []) ∨
    (req'.status ≠ r.status ∧ req'.status = .completed ∧
      completions s.history = 1 ∧ (answersQueued s.outbox r.id).length ≤ 1) := by
  have hanswers : ∀ {hs fs ms n}, s.Holds start r.id hs fs ms n →
      (answersQueued s.outbox r.id).length ≤ n := fun rows => by
    simpa using rows.answers r.id
  have hsilent : ∀ {hs fs ms}, s.Holds start r.id hs fs ms 0 →
      answersQueued s.outbox r.id = [] := fun rows => by simpa using hanswers rows
  have hstays : ∀ {e : RequestHistory} {st}, e.Entry r now st st → st ≠ .completed →
      completions [e] = 0 := fun entry hne => by simp [completions, entry.newStatus, hne]
  cases h with
  | @assigned _ e assignee facultyId departmentId isOpen entry rows =>
    have hne : r.status ≠ .completed := fun heq => by
      rw [heq] at isOpen
      exact isOpen (by decide)
    refine .inl ⟨rfl, fun row => ?_, ?_, hsilent rows⟩
    · simp [Request.write, Request.outcome]
    · rw [rows.history]
      exact hstays entry hne
  | @moved _ e req' target allowed applied entry why rows =>
    have hstatus : req'.status = target := by rw [applied.shape]
    have hopen : target ≠ .completed := by
      rintro rfl
      revert allowed
      cases r.status <;> decide
    refine .inr (.inl ⟨?_, ?_, ?_, hsilent rows⟩)
    · rw [hstatus]
      exact ne_of_mem_allowedTransitions allowed
    · rwa [hstatus]
    · rw [rows.history]
      simp [completions, entry.newStatus, hopen]
  | @answered _ e req' fs actor text isOpen visible applied entry answerFiles rows =>
    have hstatus : req'.status = .completed := by rw [applied.shape]
    refine .inr (.inr ⟨?_, hstatus, ?_, hanswers rows⟩)
    · rw [hstatus]
      intro heq
      rw [← heq] at isOpen
      exact isOpen (by decide)
    · rw [rows.history]
      simp [completions, entry.newStatus]
  | said own isOpen rows =>
    exact .inl ⟨rfl, fun row => by simp, by simp [rows.history, completions], hsilent rows⟩
  | attached own ordinary isOpen rows =>
    exact .inl ⟨rfl, fun row => by simp, by simp [rows.history, completions], hsilent rows⟩
  | @noticed _ e warnedAt breachedAt running entry rows =>
    have hne : r.status ≠ .completed := fun heq => by
      rw [heq] at running
      exact absurd running (by decide)
    refine .inl ⟨rfl, fun row => ?_, ?_, hsilent rows⟩
    · simp [Request.write, Request.outcome]
    · rw [rows.history]
      exact hstays entry hne

/-- A status that was moved is written whatever the row held. -/
theorem Request.write_moved (row : Request) {r req' : Request} (h : req'.status ≠ r.status) :
    (row.write r req').status = req'.status := if_neg h

/-- A change keeps the tally if it does not move a request that is completed
by the time it is committed. -/
theorem Life.Tally.after {l : Life} {start : Nat} {r req' : Request} {s : Session} (h : l.Tally)
    (hid : l.req.id = r.id) (hchange : Change cfg start now r req' s)
    (hopen : req'.status ≠ r.status → l.req.status ≠ .completed) :
    (l.after (l.req.write r req') s).Tally ∧
      (l.req.status = .completed → (l.req.write r req').outcome = l.req.outcome) := by
  obtain ⟨hentries, hanswers⟩ := h
  rcases hchange.moves with ⟨-, hout, hnone, hsilent⟩ | ⟨hmoved, hne, hnone, hsilent⟩
    | ⟨hmoved, hcompleted, hone, hlen⟩
  · have hsame : (l.req.write r req').status = l.req.status :=
      congrArg Outcome.status (hout l.req)
    refine ⟨⟨?_, ?_⟩, fun _ => hout l.req⟩
    · simp [Life.after, hsame, hnone, hentries]
    · simpa [Life.after, hsame, hid, hsilent] using hanswers
  · have hbefore := hopen hmoved
    have hstatus := Request.write_moved l.req hmoved
    rw [if_neg hbefore] at hentries hanswers
    refine ⟨⟨?_, ?_⟩, fun heq => absurd heq hbefore⟩
    · simp [Life.after, hstatus, hne, hnone, hentries]
    · simpa [Life.after, hstatus, hne, hid, hsilent] using hanswers
  · have hbefore := hopen hmoved
    have hstatus := Request.write_moved l.req hmoved
    rw [if_neg hbefore] at hentries hanswers
    refine ⟨⟨?_, ?_⟩, fun heq => absurd heq hbefore⟩
    · simp [Life.after, hstatus, hcompleted, hone, hentries]
    · simp only [Life.after, hstatus, hcompleted, hid, List.length_append, if_true]
      omega

/-- A change that moves a request that is completed by then completes it a
second time or takes its answer back. -/
theorem Life.Tally.broken {l : Life} {start : Nat} {r req' : Request} {s : Session} (h : l.Tally)
    (hchange : Change cfg start now r req' s) (hmoved : req'.status ≠ r.status)
    (hcompleted : l.req.status = .completed) :
    1 < completions (l.after (l.req.write r req') s).history ∨
      (l.req.write r req').outcome ≠ l.req.outcome := by
  have hentries := h.entries
  rw [if_pos hcompleted] at hentries
  rcases hchange.moves with ⟨hsame, -⟩ | ⟨-, hne, -⟩ | ⟨-, -, hone, -⟩
  · exact absurd hsame hmoved
  · refine .inr fun hout => hne ?_
    rw [← Request.write_moved l.req hmoved, ← hcompleted]
    exact congrArg Outcome.status hout
  · left
    simp [Life.after, hentries, hone]

/-- One handler at a time keeps the tally, and an answered request as it is. -/
theorem step_tally {l l' : Option Life} (hstep : Life.Step cfg now cats l l')
    (h : ∀ k, l = some k → k.Tally) : ∀ k, l' = some k → k.Tally := by
  cases hstep with
  | filed _ _ filed opening answers announced =>
    rintro k ⟨⟩
    refine ⟨?_, announced⟩
    simp [completions, opening.first.2.2.1, opening.entry.newStatus, List.countP_cons]
  | @changed l req' start s change =>
    rintro k ⟨⟩
    rw [← change.write]
    refine ((h _ rfl).after rfl change fun hmoved heq => hmoved ?_).1
    rw [(change_completed heq change).1]

/-- A step in the life of a completed request leaves its row alone. -/
theorem step_completed {l l' : Option Life} {r : Request} (hr : r.status = .completed)
    (hstep : Life.Step cfg now cats l l') (h : ∃ k, l = some k ∧ k.req = r) :
    ∃ k, l' = some k ∧ k.req = r := by
  obtain ⟨k, hk, rfl⟩ := h
  cases hstep with
  | filed => cases hk
  | changed change =>
    cases hk
    exact ⟨_, rfl, (change_completed hr change).1⟩

namespace Concurrent

/-! ## The messages -/

/-- One handler's final answer at most was committed for the request. -/
def AnsweredOnce (requestId : Nat) (w : World) : Prop :=
  ∀ r, w.db.getRequest requestId = some r →
    completions (w.db.historyOf requestId) ≤ 1 ∧
      (answersQueued w.db.outbox requestId).length ≤ 1

/-- A message leaves the outcome of the request alone if it is completed. -/
def KeepsOutcome (cfg : Settings) (requestId : Nat) (w : World) (m : Message) : Prop :=
  ∀ r, w.db.getRequest requestId = some r → r.status = .completed →
    ((exchange cfg w m).db.getRequest requestId).map Request.outcome = some r.outcome

/-- No handler that moves the status of the request commits onto a row that
is completed by then. -/
def CommitsInTime (requestId : Nat) (w : World) : Message → Prop
  | .commit i => ∀ p, w.parties[i]? = some p → p.call.requestId = requestId →
    p.call.movesStatus = true → ∀ r, w.db.getRequest requestId = some r → r.status ≠ .completed
  | _ => True

/-- What the induction carries. -/
structure World.Tallied (cfg : Settings) (requestId : Nat) (w : World) : Prop where
  ok : w.Ok cfg
  tally : ∀ l, w.db.life? requestId = some l → l.Tally

variable {requestId : Nat} {w : World}

theorem World.Tallied.answeredOnce (h : w.Tallied cfg requestId) : AnsweredOnce requestId w := by
  intro r hr
  obtain ⟨hentries, hanswers⟩ := h.tally _ (by rw [Db.life?, hr, Option.map_some])
  dsimp only at hentries hanswers
  split at hentries
  · rename_i hcompleted
    rw [if_pos hcompleted] at hanswers
    exact ⟨hentries.le, hanswers⟩
  · rename_i hne
    rw [if_neg hne] at hanswers
    omega

/-- The life a row belongs to. -/
theorem getRequest_life {db : Db} {r : Request} (h : db.getRequest requestId = some r) :
    ∃ l, db.life? requestId = some l ∧ l.req = r :=
  ⟨_, by rw [Db.life?, h, Option.map_some], rfl⟩

theorem life_getRequest {db : Db} {l : Life} (h : db.life? requestId = some l) :
    db.getRequest requestId = some l.req ∧ l.history = db.historyOf requestId := by
  obtain ⟨r, hr, rfl⟩ := Option.map_eq_some_iff.mp h
  exact ⟨hr, rfl⟩

/-- A message that leaves the request as it is. -/
theorem keepsOutcome_of_life {m : Message}
    (h : (exchange cfg w m).db.life? requestId = w.db.life? requestId) :
    KeepsOutcome cfg requestId w m := by
  intro r hr _
  obtain ⟨l, hl, rfl⟩ := getRequest_life hr
  rw [(life_getRequest (h.trans hl)).1, Option.map_some]

/-- A commit for the request, seen from its life. -/
theorem commit_life {i : Nat} {p : Party} {l : Life} (h : w.Ok cfg) (hp : w.parties[i]? = some p)
    (habout : p.call.requestId = requestId) (hl : w.db.life? requestId = some l) :
    (exchange cfg w (.commit i)).db.life? requestId
        = some (l.after (l.req.write p.work.loaded p.work.req) p.work.session) ∧
      l.req.id = p.work.loaded.id := by
  have hparty := h.parties p (List.mem_of_getElem? hp)
  obtain ⟨start, now, hchange⟩ := hparty.change
  rw [← habout, ← hparty.about] at hl ⊢
  rw [exchange_commit_some hp]
  exact ⟨life?_finish_own hl hchange, (getRequest_mem (life_getRequest hl).1).2⟩

/-- A message in time keeps the tally and the outcome. -/
theorem exchange_tallied (h : w.Tallied cfg requestId) (m : Message)
    (hm : CommitsInTime requestId w m) :
    (exchange cfg w m).Tallied cfg requestId ∧ KeepsOutcome cfg requestId w m := by
  have hok := exchange_ok h.ok m
  have hsame : (exchange cfg w m).db.life? requestId = w.db.life? requestId →
      (exchange cfg w m).Tallied cfg requestId ∧ KeepsOutcome cfg requestId w m := fun heq =>
    ⟨⟨hok, fun l hl => h.tally l (heq ▸ hl)⟩, keepsOutcome_of_life heq⟩
  cases m with
  | load call now =>
    refine hsame ?_
    cases hhandle : call.handle cfg w.db now with
    | error _ => rw [exchange_load_error hhandle]
    | ok work =>
      rw [exchange_load_ok hhandle]
      rfl
  | drop i => exact hsame rfl
  | event e =>
    have hsteps := (step_life cfg h.ok.wf e).2 requestId
    refine ⟨⟨hok, ?_⟩, fun r hr hcompleted => ?_⟩
    · exact steps_keep (fun hstep => step_tally hstep) hsteps h.tally
    · obtain ⟨k, hk, rfl⟩ := steps_keep (fun hstep => step_completed hcompleted hstep) hsteps
        (getRequest_life hr)
      rw [show (exchange cfg w (.event e)).db = step cfg w.db e from rfl, (life_getRequest hk).1,
        Option.map_some]
  | commit i =>
    cases hp : w.parties[i]? with
    | none => exact hsame (by rw [exchange_commit_none hp])
    | some p =>
      have hparty := h.ok.parties p (List.mem_of_getElem? hp)
      obtain ⟨start, now, hchange⟩ := hparty.change
      by_cases habout : p.call.requestId = requestId
      · cases hl : w.db.life? requestId with
        | none =>
          refine hsame ?_
          rw [hl]
          rw [← habout, ← hparty.about] at hl ⊢
          rw [Db.life?, Option.map_eq_none_iff] at hl ⊢
          rw [exchange_commit_some hp, getRequest_finish, hl, Option.map_none]
        | some l =>
          obtain ⟨hafter, hid⟩ := commit_life h.ok hp habout hl
          obtain ⟨htally, hout⟩ := (h.tally l hl).after hid hchange fun hmoved =>
            hm p hp habout (hparty.moves.mpr hmoved) _ (life_getRequest hl).1
          refine ⟨⟨hok, fun k hk => ?_⟩, fun r hr hcompleted => ?_⟩
          · rw [hafter] at hk
            cases hk
            exact htally
          · rw [(life_getRequest hl).1] at hr
            cases hr
            rw [(life_getRequest hafter).1, Option.map_some]
            exact congrArg some (hout hcompleted)
      · refine hsame ?_
        rw [exchange_commit_some hp]
        exact life?_finish_other (hparty.about ▸ habout) hchange

/-- A message that is late answers the request twice or changes its
outcome. -/
theorem exchange_late (h : w.Tallied cfg requestId) {m : Message}
    (hm : ¬ CommitsInTime requestId w m) :
    ¬ (AnsweredOnce requestId (exchange cfg w m) ∧ KeepsOutcome cfg requestId w m) := by
  rintro ⟨honce, hkeeps⟩
  cases m with
  | load => exact hm trivial
  | drop => exact hm trivial
  | event => exact hm trivial
  | commit i =>
    refine hm fun p hp habout hmoves r hr hcompleted => ?_
    have hparty := h.ok.parties p (List.mem_of_getElem? hp)
    obtain ⟨start, now, hchange⟩ := hparty.change
    obtain ⟨l, hl, rfl⟩ := getRequest_life hr
    obtain ⟨hafter, -⟩ := commit_life h.ok hp habout hl
    obtain ⟨hrow, hhistory⟩ := life_getRequest hafter
    rcases (h.tally l hl).broken hchange (hparty.moves.mp hmoves) hcompleted with htwice | hout
    · have hone := (honce _ hrow).1
      rw [← hhistory] at hone
      omega
    · have hkept := hkeeps l.req hr hcompleted
      rw [hrow, Option.map_some] at hkept
      exact hout (Option.some.inj hkept)

/-! ## Every interleaving -/

/-- From any state the induction can be in, the messages that are all in
time are the ones that keep the law. -/
theorem tallied_iff : ∀ {w : World} (ms : List Message), w.Tallied cfg requestId →
    ((Runs.Always (exchange cfg) (AnsweredOnce requestId) w ms ∧
      Runs.Along (exchange cfg) (KeepsOutcome cfg requestId) w ms) ↔
      Runs.Along (exchange cfg) (CommitsInTime requestId) w ms)
  | w, [], h => ⟨fun _ => trivial, fun _ => ⟨h.answeredOnce, trivial⟩⟩
  | w, m :: ms, h => by
    by_cases hm : CommitsInTime requestId w m
    · obtain ⟨hnext, hkeeps⟩ := exchange_tallied h m hm
      have ih := tallied_iff ms hnext
      constructor
      · rintro ⟨⟨-, honce⟩, -, halong⟩
        exact ⟨hm, ih.mp ⟨honce, halong⟩⟩
      · rintro ⟨-, hrest⟩
        obtain ⟨honce, halong⟩ := ih.mpr hrest
        exact ⟨⟨h.answeredOnce, honce⟩, hkeeps, halong⟩
    · constructor
      · rintro ⟨⟨-, honce⟩, hkeeps, -⟩
        exact absurd ⟨Runs.Always.head honce, hkeeps⟩ (exchange_late h hm)
      · rintro ⟨hin, -⟩
        exact absurd hin hm

/-- Handlers that interleave answer a request once and leave its outcome
alone in exactly those runs in which none of them moves the status of a row
that was completed after it loaded it. -/
theorem answeredOnce_iff_commitsInTime (cfg : Settings) {db₀ : Db} (h : Start db₀)
    (ms : List Message) (requestId : Nat) :
    (Runs.Always (exchange cfg) (AnsweredOnce requestId) { db := db₀ } ms ∧
      Runs.Along (exchange cfg) (KeepsOutcome cfg requestId) { db := db₀ } ms) ↔
      Runs.Along (exchange cfg) (CommitsInTime requestId) { db := db₀ } ms :=
  tallied_iff ms
    { ok := start_ok h
      tally := fun l hl => by rw [h.life?] at hl; cases hl }

/-- The office, where the request is answered by one handler while another
one is still looking at it. -/
def answerAndNote : List Message :=
  [.event (filing 0), .load (.answer 2 10 "Javob" []) 1,
    .load (.message 2 10 { content := "Eslatma", isInternal := true }) 2, .commit 0, .commit 0]

theorem answeredOnce_office :
    Runs.Always (exchange {}) (AnsweredOnce 10) { db := office } answerAndNote ∧
      Runs.Along (exchange {}) (KeepsOutcome {} 10) { db := office } answerAndNote := by
  refine (answeredOnce_iff_commitsInTime {} office_start answerAndNote 10).mpr
    ⟨trivial, trivial, trivial, ?_, ?_, trivial⟩
  · intro p _ _ _ r hr
    have hopen : ((Runs.run (exchange {}) { db := office } (answerAndNote.take 3)).db.getRequest
        10).all (·.status ≠ .completed) = true := by decide +kernel
    have : (some r).all (·.status ≠ .completed) = true := hr ▸ hopen
    simpa using this
  · intro p hp _ hmoves
    have hstays : (Runs.run (exchange {}) { db := office } (answerAndNote.take 4)).parties[0]?.all
        (!·.call.movesStatus) = true := by decide +kernel
    have : (some p).all (!·.call.movesStatus) = true := hp ▸ hstays
    simp [hmoves] at this

/-- Two handlers load the same open request and both answer it. -/
def twoAnswers : List Message :=
  [.event (filing 0), .load (.answer 2 10 "Javob" []) 1, .load (.answer 2 10 "Rad" []) 2,
    .commit 0, .commit 0]

/-- Both answers are committed, and the second one replaces the first. -/
theorem twoAnswers_lost_update :
    ¬ Runs.Always (exchange {}) (AnsweredOnce 10) { db := office } twoAnswers ∧
      ¬ Runs.Along (exchange {}) (KeepsOutcome {} 10) { db := office } twoAnswers := by
  constructor
  · intro honce
    have hlast := honce.last
    have hrow : ((Runs.run (exchange {}) { db := office } twoAnswers).db.getRequest 10).isSome := by
      decide +kernel
    obtain ⟨r, hr⟩ := Option.isSome_iff_exists.mp hrow
    exact absurd (hlast r hr).1 (by decide +kernel)
  · rintro ⟨-, -, -, -, hkeeps, -⟩
    let before := (Runs.run (exchange {}) { db := office } (twoAnswers.take 4)).db.getRequest 10
    have hrow : before.any (·.status = .completed) = true := by decide +kernel
    obtain ⟨r, hr, hcompleted⟩ := (Option.any_eq_true _ _).mp hrow
    have hkept := hkeeps r hr (by simpa using hcompleted)
    have hchanged : ((Runs.run (exchange {}) { db := office } twoAnswers).db.getRequest 10).map
        Request.outcome ≠ before.map Request.outcome := by decide +kernel
    rw [show before = some r from hr, Option.map_some] at hchanged
    exact hchanged hkept

end Concurrent

end Royd
