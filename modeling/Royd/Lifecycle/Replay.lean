/-
Royd.Lifecycle.Replay — the webhook stream of a request tells what its
student sees.

`StudentView` is the copy a partner platform keeps: `replay` folds the
stream into it, `Life.visible` reads it from the tables. The two are equal
after every commit: each deed extends the stream by what it changed, in an
order in which the last status and the last answer are the current ones.
-/
import Royd.Lifecycle.Acts
import Royd.Lifecycle.History

namespace Royd

open Api

/-! ## The partner's copy -/

/-- The answer columns of a request, with the files of the answer. -/
structure AnswerView where
  text : Option String := none
  description : Option String := none
  answeredAt : Option Int := none
  files : List AnswerFileEvent := []
  deriving DecidableEq, Repr

/-- A request as its student sees it: messages with id and content, files
with id and `is_answer`. -/
structure StudentView where
  status : Option RequestStatus := none
  slaDeadline : Option Int := none
  messages : List (Nat × String) := []
  files : List (Nat × Bool) := []
  answer : AnswerView := {}
  deriving DecidableEq, Repr

namespace StudentView

/-- What the extra fields of an event add. -/
def take (v : StudentView) : EventBody → StudentView
  | .requestCreated => v
  | .statusChanged _ _ none => v
  | .statusChanged _ _ (some a) => { v with answer := ⟨a.text, a.description, a.answeredAt, a.files⟩ }
  | .messageCreated id content _ _ _ => { v with messages := v.messages ++ [(id, content)] }
  | .fileAdded id _ _ _ _ isAnswer => { v with files := v.files ++ [(id, isAnswer)] }

/-- One more webhook: the last status and deadline count. -/
def next (v : StudentView) (w : Webhook) : StudentView :=
  take { v with status := some w.status, slaDeadline := some w.slaDeadline } w.body

/-- The copy a stream of webhooks leads to. -/
def replay (ws : List Webhook) : StudentView := ws.foldl next {}

@[simp] theorem replay_append (ws ws' : List Webhook) :
    replay (ws ++ ws') = ws'.foldl next (replay ws) := List.foldl_append

end StudentView

/-- The answer a request row and its files hold. -/
def answerView (req : Request) (files : List RequestFile) : AnswerView where
  text := req.answerText
  description := req.answerDescription
  answeredAt := req.answeredAt
  files := (files.filter (·.isAnswer)).map fun f =>
    { id := f.id, fileName := f.fileName, fileSize := f.fileSize, mimeType := f.mimeType }

/-- What the tables show the student. -/
def Life.visible (l : Life) : StudentView where
  status := some l.req.status
  slaDeadline := some l.req.slaDeadline
  messages := (l.messages.filter (!·.isInternal)).map fun m => (m.id, m.content)
  files := l.files.map fun f => (f.id, f.isAnswer)
  answer := answerView l.req l.files

/-- The webhooks queued for a request, in the order of their outbox ids. -/
def Db.stream (db : Db) (requestId : Nat) : List Webhook :=
  (webhooksIn (db.outbox.mergeSort fun a b => decide (a.id ≤ b.id))).filter
    (·.requestId == requestId)

/-! ## The order of the outbox -/

/-- The outbox is in the order of its ids. -/
structure Db.Queued (db : Db) : Prop where
  sorted : (db.outbox.map (·.id)).Pairwise (· < ·)
  below : ∀ m ∈ db.outbox, m.id < db.nextId

variable {cfg : Settings} {now : Int} {cats : List RequestCategory} {db db' : Db} {e : Event}

theorem Db.Queued.commit (h : db.Queued) (s : Session) (hstart : db.nextId ≤ s.start) :
    (db.commit s).Queued := by
  obtain ⟨hids, hrange⟩ := s.outbox_ids
  constructor
  · show ((db.outbox ++ s.outbox).map (·.id)).Pairwise (· < ·)
    rw [List.map_append, List.pairwise_append]
    refine ⟨h.sorted, hids, fun a ha b hb => ?_⟩
    obtain ⟨m, hm, rfl⟩ := List.mem_map.mp ha
    obtain ⟨m', hm', rfl⟩ := List.mem_map.mp hb
    have hbelow := h.below m hm
    have habove := (hrange m' hm').1
    omega
  · intro m hm
    show m.id < max db.nextId s.nextId
    rcases List.mem_append.mp hm with hm | hm
    · have := h.below m hm
      omega
    · have := (hrange m hm).2
      omega

theorem Effect.queued (heffect : Effect cfg now cats db db') (h : db.Queued) : db'.Queued := by
  cases heffect with
  | outside requests history files messages outbox nextId catalogue =>
    constructor
    · rw [outbox]
      exact h.sorted
    · rw [outbox]
      exact fun m hm => (h.below m hm).trans_le nextId
  | @filed category req first second fs s current filed opening rows =>
    have hcommit := h.commit s (by rw [rows.start]; omega)
    exact ⟨hcommit.sorted, hcommit.below⟩
  | @changed w _ change =>
    have hcommit := h.commit w.session change.stamped.1.ge
    exact ⟨hcommit.sorted, hcommit.below⟩

theorem Effects.queued (heffects : Effects cfg now cats db db') (h : db.Queued) : db'.Queued := by
  induction heffects with
  | refl => exact h
  | tail _ heffect ih => exact heffect.queued ih

theorem run_queued (cfg : Settings) {db₀ : Db} (h : Start db₀) (es : List Event) :
    (Runs.run (step cfg) db₀ es).Queued := by
  have hinv : ∀ (db : Db) (e : Event), db.Wf ∧ db.Queued →
      (step cfg db e).Wf ∧ (step cfg db e).Queued :=
    fun db e hdb => ⟨(step_life cfg hdb.1 e).1, (step_effects hdb.1 e).queued hdb.2⟩
  refine (Runs.run_invariant hinv ⟨h.wf, ?_, ?_⟩ es).2 <;> simp [h.outbox]

/-- In the order of the ids the stream is what was queued, as it was queued. -/
theorem Db.Queued.stream (h : db.Queued) (requestId : Nat) :
    db.stream requestId = db.feed requestId := by
  unfold Db.stream Db.feed
  rw [List.mergeSort_of_pairwise]
  exact (List.pairwise_map.mp h.sorted).imp fun hlt => decide_eq_true hlt.le

/-! ## What a deed adds to the stream -/

open StudentView

section Replay

variable {r : Request} {v : StudentView}

/-- With webhooks on every event is queued. -/
theorem published_on (hon : cfg.webhookUrl.isEmpty = false) (db : Db) (r : Request)
    (body : EventBody) : published cfg db r body = [webhookFor db r body] := by
  unfold published
  rw [if_neg (by simp [hon])]

/-- The events of some files add the files and leave messages and answer. -/
theorem replay_files (hon : cfg.webhookUrl.isEmpty = false) (db : Db) (r : Request)
    (fs : List RequestFile) (v : StudentView) :
    let v' := (fs.flatMap fun f => published cfg db r (fileBody r f)).foldl next v
    v'.messages = v.messages ∧ v'.files = v.files ++ fs.map (fun f => (f.id, f.isAnswer)) ∧
      v'.answer = v.answer := by
  induction fs generalizing v with
  | nil => simp
  | cons f fs ih =>
    obtain ⟨hmessages, hfiles, hanswer⟩ := ih (next v (webhookFor db r (fileBody r f)))
    rw [List.flatMap_cons, published_on hon, List.singleton_append, List.foldl_cons]
    refine ⟨hmessages, ?_, hanswer⟩
    rw [hfiles]
    simp [next, take, webhookFor, fileBody]

/-- The answer the last event of a deed carries. -/
theorem answerEvent_view (req : Request) (name : Option String) {fs : List RequestFile}
    (h : ∀ f ∈ fs, f.isAnswer = true) :
    (⟨(answerEvent req name fs).text, (answerEvent req name fs).description,
      (answerEvent req name fs).answeredAt, (answerEvent req name fs).files⟩ : AnswerView)
      = answerView req fs := by
  unfold answerView
  rw [List.filter_eq_self.mpr h]
  rfl

/-- The events of an answer: its files, then the status with the answer. -/
theorem replay_answer (hon : cfg.webhookUrl.isEmpty = false) (db : Db) (r req' : Request)
    (old : RequestStatus) (name : Option String) {fs : List RequestFile}
    (h : ∀ f ∈ fs, f.isAnswer = true) (v : StudentView) :
    ((fs.flatMap fun f => published cfg db r (fileBody r f)) ++
        published cfg db req' (.statusChanged old none (some (answerEvent req' name fs)))).foldl
        next v =
      { status := some req'.status
        slaDeadline := some req'.slaDeadline
        messages := v.messages
        files := v.files ++ fs.map fun f => (f.id, f.isAnswer)
        answer := answerView req' fs } := by
  obtain ⟨hmessages, hfiles, -⟩ := replay_files hon db r fs v
  rw [List.foldl_append, published_on hon, List.foldl_cons, List.foldl_nil, ← answerEvent_view _ name h]
  simp only [next, take, webhookFor, hmessages, hfiles]

end Replay

/-! ## The simulation -/

/-- What the student sees of a request that may not be there. -/
def visible? (l : Option Life) : StudentView := l.elim {} Life.visible

/-- The copy and the tables agree about a request. -/
def Agrees (l : Option Life) (feed : List Webhook) : Prop :=
  replay feed = visible? l ∧ ∀ k, l = some k → k.Sound

theorem filed_agrees (hon : cfg.webhookUrl.isEmpty = false) {student : User}
    {client : Option ApiClient} {req : Request} {first second : RequestHistory}
    {fs : List RequestFile} {s : Session} (answers : List OutboxMessage)
    (h : Opened cfg db now student client req first second fs s) :
    replay (filingWebhooks cfg db req fs) = Life.visible ⟨req, [first, second], fs, [], answers⟩ := by
  obtain ⟨category, hfiled, hopening⟩ := h.filed
  have hanswers : ∀ f ∈ fs, f.isAnswer = true := fun f hf => (hopening.answerFiles f hf).2
  unfold filingWebhooks
  rw [published_on hon]
  split
  · -- The answer is announced with the filing.
    rw [replay_append, replay_answer hon db req req .new none hanswers]
    simp [replay, next, take, webhookFor, Life.visible, answerView]
  · rename_i hopen
    have hrouted : category.routing ≠ .autoReply := fun hauto =>
      hopen (hfiled.answered hauto).1
    obtain ⟨-, -, -, hat, htext⟩ := hfiled.routed hrouted
    simp [replay, next, take, webhookFor, Life.visible, answerView, hopening.noFiles hrouted, hat,
      htext, h.undescribed hopen]

/-- A message or a file of its own is added by one event. -/
theorem deed_agrees (hon : cfg.webhookUrl.isEmpty = false) {l : Life} {actor : User}
    {req' : Request} {s : Session} (hsound : l.Sound) (h : Deed cfg db now l.req actor req' s) :
    (webhooksIn s.outbox).foldl next l.visible = (l.after req' s).visible := by
  cases h with
  | assigned _ _ _ _ _ _ _ rows =>
    rw [rows.webhooks]
    simp [Life.visible, Life.after, answerView, rows.files, rows.messages]
  | moved _ _ _ _ applied _ _ rows =>
    rw [rows.webhooks, published_on hon]
    rw [(applyStatus_eq_ok applied).shape]
    simp [next, take, webhookFor, Life.visible, Life.after, answerView, rows.files, rows.messages]
  | resubmitted _ _ _ applied _ _ rows =>
    rw [rows.webhooks, published_on hon]
    rw [(applyStatus_eq_ok applied).shape]
    simp [next, take, webhookFor, Life.visible, Life.after, answerView, rows.files, rows.messages]
  | @answered _ e _ fs text _ isOpen applied _ _ own rows =>
    have hanswers : ∀ f ∈ fs, f.isAnswer = true := fun f hf => (own f hf).2.2
    -- No answer file was there before the answer.
    have hbefore : l.files.filter (·.isAnswer) = [] := by
      rw [List.filter_eq_nil_iff]
      intro f hf hanswer
      exact (hsound.not_completed isOpen).2 (hsound.answerFiles f hf hanswer)
    rw [rows.webhooks, replay_answer hon db l.req req' _ _ hanswers]
    simp [Life.visible, Life.after, answerView, rows.files, rows.messages, hbefore]
  | @said _ m _ _ _ _ rows =>
    rw [rows.webhooks]
    cases hinternal : m.isInternal with
    | true =>
      simp [Life.visible, Life.after, answerView, rows.files, rows.messages, hinternal]
    | false =>
      rw [published_on hon]
      simp [next, take, webhookFor, messageBody, Life.visible, Life.after, answerView, rows.files,
        rows.messages, hinternal]
  | @attached _ f _ _ ordinary _ rows =>
    rw [rows.webhooks, published_on hon]
    simp [next, take, webhookFor, fileBody, Life.visible, Life.after, answerView, rows.files,
      rows.messages, ordinary]

/-- The sweep changes nothing the student sees. -/
theorem sweepOne_visible (cfg : Settings) (db : Db) (l : Life) (now : Int) :
    (l.after (sweepOne cfg db l.req now).req (sweepOne cfg db l.req now).session).visible
      = l.visible := by
  have hleaves := sweepOne_leaves cfg db l.req now
  unfold Life.visible Life.after
  rw [hleaves.files, hleaves.messages]
  unfold sweepOne answerView
  dsimp only
  split <;> simp

/-- What a step in the life of a request changes for its student, its
webhooks tell. -/
theorem story_visible (hon : cfg.webhookUrl.isEmpty = false) {l l' : Option Life}
    {ws : List Webhook} (hstory : Story cfg e l l' ws) (hsound : ∀ k, l = some k → k.Sound) :
    ws.foldl next (visible? l) = visible? l' ∧ ∀ k, l' = some k → k.Sound := by
  cases hstory with
  | filed opened catalogue answers =>
    obtain ⟨category, hfiled, hopening⟩ := opened.filed
    refine ⟨filed_agrees hon answers opened, ?_⟩
    rintro k ⟨⟩
    exact filed_sound catalogue hfiled hopening answers
  | done call deed change =>
    refine ⟨deed_agrees hon (hsound _ rfl) deed, ?_⟩
    rintro k ⟨⟩
    exact change_sound (hsound _ rfl) change
  | noticed sweep needs =>
    refine ⟨(sweepOne_visible cfg _ _ e.now).symm, ?_⟩
    rintro k ⟨⟩
    exact change_sound (hsound _ rfl) (sweepOne_change (needsNotice_running needs))

theorem story_agrees (hon : cfg.webhookUrl.isEmpty = false) {l l' : Option Life}
    {ws feed : List Webhook} (hstory : Story cfg e l l' ws) (h : Agrees l feed) :
    Agrees l' (feed ++ ws) := by
  obtain ⟨hvisible, hsound⟩ := story_visible hon hstory h.2
  refine ⟨?_, hsound⟩
  rw [replay_append, h.1, hvisible]

/-! ## Every run -/

/-- What the student sees of the request with this id. -/
def Db.studentView (db : Db) (requestId : Nat) : StudentView := visible? (db.life? requestId)

/-- An event keeps copy and tables in agreement, and only adds to the
stream. -/
theorem step_agrees (hon : cfg.webhookUrl.isEmpty = false) (hwf : db.Wf) (e : Event) {id : Nat}
    (h : Agrees (db.life? id) (db.feed id)) :
    Agrees ((step cfg db e).life? id) ((step cfg db e).feed id) ∧
      db.feed id <+: (step cfg db e).feed id := by
  refine acts_keep (P := fun l feed => Agrees l feed ∧ db.feed id <+: feed) ?_ hwf
    (step_acts cfg hwf e) ⟨h, List.prefix_rfl⟩
  intro l l' ws feed hstory hl
  exact ⟨story_agrees hon hstory hl.1, hl.2.trans (List.prefix_append _ _)⟩

theorem run_agrees (hon : cfg.webhookUrl.isEmpty = false) {db₀ : Db} (h : Start db₀)
    (es : List Event) (id : Nat) :
    Agrees ((Runs.run (step cfg) db₀ es).life? id) ((Runs.run (step cfg) db₀ es).feed id) := by
  have hinv : ∀ (db : Db) (e : Event), db.Wf ∧ Agrees (db.life? id) (db.feed id) →
      (step cfg db e).Wf ∧ Agrees ((step cfg db e).life? id) ((step cfg db e).feed id) :=
    fun db e hdb => ⟨(step_life cfg hdb.1 e).1, (step_agrees hon hdb.1 e hdb.2).1⟩
  refine (Runs.run_invariant hinv ⟨h.wf, ?_, ?_⟩ es).2
  · rw [h.life?, Db.feed, h.outbox]
    rfl
  · rw [h.life?]
    exact fun k hk => by cases hk

/-- The webhook stream reconstructs the student's view. With webhooks on,
after every run, replaying the stream of any request gives what the tables
show its student. Whatever event comes next extends the stream by webhooks
that tell exactly what it changed for the student, and an event that is
rolled back changes and queues nothing. -/
theorem webhook_stream (cfg : Settings) (hon : cfg.webhookUrl.isEmpty = false) {db₀ : Db}
    (h : Start db₀) (es : List Event) :
    (∀ id, replay ((Runs.run (step cfg) db₀ es).stream id)
      = (Runs.run (step cfg) db₀ es).studentView id) ∧
    ∀ e : Event,
      (∀ id, ∃ ws, (Runs.run (step cfg) db₀ (es ++ [e])).stream id
          = (Runs.run (step cfg) db₀ es).stream id ++ ws ∧
        ws.foldl next ((Runs.run (step cfg) db₀ es).studentView id)
          = (Runs.run (step cfg) db₀ (es ++ [e])).studentView id ∧
        ((Runs.run (step cfg) db₀ (es ++ [e])).studentView id
          ≠ (Runs.run (step cfg) db₀ es).studentView id → ws ≠ [])) ∧
      ∀ exc, e.step.apply cfg (Runs.run (step cfg) db₀ es) e.now = .error exc →
        Runs.run (step cfg) db₀ (es ++ [e]) = Runs.run (step cfg) db₀ es := by
  have hstream : ∀ es id, (Runs.run (step cfg) db₀ es).stream id
      = (Runs.run (step cfg) db₀ es).feed id := fun es id => (run_queued cfg h es).stream id
  have hreplay : ∀ es id, replay ((Runs.run (step cfg) db₀ es).stream id)
      = (Runs.run (step cfg) db₀ es).studentView id := by
    intro es id
    rw [hstream]
    exact (run_agrees hon h es id).1
  refine ⟨hreplay es, fun e => ⟨fun id => ?_, fun exc hfailed => ?_⟩⟩
  · obtain ⟨-, ws, hws⟩ := step_agrees hon (run_wf cfg h.wf es) e (run_agrees hon h es id)
    have hafter : (Runs.run (step cfg) db₀ (es ++ [e])).stream id
        = (Runs.run (step cfg) db₀ es).stream id ++ ws := by
      rw [hstream, hstream, Runs.run_concat, hws]
    have hfold : ws.foldl next ((Runs.run (step cfg) db₀ es).studentView id)
        = (Runs.run (step cfg) db₀ (es ++ [e])).studentView id := by
      rw [← hreplay (es ++ [e]), hafter, replay_append, hreplay]
    refine ⟨ws, hafter, hfold, ?_⟩
    rintro hchanged rfl
    exact hchanged hfold.symm
  · rw [Runs.run_concat]
    exact step_failed hfailed

/-- A partner platform is told of the office's requests. -/
def partnered : Settings := { webhookUrl := "https://portal.uz/royd" }

/-- The student writes to the office. -/
def writing (now : Int) : Event :=
  ⟨now, .call (.message 1 10 { content := "Ilova" })⟩

/-- The staff of the office leave a note of their own. -/
def noting (now : Int) : Event :=
  ⟨now, .call (.message 2 10 { content := "Tekshirilsin", isInternal := true })⟩

/-- The student files and writes, the office takes a note and answers. -/
def officeTalk : List Event := [filing 0, writing 1, noting 2, answering 3]

theorem webhook_stream_office :
    (Runs.run (step partnered) office officeTalk).studentView 10 =
      { status := some .completed
        slaDeadline := some (Sla.hours 43)
        messages := [(1, "Ilova")]
        answer := { text := some "Javob", answeredAt := some 3 } } ∧
    (∀ id, replay ((Runs.run (step partnered) office officeTalk).stream id)
      = (Runs.run (step partnered) office officeTalk).studentView id) ∧
    ∀ e : Event,
      (∀ id, ∃ ws, (Runs.run (step partnered) office (officeTalk ++ [e])).stream id
          = (Runs.run (step partnered) office officeTalk).stream id ++ ws ∧
        ws.foldl next ((Runs.run (step partnered) office officeTalk).studentView id)
          = (Runs.run (step partnered) office (officeTalk ++ [e])).studentView id ∧
        ((Runs.run (step partnered) office (officeTalk ++ [e])).studentView id
          ≠ (Runs.run (step partnered) office officeTalk).studentView id → ws ≠ [])) ∧
      ∀ exc, e.step.apply partnered (Runs.run (step partnered) office officeTalk) e.now
          = .error exc →
        Runs.run (step partnered) office (officeTalk ++ [e])
          = Runs.run (step partnered) office officeTalk :=
  ⟨by decide +kernel, webhook_stream partnered (by decide) office_start officeTalk⟩

end Royd
