/-
Royd.Concurrent.ExactlyOnce — a submission that is repeated files one
request.

Every message changes the view of the tables in one of the ways
`Royd.Concurrent.Registry` treats, so `Sane` holds in every reachable state.
`Recorded` is the second invariant: the tables are what they were at the
start followed by the sessions that were committed, and the requests are
those of the filings among them, one each.
-/
import Royd.Concurrent.Filings
import Mathlib.Data.List.Pairwise
import Mathlib.Data.List.Perm.Basic

namespace Royd

/-! ## What a step adds to the tables -/

/-- The tables after `ss` were committed, one after the other. -/
structure Db.Adds (db db' : Db) (ss : List Session) : Prop where
  history : db'.history = db.history ++ ss.flatMap Session.history
  files : db'.files = db.files ++ ss.flatMap Session.files
  messages : db'.messages = db.messages ++ ss.flatMap Session.messages
  notifications : db'.notifications = db.notifications ++ ss.flatMap Session.notifications
  auditLogs : db'.auditLogs = db.auditLogs ++ ss.flatMap Session.auditLogs
  outbox : db'.outbox = db.outbox ++ ss.flatMap Session.outbox

theorem Db.Adds.refl (db : Db) : db.Adds db [] := by
  constructor <;> simp

theorem Db.Adds.trans {db₁ db₂ db₃ : Db} {ss ts : List Session} (h₁ : db₁.Adds db₂ ss)
    (h₂ : db₂.Adds db₃ ts) : db₁.Adds db₃ (ss ++ ts) := by
  constructor
  · rw [h₂.history, h₁.history, List.flatMap_append, List.append_assoc]
  · rw [h₂.files, h₁.files, List.flatMap_append, List.append_assoc]
  · rw [h₂.messages, h₁.messages, List.flatMap_append, List.append_assoc]
  · rw [h₂.notifications, h₁.notifications, List.flatMap_append, List.append_assoc]
  · rw [h₂.auditLogs, h₁.auditLogs, List.flatMap_append, List.append_assoc]
  · rw [h₂.outbox, h₁.outbox, List.flatMap_append, List.append_assoc]

theorem adds_finish (db : Db) (w : Work) : db.Adds (db.finish w) [w.session] := by
  constructor <;> simp [Db.finish, Db.updateRequest, Db.commit]

namespace Submissions

open Api

variable {cfg : Settings}

/-- A step of the rest of the system: sessions, but no request and nobody
new. -/
structure Outside (db db' : Db) (ss : List Session) : Prop where
  grows : db.view.Grows db'.view [] [] []
  adds : db.Adds db' ss

theorem Outside.refl (db : Db) : Outside db db [] :=
  ⟨⟨le_rfl, by simp, by simp, by simp⟩, .refl db⟩

theorem Outside.trans {db₁ db₂ db₃ : Db} {ss ts : List Session} (h₁ : Outside db₁ db₂ ss)
    (h₂ : Outside db₂ db₃ ts) : Outside db₁ db₃ (ss ++ ts) where
  grows :=
    { nextId := h₁.grows.nextId.trans h₂.grows.nextId
      userIds := by rw [h₂.grows.userIds, h₁.grows.userIds, List.append_nil]
      identities := by rw [h₂.grows.identities, h₁.grows.identities, List.append_nil]
      registry := by rw [h₂.grows.registry, h₁.grows.registry, List.append_nil] }
  adds := h₁.adds.trans h₂.adds

/-- A handler that commits leaves who is who and every entry as it was. -/
theorem outside_finish (db : Db) (w : Work) : Outside db (db.finish w) [w.session] where
  grows :=
    { nextId := Nat.le_max_left _ _
      userIds := (List.append_nil _).symm
      identities := (List.append_nil _).symm
      registry := by
        show List.map _ (List.map _ _) = _
        rw [List.map_map, List.append_nil]
        refine List.map_congr_left fun row _ => ?_
        dsimp only [Function.comp]
        split <;> rfl }
  adds := adds_finish db w

theorem outside_sweep (cfg : Settings) (now : Int) : ∀ (candidates : List Request) (db : Db),
    Outside db (candidates.foldl (fun db req => db.finish (sweepOne cfg db req now)) db)
      (sweepSessions cfg now db candidates)
  | [], db => .refl db
  | r :: rest, db =>
    (outside_finish db (sweepOne cfg db r now)).trans (outside_sweep cfg now rest _)

/-- An edit of the catalogue touches nothing else. -/
theorem outside_catalogue {db db' : Db} {edit : CatalogueEdit} {now : Int}
    (h : edit.apply cfg db now = .ok db') : Outside db db' [] := by
  have hrest : ∀ (categories : List RequestCategory) (files : List AutoReplyFile) (nextId : Nat),
      db.nextId ≤ nextId →
      Outside db { db with categories, autoReplyFiles := files, nextId } [] := by
    intro categories files nextId hle
    refine ⟨⟨hle, ?_, ?_, ?_⟩, ?_⟩
    · exact (List.append_nil _).symm
    · exact (List.append_nil _).symm
    · exact (List.append_nil _).symm
    · constructor <;> exact (List.append_nil _).symm
  cases edit with
  | create data =>
    unfold CatalogueEdit.apply buildCategory at h
    dsimp only at h
    split at h
    · cases h
      exact hrest _ _ _ (Nat.le_succ _)
    · obtain ⟨_, _, h⟩ := bind_eq_ok.mp h
      obtain ⟨_, _, h⟩ := bind_eq_ok.mp h
      obtain ⟨_, _, h⟩ := bind_eq_ok.mp h
      cases h
      exact hrest _ _ _ (Nat.le_succ _)
  | update categoryId payload =>
    obtain ⟨cat, _, h⟩ := bind_eq_ok.mp h
    obtain ⟨cat', _, h⟩ := bind_eq_ok.mp h
    cases h
    exact hrest _ _ _ le_rfl
  | deactivate categoryId =>
    obtain ⟨cat, _, h⟩ := bind_eq_ok.mp h
    cases h
    exact hrest _ _ _ le_rfl
  | addFile categoryId upload userId =>
    obtain ⟨cat, _, h⟩ := bind_eq_ok.mp h
    unfold addAutoReplyFile at h
    split at h
    · cases h
    split at h
    · cases h
    split at h
    · cases h
    · cases h
      exact hrest _ _ _ (Nat.le_succ _)
  | removeFile categoryId fileId =>
    obtain ⟨cat, _, h⟩ := bind_eq_ok.mp h
    unfold removeAutoReplyFile at h
    split at h
    · cases h
    · cases h
      exact hrest _ _ _ le_rfl

/-- What an event of the rest of the system does. -/
theorem outside_event {db : Db} {e : Event} (h : permitted db e.step = true) :
    Outside db (step cfg db e) (sessionsOf cfg db e) := by
  obtain ⟨now, s⟩ := e
  cases s with
  | create => cases h
  | clientCreate => cases h
  | call c =>
    unfold sessionsOf step Step.apply
    dsimp only
    cases hhandle : c.handle cfg db now with
    | error _ => exact .refl db
    | ok w => exact outside_finish db w
  | sweep useLock won =>
    unfold sessionsOf step Step.apply sweepSlaDeadlines
    dsimp only
    split
    · exact .refl db
    · exact outside_sweep cfg now _ db
  | catalogue edit =>
    unfold sessionsOf step Step.apply
    dsimp only
    cases happly : edit.apply cfg db now with
    | error _ => exact .refl db
    | ok db' => exact outside_catalogue happly
  | people users departments faculties studentGroups =>
    simp only [permitted, Bool.and_eq_true, beq_iff_eq] at h
    refine ⟨⟨le_rfl, ?_, ?_, ?_⟩, ?_⟩
    · exact h.2.trans (List.append_nil _).symm
    · exact h.1.trans (List.append_nil _).symm
    · exact (List.append_nil _).symm
    · constructor <;> exact (List.append_nil _).symm

/-! ## The invariant -/

/-- The filing is a whole run of `file_request` for its caller. -/
def Made (cfg : Settings) (c : Caller) (f : Filing) : Prop :=
  ∃ db data trackingNo key now, c.file cfg db data trackingNo key now = .ok f

/-- What was committed is what the tables hold. -/
structure Recorded (cfg : Settings) (db₀ : Db) (w : World) : Prop where
  adds : db₀.Adds w.db (w.commits.map Commit.session)
  entries : w.db.view.registry = w.filings.map (·.2.req.entry)
  whole : ∀ cf ∈ w.filings, cf.1.Settled w.db.view ∧ Made cfg cf.1 cf.2
  made : ∀ p ∈ w.parties, ∀ f, p.stage = .committing f → Made cfg p.caller f

structure World.Ok (cfg : Settings) (db₀ : Db) (w : World) : Prop where
  sane : Sane w.db.view w.parties w.responses
  recorded : Recorded cfg db₀ w

section Steps

variable {db₀ : Db} {w : World} {i : Nat} {p : Party}

theorem parties_perm (hp : w.parties[i]? = some p) : w.parties.Perm (p :: w.parties.eraseIdx i) := by
  obtain ⟨hi, rfl⟩ := List.getElem?_eq_some_iff.mp hp
  exact (List.getElem_cons_eraseIdx_perm hi).symm

/-- Parties and responses may come and go without the record noticing. -/
theorem Recorded.parties (h : Recorded cfg db₀ w) {db : Db} {ps : List Party} {rs : List Response}
    (hout : Outside w.db db [])
    (hps : ∀ q ∈ ps, ∀ f, q.stage = .committing f → Made cfg q.caller f) :
    Recorded cfg db₀ { w with db, parties := ps, responses := rs } where
  adds := by simpa using h.adds.trans hout.adds
  entries := by rw [hout.grows.registry, List.append_nil]; exact h.entries
  whole := fun cf hcf => ⟨(h.whole cf hcf).1.grow hout.grows, (h.whole cf hcf).2⟩
  made := hps

theorem Recorded.rest (h : Recorded cfg db₀ w) (i : Nat) :
    ∀ q ∈ w.parties.eraseIdx i, ∀ f, q.stage = .committing f → Made cfg q.caller f :=
  fun q hq => h.made q (List.mem_of_mem_eraseIdx hq)

theorem leave_ok (h : w.Ok cfg db₀) (i : Nat) : (w.leave i).Ok cfg db₀ := by
  refine ⟨?_, h.recorded.parties (.refl w.db) (h.recorded.rest i)⟩
  unfold World.leave
  cases hp : w.parties[i]? with
  | none =>
    rw [List.eraseIdx_of_length_le (List.getElem?_eq_none_iff.mp hp)]
    exact h.sane
  | some p => exact (h.sane.perm (parties_perm hp)).leave

/-- Ids that were drawn are out of the way, and nothing else changes. -/
theorem outside_draw (db : Db) (m : Nat) {n : Nat} (hn : db.nextId ≤ n) :
    Outside db { db with nextId := n, nextMessageId := m } [] := by
  refine ⟨⟨hn, ?_, ?_, ?_⟩, ?_⟩
  · exact (List.append_nil _).symm
  · exact (List.append_nil _).symm
  · exact (List.append_nil _).symm
  · constructor <;> exact (List.append_nil _).symm

/-- A step of the rest of the system keeps the invariant of the view. -/
theorem Sane.outside {db db' : Db} {ss : List Session} {ps : List Party} {rs : List Response}
    (h : Sane db.view ps rs) (hout : Outside db db' ss) : Sane db'.view ps rs :=
  h.grow hout.grows (fun _ hn => by cases hn)
    (by rw [hout.grows.identities, List.append_nil]; exact h.people)

theorem submit_ok (h : w.Ok cfg db₀) (s : Submission) : (w.submit s).Ok cfg db₀ := by
  unfold World.submit
  cases hid : identify w.db s.origin with
  | error _ => exact h
  | ok caller =>
    obtain ⟨hformed, hsettled, hfresh⟩ := identify_eq_ok hid
    have hout := outside_draw w.db w.db.nextMessageId (Nat.le_max_left w.db.nextId caller.nextId)
    refine ⟨?_, h.recorded.parties hout fun q hq => ?_⟩
    · refine (h.sane.outside hout).join ?_ (fun _ hc => by cases hc) ?_ (fun _ hn => by cases hn)
      · refine
          { formed := hformed
            settled := fun hnone => (hsettled hnone).grow hout.grows
            fresh := fun n hn => ?_
            pending := fun _ hf => by cases hf
            filed := fun _ hf => by cases hf }
        obtain ⟨rfl, hlt⟩ := hfresh n hn
        refine ⟨hlt.trans_le (Nat.le_max_right _ _), fun hmem => ?_, fun e he heq => ?_⟩
        · have := h.sane.usersBelow _ hmem
          simp only [Db.view] at this
          omega
        · have := (h.sane.entriesBelow e he).2
          simp only [Db.view] at this
          omega
      · intro n hn q hq heq
        obtain ⟨rfl, -⟩ := hfresh n hn
        have := ((h.sane.party q hq).fresh _ heq).1
        simp only [Db.view] at this
        omega
    · rcases List.mem_cons.mp hq with rfl | hq
      · exact fun _ hf => by cases hf
      · exact h.recorded.made q hq

/-- The request a lookup returns carries the key. -/
theorem replayOf_eq_some {db : Db} {user : User} {key : Option String} {r : Request}
    (h : replayOf db user key = some r) :
    r ∈ db.requests ∧ r.studentId = user.id ∧ key.isSome = true ∧ r.clientRef = key := by
  obtain ⟨k, rfl, hfind⟩ := Option.bind_eq_some_iff.mp h
  split at hfind
  · cases hfind
  · have hfound := List.find?_some hfind
    simp only [Bool.and_eq_true, beq_iff_eq] at hfound
    exact ⟨List.mem_of_find?_eq_some hfind, hfound.1, rfl, hfound.2⟩

theorem mayReplay_eq_ok {c : Caller} {r : Request} {u : Unit} :
    c.mayReplay r = .ok u ↔ ∀ id, c.clientId? = some id → r.apiClientId = some id := by
  cases c with
  | student user => simp [Caller.mayReplay, Caller.clientId?]
  | client c sync =>
    unfold Caller.mayReplay checkReplay Caller.clientId?
    rw [raise_eq_ok]
    simp

theorem check_ok (h : w.Ok cfg db₀) (hp : w.parties[i]? = some p) (hstage : p.stage = .checking) :
    (w.check i p).Ok cfg db₀ := by
  have hsane := h.sane.perm (parties_perm hp)
  have hparty := hsane.party p List.mem_cons_self
  have hfresh : p.fresh? = p.caller.fresh? := by rw [Party.fresh?, hstage]
  unfold World.check
  cases hreplay : replayOf w.db p.caller.user p.key with
  | some existing =>
    dsimp only
    cases hmay : p.caller.mayReplay existing with
    | error _ => exact leave_ok h i
    | ok _ =>
      obtain ⟨hmem, hstudent, -, hkey⟩ := replayOf_eq_some hreplay
      have hentry : existing.entry ∈ w.db.view.registry := List.mem_map_of_mem hmem
      refine ⟨hsane.leave.replay ⟨.inl rfl, hparty.settled ?_, ?_⟩ rfl,
        h.recorded.parties (.refl w.db) (h.recorded.rest i)⟩
      · -- A new identity has no request yet, so there is nothing to replay.
        cases hf : p.fresh? with
        | none => rfl
        | some n =>
          have huser := (Party.fresh?_eq_some hf).2
          exact absurd (hstudent.trans huser) ((hparty.fresh n hf).2.2 _ hentry)
      · exact ⟨_, hentry, rfl, hstudent, hkey, mayReplay_eq_ok.mp hmay⟩
  | none =>
    refine ⟨?_, h.recorded.parties (.refl w.db) fun q hq => ?_⟩
    · refine hsane.leave.join ?_ (fun _ hc => by cases hc) ?_ (fun _ hn => by cases hn)
      · have hsame : Party.fresh? { p with stage := .filing } = p.fresh? := by
          rw [hfresh]
          rfl
        exact
          { formed := hparty.formed
            settled := fun hnone => hparty.settled (hsame ▸ hnone)
            fresh := fun n hn => hparty.fresh n (hsame ▸ hn)
            pending := fun _ hf => by cases hf
            filed := fun _ hf => by cases hf }
      · intro n hn
        exact not_mem_of_nodup_filterMap_cons hsane.fresh (hfresh.trans hn)
    · rcases List.mem_cons.mp hq with rfl | hq
      · exact fun _ hf => by cases hf
      · exact h.recorded.rest i q hq

theorem file_ok (h : w.Ok cfg db₀) (hp : w.parties[i]? = some p) (hstage : p.stage = .filing)
    (trackingNo : String) (now : Int) : (w.file cfg i p trackingNo now).Ok cfg db₀ := by
  have hsane := h.sane.perm (parties_perm hp)
  have hfresh : p.fresh? = p.caller.fresh? := by rw [Party.fresh?, hstage]
  unfold World.file
  cases hfile : p.caller.file cfg w.db p.data trackingNo p.key now with
  | error _ => exact leave_ok h i
  | ok f =>
    obtain ⟨hsync, hentry, hid, hlt⟩ := file_eq_ok hfile
    have hout : Outside w.db (w.db.reserve f.session) [] :=
      outside_draw w.db _ (Nat.le_max_left w.db.nextId f.session.nextId)
    have hsane' := hsane.outside hout
    have hparty := hsane'.party p List.mem_cons_self
    refine ⟨?_, h.recorded.parties hout fun q hq => ?_⟩
    · refine hsane'.leave.join ?_ (fun _ hc => by cases hc) ?_ ?_
      · have hsame : Party.fresh? { p with stage := .committing f } = p.fresh? := by
          rw [hfresh]
          rfl
        exact
          { formed := hparty.formed
            settled := fun hnone => hparty.settled (hsame ▸ hnone)
            fresh := fun n hn => hparty.fresh n (hsame ▸ hn)
            pending := fun g hg => by
              cases hg
              refine ⟨hsync, hentry, hlt.trans_le (Nat.le_max_right _ _), fun e he heq => ?_⟩
              have hold : e ∈ w.db.view.registry := he
              have := (h.sane.entriesBelow e hold).1
              simp only [Db.view] at this
              omega
            filed := fun _ hf => by cases hf }
      · intro n hn
        exact not_mem_of_nodup_filterMap_cons hsane.fresh (hfresh.trans hn)
      · intro n hn q hq heq
        cases hn
        unfold Party.pending? at heq
        split at heq
        · rename_i g hg
          have hmem : q ∈ w.parties := List.mem_of_mem_eraseIdx hq
          have hbelow := ((h.sane.party q hmem).pending g hg).2.2.1
          rw [Option.some.inj heq] at hbelow
          simp only [Db.view] at hbelow
          omega
        · cases heq
    · rcases List.mem_cons.mp hq with rfl | hq
      · intro g hg
        cases hg
        exact ⟨_, _, _, _, _, hfile⟩
      · exact h.recorded.rest i q hq

theorem adds_filing {db db' : Db} {f : Filing} (h : commitFiling db f = .ok db') :
    db.Adds db' [f.session] := by
  obtain ⟨-, rfl⟩ := commitFiling_eq_ok h
  unfold insertFiling
  cases f.sync <;> exact ⟨by simp [Db.commit, Db.applySync], by simp [Db.commit, Db.applySync],
    by simp [Db.commit, Db.applySync], by simp [Db.commit, Db.applySync],
    by simp [Db.commit, Db.applySync], by simp [Db.commit, Db.applySync]⟩

theorem commit_ok {f : Filing} (h : w.Ok cfg db₀) (hp : w.parties[i]? = some p)
    (hstage : p.stage = .committing f) : (w.commit i p f).Ok cfg db₀ := by
  have hsane := h.sane.perm (parties_perm hp)
  have hparty := hsane.party p List.mem_cons_self
  unfold World.commit
  cases hcommit : commitFiling w.db f with
  | error _ => exact leave_ok h i
  | ok db =>
    obtain ⟨hgrows, hpeople, hunique⟩ := commitFiling_grows hparty hstage h.sane.people hcommit
    have hsane' := hsane.file hstage hgrows hpeople hunique
    have hsettled := (hsane'.party _ List.mem_cons_self).settled rfl
    refine ⟨hsane', ?_⟩
    constructor
    · simpa [Commit.session] using h.recorded.adds.trans (adds_filing hcommit)
    · show db.view.registry = _
      rw [hgrows.registry, h.recorded.entries]
      simp [World.filings, Commit.filing?]
    · intro cf hcf
      have hcf' : cf ∈ w.filings ++ [(p.caller, f)] := by
        simpa [World.filings, Commit.filing?] using hcf
      rcases List.mem_append.mp hcf' with hcf' | hcf'
      · obtain ⟨hs, hmade⟩ := h.recorded.whole cf hcf'
        exact ⟨hs.grow hgrows, hmade⟩
      · rw [List.mem_singleton.mp hcf']
        exact ⟨hsettled, h.recorded.made p (List.mem_of_getElem? hp) f hstage⟩
    · intro q hq
      rcases List.mem_cons.mp hq with rfl | hq
      · exact fun _ hf => by cases hf
      · exact h.recorded.rest i q hq

theorem respond_ok {id : Nat} (h : w.Ok cfg db₀) (hp : w.parties[i]? = some p)
    (hstage : p.stage = .filed id) : (w.respond i ⟨p.caller, p.key, 201, id⟩).Ok cfg db₀ :=
  ⟨(h.sane.perm (parties_perm hp)).answer hstage,
    h.recorded.parties (.refl w.db) (h.recorded.rest i)⟩

theorem advance_ok (h : w.Ok cfg db₀) (i : Nat) (trackingNo : String) (now : Int) :
    (w.advance cfg i trackingNo now).Ok cfg db₀ := by
  unfold World.advance
  cases hp : w.parties[i]? with
  | none => exact h
  | some p =>
    dsimp only
    cases hstage : p.stage with
    | checking => exact check_ok h hp hstage
    | filing => exact file_ok h hp hstage trackingNo now
    | committing f => exact commit_ok h hp hstage
    | filed id => exact respond_ok h hp hstage

/-- Somebody else enters the students. -/
theorem newUser_ok (h : w.Ok cfg db₀) (u : User) : (exchange cfg w (.newUser u)).Ok cfg db₀ := by
  unfold exchange
  dsimp only
  split
  · exact h
  · rename_i hnew
    have hgrows : w.db.view.Grows
        (Db.view { w.db with
          users := w.db.users ++ [{ u with id := w.db.nextId }], nextId := w.db.nextId + 1 })
        [w.db.nextId] (identities [{ u with id := w.db.nextId }]) [] :=
      { nextId := Nat.le_succ _
        userIds := List.map_append
        identities := identities_append ..
        registry := (List.append_nil _).symm }
    have hpeople : ((w.db.view.identities ++ identities [{ u with id := w.db.nextId }]).map
        Prod.snd).Nodup := by
      rw [List.map_append, List.nodup_append]
      refine ⟨h.sane.people, ?_, ?_⟩
      · unfold identities
        cases hh : User.hemisId { u with id := w.db.nextId } <;> simp [hh]
      · intro taken htaken hemisId hmem heq
        obtain ⟨known, hknown, rfl⟩ := List.mem_map.mp htaken
        have hh : u.hemisId = some hemisId := by
          unfold identities at hmem
          cases hh : User.hemisId { u with id := w.db.nextId } <;> simp [hh] at hmem ⊢
          rw [hmem]
          exact hh
        exact hnew (List.any_eq_true.mpr ⟨known, hknown, by simp [hh, heq]⟩)
    refine ⟨h.sane.grow hgrows ?_ (hgrows.identities ▸ hpeople), ?_⟩
    · intro n hn
      rw [List.mem_singleton.mp hn]
      exact ⟨le_rfl, Nat.lt_succ_self _⟩
    · have hadds : w.db.Adds { w.db with
          users := w.db.users ++ [{ u with id := w.db.nextId }], nextId := w.db.nextId + 1 }
          [] := by
        constructor <;> exact (List.append_nil _).symm
      exact
        { adds := by simpa using h.recorded.adds.trans hadds
          entries := h.recorded.entries
          whole := fun cf hcf =>
            ⟨(h.recorded.whole cf hcf).1.grow hgrows, (h.recorded.whole cf hcf).2⟩
          made := h.recorded.made }

/-- Something else happens in the system. -/
theorem event_ok (h : w.Ok cfg db₀) (e : Event) : (exchange cfg w (.event e)).Ok cfg db₀ := by
  unfold exchange
  dsimp only
  split
  · rename_i hpermitted
    have hout : Outside w.db (step cfg w.db e) _ := outside_event hpermitted
    have hsessions : ∀ ss : List Session,
        (ss.map Commit.other).map Commit.session = ss ∧
          (ss.map Commit.other).filterMap Commit.filing? = [] := fun ss => by
      constructor
      · rw [List.map_map]
        exact List.map_id ss
      · rw [List.filterMap_map]
        exact List.filterMap_eq_nil_iff.mpr fun _ _ => rfl
    obtain ⟨hsess, hnone⟩ := hsessions (sessionsOf cfg w.db e)
    have hfilings : World.filings { w with
        db := step cfg w.db e
        commits := w.commits ++ (sessionsOf cfg w.db e).map .other } = w.filings := by
      rw [World.filings, List.filterMap_append, hnone, List.append_nil]
      rfl
    refine ⟨h.sane.outside hout, ?_⟩
    constructor
    · rw [List.map_append, hsess]
      exact h.recorded.adds.trans hout.adds
    · rw [hfilings, hout.grows.registry, List.append_nil]
      exact h.recorded.entries
    · rw [hfilings]
      exact fun cf hcf =>
        ⟨(h.recorded.whole cf hcf).1.grow hout.grows, (h.recorded.whole cf hcf).2⟩
    · exact h.recorded.made
  · exact h

/-- Every message keeps the invariant. -/
theorem exchange_ok (h : w.Ok cfg db₀) (m : Message) : (exchange cfg w m).Ok cfg db₀ := by
  cases m with
  | submit s => exact submit_ok h s
  | advance i trackingNo now => exact advance_ok h i trackingNo now
  | drop i => exact leave_ok h i
  | newUser u => exact newUser_ok h u
  | event e => exact event_ok h e

end Steps

/-! ## The law -/

/-- Tables before the first submission: nobody has an id that is still to be
given out, and no two people share a HEMIS number. -/
structure Ready (db : Db) : Prop where
  requests : db.requests = []
  users : ∀ u ∈ db.users, u.id < db.nextId
  people : ((identities db.users).map Prod.snd).Nodup

theorem ready_ok {db : Db} (h : Ready db) : World.Ok cfg db { db } := by
  have hnone : db.view.registry = [] := by simp [Db.view, h.requests]
  refine ⟨?_, ?_⟩
  · constructor
    · intro n hn
      obtain ⟨u, hu, rfl⟩ := List.mem_map.mp hn
      exact h.users u hu
    · exact h.people
    · rw [hnone]; exact .nil
    · rw [hnone]; exact .nil
    · rw [hnone]; exact fun _ he => by cases he
    · exact fun _ hp => by cases hp
    · exact .nil
    · exact .nil
    · exact fun _ hr => by cases hr
    · exact fun _ _ => Nat.zero_le _
  · exact
      { adds := .refl db
        entries := hnone
        whole := fun _ hcf => by cases hcf
        made := fun _ hp => by cases hp }

/-- Exactly-once filing for one key of one student. -/
structure FiledOnce (cfg : Settings) (db₀ : Db) (studentId : Nat) (key : String) (w : World) :
    Prop where
  /-- At most one request carries the key, and ids name requests. -/
  oneRow : (w.db.requests.countP fun r => r.entry.carries studentId key) ≤ 1
  ids : (w.db.requests.map (·.id)).Nodup
  /-- The tables hold what was committed and nothing else, and what was
  committed for the key are the whole effects of one filing, if any. -/
  effects : db₀.Adds w.db (w.commits.map Commit.session)
  filings : w.db.requests.map Request.entry = w.filings.map (·.2.req.entry)
  oneFiling : (w.filings.countP fun cf => cf.2.req.entry.carries studentId key)
    = w.db.requests.countP fun r => r.entry.carries studentId key
  whole : ∀ cf ∈ w.filings, Made cfg cf.1 cf.2
  /-- A HEMIS number is one student, whoever submits for it. -/
  person : ∀ c ∈ w.filings.map Prod.fst ++ w.responses.map (·.caller),
    ∀ c' ∈ w.filings.map Prod.fst ++ w.responses.map (·.caller), ∀ hemisId,
      c.user.hemisId = some hemisId → c'.user.hemisId = some hemisId → c.user.id = c'.user.id
  /-- A successful response names the request, and an API client's only the
  one it filed itself. -/
  named : ∀ resp ∈ w.responses, resp.caller.user.id = studentId → resp.key = some key →
    (resp.statusCode = 200 ∨ resp.statusCode = 201) ∧
      ∃ r ∈ w.db.requests, r.id = resp.requestId ∧ r.entry.carries studentId key = true ∧
        ∀ c, resp.caller.clientId? = some c → r.apiClientId = some c
  created : w.responses.countP (·.created studentId key) ≤ 1
  /-- Once the request is there, a submission that looks its key up is
  answered with it, whatever became of the catalogue and the staff, and
  nothing is committed. -/
  replay : ∀ i p r, w.parties[i]? = some p → p.stage = .checking → p.caller.user.id = studentId →
    p.key = some key → r ∈ w.db.requests → r.entry.carries studentId key = true →
    (∀ c, p.caller.clientId? = some c → r.apiClientId = some c) → ∀ trackingNo now,
      exchange cfg w (.advance i trackingNo now) = w.respond i ⟨p.caller, p.key, 200, r.id⟩
  /-- An API client that did not file it is refused. -/
  refuse : ∀ i p r c, w.parties[i]? = some p → p.stage = .checking → p.caller.user.id = studentId →
    p.key = some key → r ∈ w.db.requests → r.entry.carries studentId key = true →
    p.caller.clientId? = some c → r.apiClientId ≠ some c → ∀ trackingNo now,
      exchange cfg w (.advance i trackingNo now) = w.leave i

section Law

variable {db₀ : Db} {w : World} {studentId : Nat} {key : String}

theorem World.Ok.oneRow (h : w.Ok cfg db₀) (studentId : Nat) (key : String) :
    (w.db.requests.countP fun r => r.entry.carries studentId key) ≤ 1 := by
  have hle := countP_carries_le_one h.sane.unique studentId key
  rwa [Db.view, List.countP_map] at hle

/-- The lookup of a key that is carried finds the request that carries it. -/
theorem World.Ok.replayOf (h : w.Ok cfg db₀) (hkey : key.isEmpty = false) {user : User}
    (huser : user.id = studentId) {r : Request} (hr : r ∈ w.db.requests)
    (hcarries : r.entry.carries studentId key = true) :
    Api.replayOf w.db user (some key) = some r := by
  have hfind : Api.replayOf w.db user (some key)
      = w.db.requests.find? fun r => r.entry.carries studentId key := by
    unfold Api.replayOf findByClientRef
    rw [Option.bind_some, hkey, huser]
    rfl
  rw [hfind]
  cases hfound : w.db.requests.find? fun r => r.entry.carries studentId key with
  | none => exact absurd hcarries (List.find?_eq_none.mp hfound r hr)
  | some r' =>
    have hcarries' : r'.entry.carries studentId key = true :=
      List.find?_some (p := fun r : Request => r.entry.carries studentId key) hfound
    by_contra hne
    have hpair : w.db.requests.Pairwise fun a b => a.entry.Distinct b.entry :=
      List.pairwise_map.mp h.sane.unique
    have hsymm : Std.Symm fun a b : Request => a.entry.Distinct b.entry := ⟨fun _ _ hd => hd.symm⟩
    have hdistinct := hpair.forall hr (List.mem_of_find?_eq_some hfound) fun heq => hne (by rw [heq])
    simp only [Entry.carries, Bool.and_eq_true, beq_iff_eq] at hcarries hcarries'
    exact hdistinct ⟨by rw [hcarries.2]; rfl, hcarries.1.trans hcarries'.1.symm,
      hcarries.2.trans hcarries'.2.symm⟩

theorem World.Ok.settled (h : w.Ok cfg db₀) {c : Caller}
    (hc : c ∈ w.filings.map Prod.fst ++ w.responses.map (·.caller)) : c.Settled w.db.view := by
  rcases List.mem_append.mp hc with hc | hc
  · obtain ⟨cf, hcf, rfl⟩ := List.mem_map.mp hc
    exact (h.recorded.whole cf hcf).1
  · obtain ⟨resp, hresp, rfl⟩ := List.mem_map.mp hc
    exact (h.sane.response resp hresp).settled

theorem World.Ok.filedOnce (h : w.Ok cfg db₀) (hkey : key.isEmpty = false) :
    FiledOnce cfg db₀ studentId key w where
  oneRow := h.oneRow studentId key
  ids := by
    have hids := h.sane.ids
    rwa [Db.view, List.map_map] at hids
  effects := h.recorded.adds
  filings := h.recorded.entries
  oneFiling := by
    have hentries := congrArg (List.countP (·.carries studentId key)) h.recorded.entries
    rw [Db.view, List.countP_map, List.countP_map] at hentries
    exact hentries.symm
  whole := fun cf hcf => (h.recorded.whole cf hcf).2
  person := fun c hc c' hc' hemisId hh hh' => by
    have hmem := (h.settled hc).hemisId hemisId hh
    have hmem' := (h.settled hc').hemisId hemisId hh'
    exact congrArg Prod.fst (List.inj_on_of_nodup_map h.sane.people hmem hmem' rfl)
  named := fun resp hresp huser hk => by
    obtain ⟨hcode, -, e, he, hid, hstudent, href, hclient⟩ := h.sane.response resp hresp
    obtain ⟨r, hr, rfl⟩ := List.mem_map.mp he
    refine ⟨hcode, r, hr, hid, ?_, hclient⟩
    simp [Entry.carries, hstudent, huser, href, hk]
  created := by
    have hsum := h.sane.created studentId key
    have hle := countP_carries_le_one h.sane.unique studentId key
    omega
  replay := fun i p r hp hstage huser hk hr hcarries hclient trackingNo now => by
    have hfound := h.replayOf hkey huser hr hcarries
    rw [← hk] at hfound
    have hmay : p.caller.mayReplay r = .ok () := mayReplay_eq_ok.mpr hclient
    simp [exchange, World.advance, World.check, hp, hstage, hfound, hmay]
  refuse := fun i p r c hp hstage huser hk hr hcarries hc hclient trackingNo now => by
    have hfound := h.replayOf hkey huser hr hcarries
    rw [← hk] at hfound
    cases hmay : p.caller.mayReplay r with
    | ok u => exact absurd (mayReplay_eq_ok.mp hmay c hc) hclient
    | error _ => simp [exchange, World.advance, World.check, hp, hstage, hfound, hmay]

end Law

/-- However submissions are retried, dropped and interleaved, and whatever
happens to catalogue, staff and requests in between, a student's key files
one request. -/
theorem filed_exactly_once (cfg : Settings) {db₀ : Db} (h : Ready db₀) (studentId : Nat)
    {key : String} (hkey : key.isEmpty = false) (ms : List Message) :
    Runs.Always (exchange cfg) (FiledOnce cfg db₀ studentId key) { db := db₀ } ms :=
  Runs.always_of_invariant (fun (w : World) m (hw : w.Ok cfg db₀) => exchange_ok hw m)
    (fun _ hw => hw.filedOnce hkey) (ready_ok h) ms

/-- The student's submission, as the office receives it. -/
def officeSubmission : Submission :=
  ⟨.student 1, { categoryId := 4, title := "Ariza", description := "Matn" }, some "k-1"⟩

/-- It arrives twice, both look the key up before either commits, and the
one that commits first wins. Then the service is retired and it arrives a
third time. -/
def officeRetries : List Message :=
  [.submit officeSubmission, .submit officeSubmission, .advance 0 "REQ-1" 0, .advance 1 "REQ-1" 0,
    .advance 0 "REQ-1" 1, .advance 1 "REQ-2" 1, .advance 0 "" 2, .advance 1 "" 2, .advance 0 "" 3,
    .event ⟨4, .catalogue (.deactivate 4)⟩, .submit officeSubmission, .advance 0 "" 5]

theorem office_ready : Ready office where
  requests := rfl
  users := by decide
  people := by decide

theorem filed_exactly_once_office :
    ((Runs.run (exchange {}) { db := office } officeRetries).responses.map fun resp =>
      (resp.statusCode, resp.requestId)) = [(201, 15), (200, 15)] ∧
    Runs.Always (exchange {}) (FiledOnce {} office 1 "k-1") { db := office } officeRetries :=
  ⟨by decide +kernel, filed_exactly_once {} office_ready 1 (by decide) officeRetries⟩

end Submissions

end Royd
