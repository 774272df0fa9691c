/-
Royd.Auth.Atomic — what a function does when nothing else is under way.

`atomically` runs a function in one piece. One lemma for each function says
what it returns and what it leaves behind.
-/
import Royd.Auth.Wf

namespace Royd.Auth

open ExpiringStore Programs

variable {cfg : Settings} {s : Server} {α β : Type}

namespace Handler

theorem atomically_bind (p : Handler α) (f : α → Handler β) :
    atomically (p >>= f) s =
      match atomically p s with
      | (.ok a, s') => atomically (f a) s'
      | (.error e, s') => (.error e, s') := by
  unfold atomically
  rw [Prog.run_bind]
  rcases p.run exec s with ⟨_ | _, _⟩
  · rfl
  · rfl

@[simp] theorem atomically_pure (a : α) : atomically (pure a : Handler α) s = (.ok a, s) := rfl

@[simp] theorem atomically_raise (e : Failure) :
    atomically (.raise e : Handler α) s = (.error e, s) := rfl

@[simp] theorem atomically_call (c : Command) (k : c.Reply → Handler α) :
    atomically (.call c k) s = atomically (k (exec c s).1) (exec c s).2 := rfl

@[simp] theorem atomically_send (c : Command) :
    atomically (send c) s = (.ok (exec c s).1, (exec c s).2) := rfl

theorem atomically_bind_eq_ok {p : Handler α} {f : α → Handler β} {b : β} {s' : Server} :
    atomically (p >>= f) s = (.ok b, s') ↔
      ∃ a s₁, atomically p s = (.ok a, s₁) ∧ atomically (f a) s₁ = (.ok b, s') :=
  Prog.run_bind_eq_ok

/-- Run from `s`, the function leaves the server as it is. -/
def Reads (p : Handler α) (s : Server) : Prop := (atomically p s).2 = s

/-- A sequence that starts with a function that only reads fails there, or
goes on from the same server. -/
theorem error_of_reads {p : Handler α} {f : α → Handler β} {e : Failure} {s' : Server}
    (hp : p.Reads s) (h : atomically (p >>= f) s = (.error e, s')) :
    s' = s ∨ ∃ a, atomically p s = (.ok a, s) ∧ atomically (f a) s = (.error e, s') := by
  unfold Reads at hp
  rw [atomically_bind] at h
  rcases hrun : atomically p s with ⟨_ | a, s₁⟩
  · rw [hrun] at h hp
    cases h
    exact .inl hp
  · rw [hrun] at h hp
    cases hp
    exact .inr ⟨a, rfl, h⟩

/-- Whatever a function does, nothing issued is lost and time goes on. -/
theorem grows {p : Handler α} {r : Except Failure α} {s' : Server}
    (h : p.atomically s = (r, s')) : s.Grows s' := by
  induction p generalizing s with
  | pure a =>
    cases h
    exact .refl _
  | raise e =>
    cases h
    exact .refl _
  | call c k ih => exact (grows_exec c s).trans (ih _ h)

/-- What every allowed command keeps, a function that keeps the discipline
keeps. -/
theorem keeps {own : Option Token} {q : Ledger} {p : Handler α} {post : Ledger → α → Prop}
    {I : Ledger → Server → Prop}
    (hstep : ∀ q c s, q.Allows cfg own c → I q s → I (q.note own c (exec c s).1) (exec c s).2)
    (hp : Obeys (discipline cfg own) post q p) (hs : I q s) :
    ∃ q', I q' (p.atomically s).2 ∧ ∀ a, (p.atomically s).1 = .ok a → post q' a :=
  hp.run possible_exec hstep hs

/-- A function that keeps the discipline leaves a well-formed server behind. -/
theorem keeps_wf {own : Option Token} {p : Handler α} {post : Ledger → α → Prop}
    {r : Except Failure α} {s' : Server} (hp : Obeys (discipline cfg own) post {} p) (hs : s.Wf)
    (h : p.atomically s = (r, s')) : s'.Wf := by
  have hstep : ∀ (q : Ledger) (c : Command) (s' : Server), q.Allows cfg own c →
      (s'.Wf ∧ q.Wf s') → ((exec c s').2.Wf ∧ (q.note own c (exec c s').1).Wf (exec c s').2) := by
    rintro q c s' hallows ⟨hwf, hq⟩
    exact ⟨hwf.exec hq hallows, hq.note hwf hallows⟩
  obtain ⟨q', ⟨hwf, -⟩, -⟩ :=
    keeps (I := fun q s' => s'.Wf ∧ q.Wf s') hstep hp ⟨hs, Ledger.wf_empty s⟩
  rwa [h] at hwf

end Handler

theorem require_eq_ok {b : Bool} {e : Failure} {u : Unit} {s' : Server} :
    (require b e).atomically s = (.ok u, s') ↔ b = true ∧ s' = s := by
  unfold require
  split
  · simp_all [eq_comm]
  · simp_all

theorem require_reads (b : Bool) (e : Failure) (s : Server) : (require b e).Reads s := by
  unfold require
  split
  · rfl
  · rfl

theorem requireActive_eq_ok {row : Option User} {e : Failure} {u : User} {s' : Server}
    (h : (requireActive row e).atomically s = (.ok u, s')) :
    row = some u ∧ u.isActive = true ∧ s' = s := by
  unfold requireActive at h
  split at h
  · cases h
  · split at h
    · rename_i hactive
      cases h
      exact ⟨rfl, hactive, rfl⟩
    · cases h

theorem requireActive_reads (row : Option User) (e : Failure) (s : Server) :
    (requireActive row e).Reads s := by
  unfold requireActive
  split
  · rfl
  · split
    · rfl
    · rfl

theorem requireUser_eq_ok {row : Option User} {u : User} {s' : Server}
    (h : (requireUser row).atomically s = (.ok u, s')) : row = some u ∧ s' = s := by
  unfold requireUser at h
  split at h
  · cases h
  · cases h
    exact ⟨rfl, rfl⟩

theorem requireLink_eq_ok {owner : Option Nat} {userId : Nat} {s' : Server}
    (h : (requireLink owner).atomically s = (.ok userId, s')) : owner = some userId ∧ s' = s := by
  unfold requireLink at h
  split at h
  · cases h
  · cases h
    exact ⟨rfl, rfl⟩

theorem send_eq_ok {c : Command} {r : c.Reply} {s' : Server}
    (h : (send c).atomically s = (.ok r, s')) : r = (exec c s).1 ∧ s' = (exec c s).2 := by
  cases h
  exact ⟨rfl, rfl⟩

/-- A selected user has the id that was asked for. -/
theorem selectUser_id {id : Nat} {row : Option User} {u : User} {s' : Server}
    (h : (send (.selectUser id)).atomically s = (.ok row, s')) (hu : row = some u) : u.id = id := by
  obtain ⟨hrow, -⟩ := send_eq_ok h
  have hfind : s.users.find? (·.id == id) = some u := hrow.symm.trans hu
  simpa using List.find?_some hfind

/-- The refresh token with this `jti` is active and not blocked. -/
def Server.jtiValid (s : Server) (userId jti : Nat) : Bool :=
  !s.has (.refreshBlocked jti) && s.has (.refreshActive userId jti)

theorem isRefreshJtiValid_atomically (userId jti : Nat) :
    (isRefreshJtiValid userId jti).atomically s = (.ok (s.jtiValid userId jti), s) := by
  unfold isRefreshJtiValid Server.jtiValid
  rw [Handler.atomically_bind, Handler.atomically_send]
  change (if s.has (.refreshBlocked jti) = true then pure false
    else send (.exists (.refreshActive userId jti)) : Handler Bool).atomically s = _
  cases s.has (.refreshBlocked jti) with
  | true => rfl
  | false => rfl

theorem decodeToken_eq_ok {t : Token} {u : Unit} {s' : Server} :
    (decodeToken t).atomically s = (.ok u, s') ↔ s.decodes t = true ∧ s' = s := by
  unfold decodeToken
  rw [Handler.atomically_bind, Handler.atomically_send]
  exact require_eq_ok

theorem decodeToken_reads (t : Token) (s : Server) : (decodeToken t).Reads s := by
  unfold Handler.Reads decodeToken
  rw [Handler.atomically_bind, Handler.atomically_send]
  exact require_reads _ _ s

/-- The session is active, or the token is from before sessions had ids. -/
def Server.sessionActive (s : Server) (sessionId : Option Nat) : Bool :=
  sessionId.all fun sid => s.has (.sessionSeen sid)

theorem isSessionActive_atomically (sessionId : Option Nat) :
    (isSessionActive sessionId).atomically s = (.ok (s.sessionActive sessionId), s) := by
  cases sessionId with
  | none => rfl
  | some sid => rfl

/-- The user with this id, if it is active. -/
def Server.activeUser (s : Server) (id : Nat) : Option User :=
  (s.users.find? (·.id == id)).filter (·.isActive)

theorem activeUser_id {id : Nat} {user : User} (h : s.activeUser id = some user) : user.id = id := by
  unfold Server.activeUser at h
  have hfind := (Option.filter_eq_some_iff.mp h).1
  simpa using List.find?_some hfind

theorem requireActive_iff {row : Option User} {e : Failure} {u : User} {s' : Server} :
    (requireActive row e).atomically s = (.ok u, s') ↔ row.filter (·.isActive) = some u ∧ s' = s := by
  cases row with
  | none => simp [requireActive]
  | some user =>
    unfold requireActive
    cases hactive : user.isActive with
    | true => simp [Option.filter, hactive, eq_comm]
    | false => simp [Option.filter, hactive]

/-- The refresh token passes every check of `refresh`. -/
structure Server.Refreshable (s : Server) (t : Token) (user : User) : Prop where
  decodes : s.decodes t = true
  type : t.type = .refresh
  sub : t.sub ≠ 0
  valid : s.jtiValid t.sub t.jti = true
  session : s.sessionActive t.sid = true
  user : s.activeUser t.sub = some user

theorem requireSession_eq_ok {t : Token} {active : Bool} {u : Unit} {s' : Server} :
    (requireSession cfg t active).atomically s = (.ok u, s') ↔ active = true ∧ s' = s := by
  unfold requireSession
  cases active with
  | true => simp [eq_comm]
  | false =>
    simp only [Bool.false_eq_true, if_false, false_and, iff_false]
    intro h
    obtain ⟨_, _, -, h⟩ := Handler.atomically_bind_eq_ok.mp h
    cases h

/-- A user passes the checks of `refresh` exactly with a token that is
refreshable, and they change nothing. -/
theorem checkRefresh_eq_ok {t : Token} {user : User} {s' : Server} :
    (checkRefresh cfg t).atomically s = (.ok user, s') ↔ s.Refreshable t user ∧ s' = s := by
  unfold checkRefresh
  simp only [Handler.atomically_bind_eq_ok, decodeToken_eq_ok, require_eq_ok,
    isRefreshJtiValid_atomically, isSessionActive_atomically, requireSession_eq_ok,
    requireActive_iff, Prod.mk.injEq, Except.ok.injEq]
  constructor
  · rintro ⟨_, _, ⟨hdecodes, rfl⟩, _, _, ⟨htype, rfl⟩, _, _, ⟨hsub, rfl⟩, _, _, ⟨rfl, rfl⟩, _, _,
      ⟨hvalid, rfl⟩, _, _, ⟨rfl, rfl⟩, _, _, ⟨hactive, rfl⟩, row, _, hselect, huser, rfl⟩
    obtain ⟨rfl, rfl⟩ := send_eq_ok hselect
    exact ⟨⟨hdecodes, by simpa using htype, by simpa using hsub, hvalid, hactive, huser⟩, rfl⟩
  · rintro ⟨h, rfl⟩
    exact ⟨(), s', ⟨h.decodes, rfl⟩, (), s', ⟨by simp [h.type], rfl⟩, (), s', ⟨by simp [h.sub], rfl⟩,
      _, s', ⟨rfl, rfl⟩, (), s', ⟨h.valid, rfl⟩, _, s', ⟨rfl, rfl⟩, (), s', ⟨h.session, rfl⟩, _, s',
      rfl, h.user, rfl⟩

/-! ## Access tokens -/

/-- What the API and the socket both ask of an access token. -/
def Server.live (s : Server) (t : Token) : Bool :=
  s.decodes t && t.type == .access && t.sub != 0 && s.sessionActive t.sid

section Access

variable {t : Token}

theorem live_iff : s.live t = true ↔
    s.decodes t = true ∧ t.type = .access ∧ t.sub ≠ 0 ∧ s.sessionActive t.sid = true := by
  simp [Server.live, and_assoc]

/-- `_authenticate`, in one piece. It only reads. -/
theorem socket_atomically (s : Server) (t : Token) : (socket (some t)).atomically s =
    (.ok (if s.live t then .connected t.sub else .socketClosed), s) := by
  have hsocket : (socket (some t)).atomically s = (if s.decodes t = true then authenticateSocket t
      else pure .socketClosed : Handler Answer).atomically s := rfl
  rw [hsocket]
  unfold Server.live
  cases s.decodes t with
  | false => rfl
  | true =>
    rw [if_pos rfl, Bool.true_and]
    unfold authenticateSocket
    cases t.type == .access && t.sub != 0 with
    | false => rfl
    | true =>
      rw [if_pos rfl, Bool.true_and, Handler.atomically_bind, isSessionActive_atomically]
      rfl

/-- A session is touched whatever there is. -/
theorem touchSession_ok (sid : Option Nat) :
    ((touchSession cfg sid).atomically s).1 = .ok () := by
  cases sid with
  | none => rfl
  | some n => rfl

/-- Whom `get_current_user` accepts. -/
theorem getCurrentUser_eq_ok {user : User} :
    ((getCurrentUser cfg (some t)).atomically s).1 = .ok user ↔
      s.live t = true ∧ s.activeUser t.sub = some user := by
  have hpair : ((getCurrentUser cfg (some t)).atomically s).1 = .ok user ↔
      ∃ s', (getCurrentUser cfg (some t)).atomically s = (.ok user, s') :=
    ⟨fun h => ⟨_, Prod.ext h rfl⟩, fun ⟨_, h⟩ => congrArg Prod.fst h⟩
  rw [hpair, live_iff]
  unfold getCurrentUser
  simp only [Handler.atomically_bind_eq_ok, decodeToken_eq_ok, require_eq_ok,
    isSessionActive_atomically, requireActive_iff, Prod.mk.injEq, Except.ok.injEq]
  constructor
  · rintro ⟨_, _, _, ⟨hdecodes, rfl⟩, _, _, ⟨htype, rfl⟩, _, _, ⟨hsub, rfl⟩, _, _, ⟨rfl, rfl⟩, _, _,
      ⟨hactive, rfl⟩, row, _, hselect, _, _, ⟨huser, rfl⟩, _, _, -, hpure⟩
    obtain ⟨rfl, rfl⟩ := send_eq_ok hselect
    cases hpure
    exact ⟨⟨hdecodes, by simpa using htype, by simpa using hsub, hactive⟩, huser⟩
  · rintro ⟨⟨hdecodes, htype, hsub, hactive⟩, huser⟩
    exact ⟨_, (), s, ⟨hdecodes, rfl⟩, (), s, ⟨by simp [htype], rfl⟩, (), s, ⟨by simp [hsub], rfl⟩,
      _, s, ⟨rfl, rfl⟩, (), s, ⟨hactive, rfl⟩, _, s, rfl, user, s, ⟨huser, rfl⟩, (), _,
      Prod.ext (touchSession_ok t.sid) rfl, rfl⟩

end Access

end Royd.Auth
