/-
Royd.Auth.IdleTimeout — a tab that is left open.

The server slides a session's window on every authenticated call, and the
open tab makes such calls by itself: it polls the unread count, and a poll
that is refused refreshes the session. So a session nobody uses stays open as
long as the tab does (`polled_past_timeout`).

The window is at most the timeout from the last activity of the user, or from
the last call of the tab's own that found it open (`Tab.Timed`). Where the
second plays no part the server enforces the timeout (`idle_session_refused`).
-/
import Royd.Auth.Atomic
import Royd.Auth.Footprints
import Royd.Lib.Runs

namespace Royd.Auth

open ExpiringStore Programs Runs

variable (prims : Primitives) (cfg : Settings)

/-! ## The tab -/

/-- A tab that has signed in to session `sid`: the access token it holds in
memory, the refresh cookie, and the instant the user was last active.
`lastOwn` records the last call the tab made of its own accord that found the
session open; no step reads it. -/
structure Tab where
  server : Server
  sid : Nat
  access : Option Token
  cookie : Option Token
  lastActivity : Int
  lastOwn : Int
  deriving DecidableEq, Repr

/-- `result.error?.status !== 401`, the other way. -/
def isUnauthorized : Except Failure Answer → Bool
  | .error { exc := .http status _, .. } => status == 401
  | _ => false

namespace Tab

/-- The session's key is there. -/
def windowOpen (w : Tab) : Bool := w.server.has (.sessionSeen w.sid)

/-- `rawBaseQuery`: the answer, and the tab with the cookie it leaves. -/
def call (w : Tab) (c : AuthCall) : Except Failure Answer × Tab :=
  let r := serve prims cfg w.server c
  (r.1, { w with server := r.2, cookie := applyCookie w.cookie (cookieEffect r.1) })

/-- `refreshSession`: whether there is a new access token, and the tab. -/
def refreshSession (w : Tab) : Bool × Tab :=
  let r := w.call prims cfg (.refresh none w.cookie)
  match r.1 with
  | .ok (.tokenPair access _) => (true, { r.2 with access := some access })
  | _ => (false, r.2)

/-- `baseQueryWithRefresh`, for an endpoint that needs the access token. -/
def query (w : Tab) : Tab :=
  let r := w.call prims cfg (.authenticated w.access)
  if isUnauthorized r.1 then
    let refreshed := r.2.refreshSession prims cfg
    if refreshed.1 then (refreshed.2.call prims cfg (.authenticated refreshed.2.access)).2
    -- `loggedOut`
    else { refreshed.2 with access := none }
  else r.2

end Tab

/-- What happens to the tab. -/
inductive TabEvent where
  /-- The mouse or the keyboard. -/
  | activity
  /-- The user does something that calls the API. -/
  | userCall
  /-- The user reloads the page: `restoreSession`. -/
  | reload
  | logout
  /-- An authenticated query of the tab's own: `useUnreadNotificationCountQuery`
  every two minutes, or what a pushed notification has refetched. -/
  | poll
  /-- The notification socket connects, or reconnects. -/
  | connect
  /-- The socket's keepalive. -/
  | ping
  /-- The timer of `useIdleTimeout`. -/
  | idleTimer
  | wait (seconds : Nat)
  deriving DecidableEq, Repr

/-- The tab after an event. It polls and connects only while it is signed
in. -/
def Tab.next (w : Tab) : TabEvent → Tab
  | .activity => { w with lastActivity := w.server.now }
  | .userCall => { w.query prims cfg with lastActivity := w.server.now }
  | .reload =>
    { (({ w with access := none } : Tab).refreshSession prims cfg).2 with
      lastActivity := w.server.now }
  | .logout =>
    { (w.call prims cfg (.logout none w.cookie)).2 with
      access := none
      lastActivity := w.server.now }
  | .poll =>
    if w.access.isSome then
      { w.query prims cfg with lastOwn := if w.windowOpen then w.server.now else w.lastOwn }
    else w
  | .connect => if w.access.isSome then (w.call prims cfg (.socket w.access)).2 else w
  | .ping => w
  | .idleTimer =>
    if w.lastActivity + idleTimeoutSeconds cfg ≤ w.server.now then { w with access := none } else w
  | .wait seconds => { w with server := w.server.wait seconds }

/-! ## The timeout -/

/-- The call is let in. -/
def LetsIn (s : Server) (c : AuthCall) : Prop :=
  ∃ a, (serve prims cfg s c).1 = .ok a ∧ a ≠ .socketClosed

/-- The user has been away for longer than the timeout. -/
def Tab.Late (w : Tab) : Prop := w.lastActivity + idleTimeoutSeconds cfg < w.server.now

/-- If the user has been away for longer than the timeout, no call is let in
with a token of the session, be it an access or a refresh token. -/
def Tab.TimedOut (w : Tab) : Prop :=
  w.Late cfg → ∀ c t, c.credential = some t → t.sid = some w.sid → ¬ LetsIn prims cfg w.server c

/-- When time goes past the timeout after the user's last activity, it also
goes past the timeout after the last call the tab made of its own accord (a
poll or a pushed refetch, with the refresh it may need) that found the session
open. -/
def Undisturbed (w : Tab) : TabEvent → Prop
  | .wait seconds =>
    w.lastActivity + idleTimeoutSeconds cfg < w.server.now + seconds →
      w.lastOwn + idleTimeoutSeconds cfg < w.server.now + seconds
  | _ => True

instance (s : Server) (c : AuthCall) : Decidable (LetsIn prims cfg s c) :=
  match h : (serve prims cfg s c).1 with
  | .ok a => decidable_of_iff (a ≠ .socketClosed) (by simp [LetsIn, h])
  | .error e => .isFalse (by simp [LetsIn, h])

instance (w : Tab) : Decidable (w.Late cfg) :=
  inferInstanceAs (Decidable (w.lastActivity + idleTimeoutSeconds cfg < w.server.now))

instance (w : Tab) (e : TabEvent) : Decidable (Undisturbed cfg w e) :=
  match e with
  | .wait seconds => inferInstanceAs (Decidable
      (w.lastActivity + idleTimeoutSeconds cfg < w.server.now + seconds →
        w.lastOwn + idleTimeoutSeconds cfg < w.server.now + seconds))
  | .activity | .userCall | .reload | .logout | .poll | .connect | .ping | .idleTimer =>
    .isTrue trivial

variable {prims cfg}

/-! ## Calls that do not sleep -/

/-- Lets every command through but `asyncio.sleep`. -/
def awake : Monitor Command Command.Reply Unit where
  allows _ c := ∀ n, c ≠ .sleep n
  possible _ _ := True
  next _ _ _ := ()

/-- A function that never sleeps. -/
def Awake {α : Type} (p : Handler α) : Prop := Obeys awake (fun _ _ => True) () p

section Awake

variable {α β : Type}

theorem Awake.bind {p : Handler α} {f : α → Handler β} (hp : Awake p) (hf : ∀ a, Awake (f a)) :
    Awake (p >>= f) := by
  unfold Awake
  rw [obeys_bind]
  exact hp.mono fun _ a _ => hf a

theorem awake_pure (a : α) : Awake (pure a : Handler α) := trivial

theorem awake_raise (e : Failure) : Awake (.raise e : Handler α) := trivial

theorem awake_of_sends {p : Handler α} (hp : Sends awake.Blind p) : Awake p :=
  hp.obeys fun _ => trivial

theorem awake_blind {c : Command} (h : ∀ n, c ≠ .sleep n) : awake.Blind c :=
  fun _ => ⟨h, fun _ => rfl⟩

theorem awake_send {c : Command} (h : ∀ n, c ≠ .sleep n) : Awake (send c) :=
  awake_of_sends (sends_send (awake_blind h))

theorem awake_require (b : Bool) (e : Failure) : Awake (require b e) :=
  awake_of_sends (sends_require b e)

theorem awake_requireActive (row : Option User) (e : Failure) : Awake (requireActive row e) :=
  awake_of_sends (sends_requireActive row e)

theorem awake_decodeToken (t : Token) : Awake (decodeToken t) :=
  awake_of_sends (sends_decodeToken (awake_blind (by simp)))

theorem awake_isSessionActive (sid : Option Nat) : Awake (isSessionActive sid) :=
  awake_of_sends (sends_isSessionActive (fun _ => awake_blind (by simp)) sid)

theorem awake_touchSession (sid : Option Nat) : Awake (touchSession cfg sid) :=
  awake_of_sends (sends_touchSession (fun _ _ _ => awake_blind (by simp)) sid)

theorem awake_endSession (sid : Option Nat) : Awake (endSession sid) :=
  awake_of_sends (sends_endSession (fun _ => awake_blind (by simp)) sid)

theorem awake_revokeRefreshJti (userId jti : Nat) : Awake (revokeRefreshJti cfg userId jti) :=
  awake_of_sends (sends_revokeRefreshJti (awake_blind (by simp)) fun _ _ => awake_blind (by simp))

theorem awake_isRefreshJtiValid (userId jti : Nat) : Awake (isRefreshJtiValid userId jti) :=
  awake_of_sends (sends_isRefreshJtiValid (awake_blind (by simp)) (awake_blind (by simp)))

theorem awake_getCurrentUser (token : Option Token) : Awake (getCurrentUser cfg token) :=
  awake_of_sends (sends_getCurrentUser (fun _ => awake_blind (by simp))
    (fun _ => awake_blind (by simp)) (fun _ => awake_blind (by simp))
    (fun _ _ _ => awake_blind (by simp)) token)

theorem awake_authenticated (token : Option Token) :
    Awake (handle prims cfg (.authenticated token)) :=
  (awake_getCurrentUser token).bind fun _ => awake_pure _

theorem awake_requireSession (t : Token) (active : Bool) : Awake (requireSession cfg t active) := by
  unfold requireSession
  split
  · exact awake_pure _
  · exact (awake_revokeRefreshJti _ _).bind fun _ => awake_raise _

theorem awake_checkRefresh (t : Token) : Awake (checkRefresh cfg t) := by
  refine (awake_decodeToken t).bind fun _ => (awake_require _ _).bind fun _ => ?_
  refine (awake_require _ _).bind fun _ => (awake_isRefreshJtiValid _ _).bind fun valid => ?_
  refine (awake_require _ _).bind fun _ => (awake_isSessionActive _).bind fun active => ?_
  refine (awake_requireSession t active).bind fun _ => (awake_send (by simp)).bind fun row => ?_
  exact awake_requireActive _ _

theorem awake_rotate (t : Token) (user : User) (sid : Nat) : Awake (rotate cfg t user sid) := by
  refine (awake_revokeRefreshJti _ _).bind fun _ => (awake_send (by simp)).bind fun fresh => ?_
  refine Awake.bind (awake_send (by simp)) fun _ => (awake_touchSession _).bind fun _ => ?_
  exact Awake.bind (awake_send (by simp)) fun _ => awake_pure _

theorem awake_refresh (body cookie : Option Token) :
    Awake (handle prims cfg (.refresh body cookie)) := by
  change Awake (refresh cfg body cookie)
  unfold refresh
  split
  · exact awake_raise _
  · rename_i t _
    refine (awake_checkRefresh t).bind fun user => ?_
    refine Awake.bind ?_ fun sid => awake_rotate t user sid
    unfold adoptSession
    split
    · exact awake_pure _
    · exact awake_send (by simp)

theorem awake_logout (body cookie : Option Token) :
    Awake (handle prims cfg (.logout body cookie)) := by
  change Awake (logout cfg body cookie)
  unfold logout
  split
  · exact awake_pure _
  · rename_i t _
    refine (awake_send (by simp)).bind fun ok => ?_
    split
    · refine Awake.bind ?_ fun _ => (awake_endSession _).bind fun _ => awake_pure _
      unfold revokeOwn
      split
      · exact awake_revokeRefreshJti _ _
      · exact awake_pure _
    · exact awake_pure _

end Awake

/-! ## The window of a session -/

section Window

variable {s s' : Server} {sid : Nat} {t : Int}

/-- The key of the session is dead after `t`. -/
structure Server.SeenUntil (sid : Nat) (t : Int) (s : Server) : Prop where
  wf : s.Wf
  drawn : sid < s.nextSecret
  bound : Until s.redis (.sessionSeen sid) t

theorem Server.SeenUntil.mono {t' : Int} (h : s.SeenUntil sid t) (hle : t ≤ t') :
    s.SeenUntil sid t' := ⟨h.wf, h.drawn, h.bound.mono hle⟩

/-- A command writes the key only if the call holds the session, and then
for the timeout from now. -/
theorem until_of_allows {own : Option Token} {q : Ledger} {c : Command}
    (h : q.Allows cfg own c) (hs : Until s.redis (.sessionSeen sid) t)
    (ht : q.Holds sid → s.now + idleTimeoutSeconds cfg ≤ t) :
    Until (exec c s).2.redis (.sessionSeen sid) t := by
  by_cases hwrites : c.Writes (.sessionSeen sid)
  · have hle := ht (h.mayWrite hwrites)
    cases c with
    | setex k ttl v =>
      cases hwrites
      have httl : ttl = idleTimeoutSeconds cfg := h.2
      exact Until.setex_self (httl ▸ hle)
    | setNx k ttl =>
      cases hwrites
      obtain ⟨userId, step, hk⟩ := h
      cases hk
    | incrExpire ks ttl =>
      obtain ⟨_, hk⟩ | ⟨_, hk⟩ := h _ hwrites
      · cases hk
      · cases hk
    | _ => cases hwrites
  · exact until_exec hs hwrites

theorem has_of_until (h : Until s.redis (.sessionSeen sid) t) (ht : t < s.now) :
    s.has (.sessionSeen sid) = false :=
  contains_eq_false.mpr (h.get_eq_none ht)

theorem serve_now (c : AuthCall) (hawake : Awake (handle prims cfg c)) :
    (serve prims cfg s c).2.now = s.now := by
  have hreply : ∀ (c' : Command) (s' : Server), awake.possible c' (exec c' s').1 :=
    fun _ _ => trivial
  obtain ⟨-, hnow, -⟩ := Obeys.run (I := fun _ s' => s'.now = s.now) hreply
    (fun _ _ _ hc hs' => (now_exec hc).trans hs') hawake rfl
  exact hnow

/-- A call without sleep slides the window to at most the timeout from now. -/
theorem slides (c : AuthCall) (hawake : Awake (handle prims cfg c)) (h : s.SeenUntil sid t)
    (ht : s.now + idleTimeoutSeconds cfg ≤ t) : (serve prims cfg s c).2.SeenUntil sid t := by
  have hboth := (handle_obeys prims cfg c).prod hawake
  have hstep : ∀ (q : Ledger × Unit) (c' : Command) (s' : Server),
      ((discipline cfg c.spends).prod awake).allows q c' →
      (s'.SeenUntil sid t ∧ q.1.Wf s' ∧ s'.now = s.now) →
      ((exec c' s').2.SeenUntil sid t ∧ (q.1.note c.spends c' (exec c' s').1).Wf (exec c' s').2 ∧
        (exec c' s').2.now = s.now) := by
    rintro q c' s' ⟨hallows, hc'⟩ ⟨hseen, hq, hnow⟩
    refine ⟨⟨hseen.wf.exec hq hallows, ?_, ?_⟩, hq.note hseen.wf hallows, (now_exec hc').trans hnow⟩
    · exact Nat.lt_of_lt_of_le hseen.drawn (grows_exec c' s').secrets
    · exact until_of_allows hallows hseen.bound fun _ => hnow.symm ▸ ht
  have hreply : ∀ (c' : Command) (s' : Server),
      ((discipline cfg c.spends).prod awake).possible c' (exec c' s').1 :=
    fun c' s' => ⟨possible_exec c' s', trivial⟩
  obtain ⟨q', ⟨hseen, -, -⟩, -⟩ := Obeys.run
    (I := fun (q : Ledger × Unit) s' => s'.SeenUntil sid t ∧ q.1.Wf s' ∧ s'.now = s.now)
    hreply hstep hboth ⟨h, Ledger.wf_empty s, rfl⟩
  exact hseen

/-- A session that is closed stays closed through a call, and the call is not
let in with a token of it. -/
theorem closed (c : AuthCall) (h : s.SeenUntil sid t) (ht : t < s.now) :
    (serve prims cfg s c).2.SeenUntil sid t ∧
      ∀ tok, c.credential = some tok → tok.sid = some sid → ¬ LetsIn prims cfg s c := by
  have hstep : ∀ (q : Ledger) (c' : Command) (s' : Server), q.Allows cfg c.spends c' →
      (s'.SeenUntil sid t ∧ q.Wf s' ∧ t < s'.now ∧ ¬ q.Holds sid) →
      ((exec c' s').2.SeenUntil sid t ∧ (q.note c.spends c' (exec c' s').1).Wf (exec c' s').2 ∧
        t < (exec c' s').2.now ∧ ¬ (q.note c.spends c' (exec c' s').1).Holds sid) := by
    rintro q c' s' hallows ⟨hseen, hq, ht, hholds⟩
    have hgrows := grows_exec c' s'
    refine ⟨⟨hseen.wf.exec hq hallows, ?_, ?_⟩, hq.note hseen.wf hallows, ?_, fun hnew => ?_⟩
    · exact Nat.lt_of_lt_of_le hseen.drawn hgrows.secrets
    · exact until_of_allows hallows hseen.bound fun h => absurd h hholds
    · exact Int.lt_of_lt_of_le ht hgrows.time
    · rcases holds_note hnew with hnew | hhas | hdrawn
      · exact hholds hnew
      · rw [has_of_until hseen.bound ht] at hhas
        cases hhas
      · exact absurd hdrawn (Nat.ne_of_lt hseen.drawn)
  obtain ⟨q', ⟨hseen, -, -, hholds⟩, hpost⟩ := Handler.keeps
    (I := fun q s' => s'.SeenUntil sid t ∧ q.Wf s' ∧ t < s'.now ∧ ¬ q.Holds sid) hstep
    (handle_obeys prims cfg c) ⟨h, Ledger.wf_empty s, ht, by simp [Ledger.Holds]⟩
  refine ⟨hseen, ?_⟩
  rintro tok htok hsid ⟨a, ha, hopen⟩
  exact hholds (.inl (((hpost a ha).admits hopen tok htok).2 sid hsid))

end Window

/-! ## What the tab's calls do to the window -/

namespace Tab

variable {w w' w'' : Tab}

/-- No time passes from `w` to `w'`, and the window slides to at most the
timeout from now, or not at all if it is closed. -/
structure Quick (cfg : Settings) (w w' : Tab) : Prop where
  sid : w'.sid = w.sid
  lastActivity : w'.lastActivity = w.lastActivity
  lastOwn : w'.lastOwn = w.lastOwn
  now : w'.server.now = w.server.now
  slides : ∀ t, w.server.SeenUntil w.sid t → w.server.now + idleTimeoutSeconds cfg ≤ t →
    w'.server.SeenUntil w.sid t
  closed : ∀ t, w.server.SeenUntil w.sid t → t < w.server.now → w'.server.SeenUntil w.sid t

theorem Quick.trans (h : w.Quick cfg w') (h' : w'.Quick cfg w'') : w.Quick cfg w'' where
  sid := h'.sid.trans h.sid
  lastActivity := h'.lastActivity.trans h.lastActivity
  lastOwn := h'.lastOwn.trans h.lastOwn
  now := h'.now.trans h.now
  slides t hs ht := by
    have hs' := h.slides t hs ht
    rw [← h.sid] at hs' ⊢
    exact h'.slides t hs' (h.now.symm ▸ ht)
  closed t hs ht := by
    have hs' := h.closed t hs ht
    rw [← h.sid] at hs' ⊢
    exact h'.closed t hs' (h.now.symm ▸ ht)

/-- What the tab holds plays no part. -/
theorem Quick.withAccess (h : w.Quick cfg w') (access : Option Token) :
    w.Quick cfg { w' with access } :=
  ⟨h.sid, h.lastActivity, h.lastOwn, h.now, h.slides, h.closed⟩

variable (prims cfg)

theorem quick_call {c : AuthCall} (hawake : Awake (handle prims cfg c)) (w : Tab) :
    w.Quick cfg (w.call prims cfg c).2 where
  sid := rfl
  lastActivity := rfl
  lastOwn := rfl
  now := serve_now c hawake
  slides _ hs ht := Auth.slides c hawake hs ht
  closed _ hs ht := (Auth.closed c hs ht).1

theorem quick_refreshSession (w : Tab) : w.Quick cfg (w.refreshSession prims cfg).2 := by
  have hcall := quick_call prims cfg (awake_refresh none w.cookie) w
  simp only [refreshSession]
  split
  · exact hcall.withAccess _
  · exact hcall

theorem quick_query (w : Tab) : w.Quick cfg (w.query prims cfg) := by
  have hcall := quick_call prims cfg (awake_authenticated w.access) w
  have hrefresh := hcall.trans (quick_refreshSession prims cfg _)
  simp only [query]
  split
  · split
    · exact hrefresh.trans (quick_call prims cfg (awake_authenticated _) _)
    · exact hrefresh.withAccess none
  · exact hcall

variable {prims cfg}

/-! ## Runs -/

/-- The window is open for at most the timeout from the user's last activity
or the tab's last own call that found it open. -/
structure Timed (cfg : Settings) (w : Tab) : Prop where
  seen : w.server.SeenUntil w.sid (max w.lastActivity w.lastOwn + idleTimeoutSeconds cfg)
  activity : w.lastActivity ≤ w.server.now
  own : w.lastOwn ≤ w.server.now

/-- Something the user does. -/
theorem Timed.active (h : w.Timed cfg) (hquick : w.Quick cfg w') :
    ({ w' with lastActivity := w.server.now } : Tab).Timed cfg := by
  have hactivity := h.activity
  refine ⟨?_, Int.le_of_eq hquick.now.symm, ?_⟩
  · have hle : max w.lastActivity w.lastOwn + idleTimeoutSeconds cfg ≤
        max w.server.now w'.lastOwn + idleTimeoutSeconds cfg := by
      rw [hquick.lastOwn]
      omega
    have hseen := hquick.slides _ (h.seen.mono hle) (by omega)
    exact hquick.sid ▸ hseen
  · rw [hquick.lastOwn, hquick.now]
    exact h.own

/-- A call of the tab's own that may find the session open, at an instant
that is recorded. -/
theorem Timed.own_open (h : w.Timed cfg) (hquick : w.Quick cfg w') :
    ({ w' with lastOwn := w.server.now } : Tab).Timed cfg := by
  have hown := h.own
  refine ⟨?_, ?_, Int.le_of_eq hquick.now.symm⟩
  · have hle : max w.lastActivity w.lastOwn + idleTimeoutSeconds cfg ≤
        max w'.lastActivity w.server.now + idleTimeoutSeconds cfg := by
      rw [hquick.lastActivity]
      omega
    have hseen := hquick.slides _ (h.seen.mono hle) (by omega)
    exact hquick.sid ▸ hseen
  · rw [hquick.lastActivity, hquick.now]
    exact h.activity

/-- A call of the tab's own that finds the session closed. -/
theorem Timed.own_closed (h : w.Timed cfg) (hquick : w.Quick cfg w') (hopen : w.windowOpen = false) :
    w'.Timed cfg := by
  have hbound := until_of_contains_eq_false hopen
  have hboth : w.server.SeenUntil w.sid
      (min (max w.lastActivity w.lastOwn + idleTimeoutSeconds cfg) (w.server.now - 1)) := by
    refine ⟨h.seen.wf, h.seen.drawn, fun e he hk => ?_⟩
    exact le_min (h.seen.bound e he hk) (hbound e he hk)
  have hseen := (hquick.closed _ hboth (by omega)).mono (min_le_left _ _)
  refine ⟨?_, ?_, ?_⟩
  · rw [hquick.sid, hquick.lastActivity, hquick.lastOwn]
    exact hseen
  · rw [hquick.lastActivity, hquick.now]
    exact h.activity
  · rw [hquick.lastOwn, hquick.now]
    exact h.own

/-- The handshake of a socket only reads. -/
theorem serve_socket (prims : Primitives) (cfg : Settings) (s : Server) (token : Option Token) :
    (serve prims cfg s (.socket token)).2 = s := by
  cases token with
  | none => rfl
  | some t => exact congrArg Prod.snd (socket_atomically s t)

/-- Every event keeps the bound. -/
theorem Timed.next (h : w.Timed cfg) (e : TabEvent) : (w.next prims cfg e).Timed cfg := by
  cases e with
  | activity =>
    have hactivity := h.activity
    have hle : max w.lastActivity w.lastOwn + idleTimeoutSeconds cfg ≤
        max w.server.now w.lastOwn + idleTimeoutSeconds cfg := by omega
    exact ⟨h.seen.mono hle, Int.le_refl _, h.own⟩
  | userCall => exact h.active (quick_query prims cfg w)
  | reload =>
    have h' : ({ w with access := none } : Tab).Timed cfg := ⟨h.seen, h.activity, h.own⟩
    exact h'.active (quick_refreshSession prims cfg _)
  | logout => exact h.active ((quick_call prims cfg (awake_logout none w.cookie) w).withAccess none)
  | poll =>
    simp only [Tab.next]
    split
    · cases hopen : w.windowOpen with
      | true => exact h.own_open (quick_query prims cfg w)
      | false =>
        have hafter := h.own_closed (quick_query prims cfg w) hopen
        have hown := (quick_query prims cfg w).lastOwn
        rw [if_neg (by simp), ← hown]
        exact hafter
    · exact h
  | connect =>
    simp only [Tab.next]
    split
    · refine ⟨?_, ?_, ?_⟩
      · simp only [call, serve_socket]
        exact h.seen
      · simp only [call, serve_socket]
        exact h.activity
      · simp only [call, serve_socket]
        exact h.own
    · exact h
  | ping => exact h
  | idleTimer =>
    simp only [Tab.next]
    split
    · exact ⟨h.seen, h.activity, h.own⟩
    · exact h
  | wait seconds =>
    have hactivity := h.activity
    have hown := h.own
    have hnow : (w.next prims cfg (.wait seconds)).server.now = w.server.now + seconds := rfl
    refine ⟨⟨⟨h.seen.wf.jti_lt, h.seen.wf.sid_lt, h.seen.wf.jti_inj, h.seen.wf.key_lt⟩,
      h.seen.drawn, h.seen.bound⟩, ?_, ?_⟩
    · rw [hnow]
      exact Int.le_trans hactivity (by omega)
    · rw [hnow]
      exact Int.le_trans hown (by omega)

/-- Once the user has been away for too long, it is long enough too since a
call of the tab's own found the session open. -/
def Quiet (cfg : Settings) (w : Tab) : Prop :=
  w.Late cfg → w.lastOwn + idleTimeoutSeconds cfg < w.server.now

theorem Quiet.window_over (h : w.Quiet cfg) (hlate : w.Late cfg) :
    max w.lastActivity w.lastOwn + idleTimeoutSeconds cfg < w.server.now := by
  have hown := h hlate
  unfold Late at hlate
  omega

/-- Who has just been active is not late. -/
theorem quiet_of_active (h : w.server.now ≤ w.lastActivity) : w.Quiet cfg := by
  intro hlate
  have hnonneg : 0 ≤ idleTimeoutSeconds cfg := by
    unfold idleTimeoutSeconds
    omega
  unfold Late at hlate
  omega

/-- A step that changes neither the clock nor what is recorded. -/
theorem Quiet.congr (h : w.Quiet cfg) (hactivity : w'.lastActivity = w.lastActivity)
    (hown : w'.lastOwn = w.lastOwn) (hnow : w'.server.now = w.server.now) : w'.Quiet cfg := by
  unfold Quiet Late
  rw [hactivity, hown, hnow]
  exact h

/-- An undisturbed step keeps it. -/
theorem Quiet.next (h : w.Quiet cfg) (htimed : w.Timed cfg) (e : TabEvent)
    (hcalm : Undisturbed cfg w e) : (w.next prims cfg e).Quiet cfg := by
  cases e with
  | activity => exact quiet_of_active (Int.le_refl _)
  | userCall => exact quiet_of_active (Int.le_of_eq (quick_query prims cfg w).now)
  | reload => exact quiet_of_active (Int.le_of_eq (quick_refreshSession prims cfg _).now)
  | logout =>
    exact quiet_of_active (Int.le_of_eq (quick_call prims cfg (awake_logout none w.cookie) w).now)
  | poll =>
    simp only [Tab.next]
    have hquick := quick_query prims cfg w
    split
    · by_cases hlate : w.Late cfg
      · have hclosed : w.windowOpen = false := has_of_until htimed.seen.bound (h.window_over hlate)
        refine h.congr hquick.lastActivity ?_ hquick.now
        rw [hclosed]
        rfl
      · intro hlate'
        unfold Late at hlate hlate'
        rw [hquick.lastActivity, hquick.now] at hlate'
        exact absurd hlate' hlate
    · exact h
  | connect =>
    simp only [Tab.next]
    split
    · exact h.congr rfl rfl (congrArg Server.now (serve_socket prims cfg w.server w.access))
    · exact h
  | ping => exact h
  | idleTimer =>
    simp only [Tab.next]
    split
    · exact h.congr rfl rfl rfl
    · exact h
  | wait seconds => exact hcalm

/-- A late and quiet tab's session lets no call in. -/
theorem Timed.timedOut (h : w.Timed cfg) (hquiet : w.Quiet cfg) : w.TimedOut prims cfg :=
  fun hlate c t hcredential hsid =>
    (closed c h.seen (hquiet.window_over hlate)).2 t hcredential hsid

end Tab

/-- From a tab that is signed in: as long as time does not go past the timeout
after the user's last activity without going past it after the tab's last own
call that found the session open, the session times out on the server in every
state. -/
theorem idle_session_refused (prims : Primitives) (cfg : Settings) (w : Tab) (hw : w.Timed cfg)
    (hactive : w.lastActivity = w.server.now) (es : List TabEvent)
    (hcalm : Along (Tab.next prims cfg) (Undisturbed cfg) w es) :
    Always (Tab.next prims cfg) (Tab.TimedOut prims cfg) w es :=
  always_of_invariant_along (I := fun w : Tab => w.Timed cfg ∧ w.Quiet cfg)
    (fun _ e hw hcalm => ⟨hw.1.next e, hw.2.next hw.1 e hcalm⟩) (fun _ hw => hw.1.timedOut hw.2)
    ⟨hw, Tab.quiet_of_active (Int.le_of_eq hactive.symm)⟩ hcalm

/-- The registrator's tab, right after the login. -/
def deskTab : Tab where
  server := (serve plainPrimitives {} frontDesk deskLogin).2
  sid := 0
  access := some deskAccess
  cookie := some deskRefresh
  lastActivity := 0
  lastOwn := 0

theorem deskTab_timed : deskTab.Timed {} where
  seen := {
    wf := Handler.keeps_wf (handle_obeys plainPrimitives {} deskLogin) frontDesk_wf rfl
    drawn := by decide +kernel
    bound := by unfold Until; decide +kernel }
  activity := by decide +kernel
  own := by decide +kernel

/-- The registrator leaves for half an hour and a bit, and the tab's timers
are asleep: at the end nothing is let in. -/
theorem idle_session_refused_desk :
    Always (Tab.next plainPrimitives {}) (Tab.TimedOut plainPrimitives {}) deskTab
      [.poll, .ping, .wait 1801, .poll] :=
  idle_session_refused plainPrimitives {} deskTab deskTab_timed (by decide +kernel)
    [.poll, .ping, .wait 1801, .poll] (by decide +kernel)

/-- The registrator leaves, and the tab polls once after two minutes: half an
hour after the last activity the refresh token is still accepted. -/
theorem polled_past_timeout :
    ¬ (run (Tab.next plainPrimitives {}) deskTab [.wait 120, .poll, .wait 1690]).TimedOut
      plainPrimitives {} := by
  intro h
  exact h (by decide +kernel) (.refresh none (some deskRefresh)) deskRefresh rfl rfl
    (by decide +kernel)

end Royd.Auth
