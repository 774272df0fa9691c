/-
Royd.Auth.PasswordChange — what a change of the password ends.

Every call is served in one piece here. A change of a user's password, by the
user, by a reset link or by an administrator, revokes the refresh tokens of
the user and touches nothing else: a pending `mfa_token` and a reset link
that were given out before stay good for what is left of their own lives
(`mfaToken_survives`). So what ends at once are the refresh tokens, and what
bounds the other two is their lifetime and, for a link, its single use
(`password_change_ends`).
-/
import Royd.Auth.Atomic
import Royd.Lib.Runs

namespace Royd.Auth

open ExpiringStore Programs Runs

variable {prims : Primitives} {cfg : Settings}

/-! ## The system -/

/-- A call that is served in one piece, or time that passes. -/
inductive Event where
  | call (call : AuthCall)
  | wait (seconds : Nat)
  deriving DecidableEq, Repr

/-- The server after an event. -/
def happen (prims : Primitives) (cfg : Settings) (s : Server) : Event → Server
  | .call call => (serve prims cfg s call).2
  | .wait seconds => s.wait seconds

/-- The call is answered. -/
def Accepts (prims : Primitives) (cfg : Settings) (s : Server) (call : AuthCall) : Prop :=
  ∃ a, (serve prims cfg s call).1 = .ok a

/-- The call changes the password of user `userId`: it is the user's own
change, the use of a reset link, or an update by an administrator. -/
def Changes (s : Server) (userId : Nat) : AuthCall → Prop
  | .changePassword token .. => ∃ t ∈ token, t.sub = userId
  | .resetPassword link _ => ExpiringStore.get s.redis s.now (.pwreset link) = some userId
  | .updateUser _ id data => id = userId ∧ data.password.isSome
  | _ => False

instance (s : Server) (call : AuthCall) : Decidable (Accepts prims cfg s call) :=
  decidable_of_iff ((serve prims cfg s call).1.toOption.isSome = true) <| by
    unfold Accepts
    cases (serve prims cfg s call).1 with
    | ok a => simp [Except.toOption]
    | error e => simp [Except.toOption]

instance (s : Server) (userId : Nat) (call : AuthCall) : Decidable (Changes s userId call) :=
  match call with
  | .changePassword token .. => inferInstanceAs (Decidable (∃ t ∈ token, t.sub = userId))
  | .resetPassword link _ => inferInstanceAs (Decidable
      (ExpiringStore.get s.redis s.now (.pwreset link) = some userId))
  | .updateUser _ id data => inferInstanceAs (Decidable (id = userId ∧ data.password.isSome))
  | .login .. | .loginSecondFactor .. | .refresh .. | .logout .. | .authenticated ..
  | .forgotPassword .. | .totpSetup .. | .totpEnable .. | .totpDisable .. | .deleteUser ..
  | .socket .. =>
    .isFalse id

/-! ## Lifetimes -/

/-- What has a limited life, has it by the clock. -/
structure Server.Sound (s : Server) : Prop extends Server.Wf s where
  mfa_exp : ∀ t ∈ s.issued, t.type = .mfa → t.exp = t.iat + mfaTtlSeconds
  reset_live : ∀ e ∈ s.redis, ∀ token, e.key = .pwreset token → e.live ≤ s.now + resetTtlSeconds
  link_lt : ∀ l ∈ s.links, l.token < s.nextSecret
  link_live : ∀ l ∈ s.links, Until s.redis (.pwreset l.token) (l.sentAt + resetTtlSeconds)

section Kept

variable {own : Option Token} {q : Ledger} {c : Command} {s : Server}

/-- A call draws new values only. -/
theorem drawn_note {n : Nat} (h : n ∈ (q.note own c (exec c s).1).drawn) :
    n ∈ q.drawn ∨ n = s.nextSecret := by
  cases c with
  | decode t =>
    change n ∈ (q.note own (.decode t) (s.decodes t)).drawn at h
    cases hok : s.decodes t with
    | true => rw [hok] at h; exact .inl h
    | false => rw [hok] at h; exact .inl h
  | mint type sub sid ttl =>
    cases type with
    | _ => exact .inl h
  | secret => exact (List.mem_cons.mp h).symm
  | «exists» k =>
    change n ∈ (q.note own (.exists k) (s.has k)).drawn at h
    cases hok : s.has k with
    | true =>
      rw [hok] at h
      exact .inl (by simpa [Ledger.note] using h)
    | false => rw [hok] at h; exact .inl h
  | setex k ttl v => exact .inl (by simpa [Ledger.note] using h)
  | mailLink userId token => exact .inl (List.mem_filter.mp h).1
  | _ => exact .inl h

theorem reset_live_exec (h : q.Allows cfg own c)
    (hs : ∀ e ∈ s.redis, ∀ token, e.key = .pwreset token → e.live ≤ s.now + resetTtlSeconds) :
    ∀ e ∈ (exec c s).2.redis, ∀ token, e.key = .pwreset token →
      e.live ≤ (exec c s).2.now + resetTtlSeconds := by
  intro e he token hkey
  have htime := (grows_exec c s).time
  by_cases hold : e ∈ s.redis
  · exact Int.le_trans (hs e hold token hkey) (by omega)
  · have hwrites := (mem_redis_exec he).resolve_left hold
    cases c with
    | setex k ttl v =>
      cases hwrites
      have httl : ttl = resetTtlSeconds := by
        have hlife := h.2
        rw [hkey] at hlife
        exact hlife
      rcases List.mem_cons.mp he with heq | he
      · have hlive : e.live = s.now + ttl := congrArg Entry.live heq
        exact Int.le_of_eq (by rw [hlive, httl]; rfl)
      · exact absurd (List.mem_filter.mp he).1 hold
    | setNx k ttl =>
      cases hwrites
      obtain ⟨userId, step, hk⟩ := h
      cases hkey.symm.trans hk
    | incrExpire ks ttl =>
      obtain ⟨_, hk⟩ | ⟨_, hk⟩ := h _ hwrites
      · cases hkey.symm.trans hk
      · cases hkey.symm.trans hk
    | _ => cases hwrites

theorem mfa_exp_exec (h : q.Allows cfg own c)
    (hs : ∀ t ∈ s.issued, t.type = .mfa → t.exp = t.iat + mfaTtlSeconds) :
    ∀ t ∈ (exec c s).2.issued, t.type = .mfa → t.exp = t.iat + mfaTtlSeconds := by
  intro t ht htype
  rcases mem_issued_exec ht with hold | ⟨type, sub, sid, ttl, rfl, rfl⟩
  · exact hs t hold htype
  · cases htype
    have httl : ttl = mfaTtlSeconds := h.2
    simp [Server.newToken, httl]

/-- The links after a command. -/
theorem mem_links_exec {l : ResetLink} (h : l ∈ (exec c s).2.links) :
    l ∈ s.links ∨ ∃ userId, c = .mailLink userId l.token ∧ l.sentAt = s.now := by
  cases c with
  | mailLink userId token =>
    rcases List.mem_cons.mp h with rfl | h
    · exact .inr ⟨userId, rfl, rfl⟩
    · exact .inl h
  | mint type sub sid ttl => exact .inl h
  | secret => exact .inl h
  | sleep seconds => exact .inl h
  | _ =>
    rw [exec_stores] at h
    · exact .inl h
    · trivial

/-- A call draws none of the values that were mailed before. -/
def Ledger.Apart (q : Ledger) (s : Server) : Prop := ∀ l ∈ s.links, l.token ∉ q.drawn

theorem apart_exec (h : q.Apart s) (hs : s.Sound) :
    (q.note own c (exec c s).1).Apart (exec c s).2 := by
  intro l hl hdrawn
  rcases mem_links_exec hl with hold | ⟨userId, rfl, -⟩
  · rcases drawn_note hdrawn with hdrawn | hnew
    · exact h l hold hdrawn
    · exact absurd hnew (Nat.ne_of_lt (hs.link_lt l hold))
  · simp [Ledger.note] at hdrawn

theorem Server.Sound.exec (hs : s.Sound) (hq : q.Wf s) (hapart : q.Apart s)
    (h : q.Allows cfg own c) : (exec c s).2.Sound := by
  refine { hs.toWf.exec hq h with
    mfa_exp := mfa_exp_exec h hs.mfa_exp
    reset_live := reset_live_exec h hs.reset_live
    link_lt := fun l hl => ?_
    link_live := fun l hl => ?_ }
  · refine Nat.lt_of_lt_of_le ?_ (grows_exec c s).secrets
    rcases mem_links_exec hl with hold | ⟨userId, rfl, -⟩
    · exact hs.link_lt l hold
    · exact hq.drawn l.token h
  · rcases mem_links_exec hl with hold | ⟨userId, rfl, hsent⟩
    · exact until_exec (hs.link_live l hold) fun hwrites => hapart l hold (h.mayWrite hwrites)
    · intro e he hkey
      rw [hsent]
      exact hs.reset_live e he l.token hkey

end Kept

/-! ## What a call keeps -/

section Calls

variable {α : Type} {own : Option Token} {p : Handler α} {post : Ledger → α → Prop}
  {s s' : Server} {r : Except Failure α}

/-- The refresh tokens of the user with a number below `n` are dead from `t`
on. -/
structure Server.Revoked (userId n : Nat) (t : Int) (s : Server) : Prop where
  secrets : n ≤ s.nextSecret
  time : t < s.now
  gone : ∀ jti < n, Until s.redis (.refreshActive userId jti) t

/-- The reset link is used up. -/
structure Server.Burnt (token : Nat) (s : Server) : Prop where
  secret : token < s.nextSecret
  gone : Absent s.redis (.pwreset token)

theorem keeps_sound (hp : Obeys (discipline cfg own) post {} p) (hs : s.Sound)
    (h : p.atomically s = (r, s')) : s'.Sound := by
  have hstep : ∀ (q : Ledger) (c : Command) (s : Server), q.Allows cfg own c →
      (s.Sound ∧ q.Wf s ∧ q.Apart s) →
      ((exec c s).2.Sound ∧ (q.note own c (exec c s).1).Wf (exec c s).2 ∧
        (q.note own c (exec c s).1).Apart (exec c s).2) := by
    rintro q c s hallows ⟨hs, hq, hapart⟩
    exact ⟨hs.exec hq hapart hallows, hq.note hs.toWf hallows, apart_exec hapart hs⟩
  obtain ⟨q', ⟨hsound, -⟩, -⟩ := Handler.keeps (I := fun q s => s.Sound ∧ q.Wf s ∧ q.Apart s) hstep hp
    ⟨hs, Ledger.wf_empty s, fun _ _ h => by cases h⟩
  rwa [h] at hsound

/-- A call registers no refresh token but one it has signed itself, so those
that are revoked stay so. -/
theorem keeps_revoked {userId n : Nat} {t : Int} (hp : Obeys (discipline cfg own) post {} p)
    (hs : s.Wf) (hrevoked : s.Revoked userId n t) (h : p.atomically s = (r, s')) :
    s'.Revoked userId n t := by
  have hstep : ∀ (q : Ledger) (c : Command) (s : Server), q.Allows cfg own c →
      (s.Wf ∧ q.Wf s ∧ s.Revoked userId n t ∧ ∀ r, q.phase = .minted r → n ≤ r.jti) →
      ((exec c s).2.Wf ∧ (q.note own c (exec c s).1).Wf (exec c s).2 ∧
        (exec c s).2.Revoked userId n t ∧
        ∀ r, (q.note own c (exec c s).1).phase = .minted r → n ≤ r.jti) := by
    rintro q c s hallows ⟨hs, hq, hrevoked, hminted⟩
    have hgrows := grows_exec c s
    refine ⟨hs.exec hq hallows, hq.note hs hallows, ⟨?_, ?_, fun jti hjti => ?_⟩, fun r hr => ?_⟩
    · exact Nat.le_trans hrevoked.secrets hgrows.secrets
    · exact Int.lt_of_lt_of_le hrevoked.time hgrows.time
    · refine until_exec (hrevoked.gone jti hjti) fun hwrites => ?_
      obtain ⟨r, hr, hkey⟩ := hallows.mayWrite hwrites
      have hle := hminted r hr
      simp only [Token.activeKey, Key.refreshActive.injEq] at hkey
      omega
    · have hphase := phase_step (s := s) hallows
      rw [hr] at hphase
      generalize hp : q.phase = p' at hphase
      cases hphase with
      | same _ hkeep => exact hminted r hp
      | mint _ _ hfresh hkeep hspent => exact hfresh ▸ hrevoked.secrets
  obtain ⟨q', ⟨-, -, hafter, -⟩, -⟩ := Handler.keeps
    (I := fun q s => s.Wf ∧ q.Wf s ∧ s.Revoked userId n t ∧ ∀ r, q.phase = .minted r → n ≤ r.jti)
    hstep hp ⟨hs, Ledger.wf_empty s, hrevoked, fun _ hr => by cases hr⟩
  rwa [h] at hafter

/-- A call writes no reset link but under a value it has drawn itself, so a
link that is used up stays so. -/
theorem keeps_burnt {token : Nat} (hp : Obeys (discipline cfg own) post {} p)
    (hburnt : s.Burnt token) (h : p.atomically s = (r, s')) : s'.Burnt token := by
  have hstep : ∀ (q : Ledger) (c : Command) (s : Server), q.Allows cfg own c →
      (s.Burnt token ∧ token ∉ q.drawn) →
      ((exec c s).2.Burnt token ∧ token ∉ (q.note own c (exec c s).1).drawn) := by
    rintro q c s hallows ⟨hburnt, hdrawn⟩
    refine ⟨⟨?_, ?_⟩, fun hmem => ?_⟩
    · exact Nat.lt_of_lt_of_le hburnt.secret (grows_exec c s).secrets
    · exact absent_exec hburnt.gone fun hwrites => hdrawn (hallows.mayWrite hwrites)
    · rcases drawn_note hmem with hmem | hnew
      · exact hdrawn hmem
      · exact absurd hnew (Nat.ne_of_lt hburnt.secret)
  obtain ⟨q', ⟨hafter, -⟩, -⟩ := Handler.keeps (I := fun q s => s.Burnt token ∧ token ∉ q.drawn)
    hstep hp ⟨hburnt, by simp⟩
  rwa [h] at hafter

end Calls

/-! ## A change revokes -/

section Change

variable {s s' : Server}

/-- After `revoke_all_refresh_tokens` no key of the user's refresh tokens is
live any more. -/
theorem revokeAll_revoked {userId count n : Nat} (hn : n ≤ s.nextSecret)
    (h : (revokeAllRefreshTokens userId).atomically s = (.ok count, s')) :
    s'.Revoked userId n (s.now - 1) := by
  unfold revokeAllRefreshTokens at h
  obtain ⟨keys, s₁, hscan, h⟩ := Handler.atomically_bind_eq_ok.mp h
  obtain ⟨hkeys, hs₁⟩ := send_eq_ok hscan
  have hsame : s₁ = s := hs₁
  rw [hsame] at h
  have hdead : ∀ e ∈ s.redis, ∀ jti, e.key = .refreshActive userId jti → e.key ∉ keys →
      e.live ≤ s.now - 1 := by
    intro e he jti hkey hnot
    by_contra hlive
    refine hnot ?_
    rw [hkeys]
    refine List.mem_map.mpr ⟨e, List.mem_filter.mpr ⟨he, ?_⟩, rfl⟩
    simp only [hkey, Key.isRefreshOf, beq_self_eq_true, Bool.true_and, decide_eq_true_eq]
    omega
  split at h
  · rename_i hempty
    cases h
    refine ⟨hn, by omega, fun jti _ e he hkey => hdead e he jti hkey ?_⟩
    rw [List.isEmpty_iff.mp hempty]
    simp
  · obtain ⟨_, s₂, hdelete, h⟩ := Handler.atomically_bind_eq_ok.mp h
    cases h
    obtain ⟨-, rfl⟩ := send_eq_ok hdelete
    refine ⟨hn, by simp only [exec, Server.delete]; omega, fun jti _ e he hkey => ?_⟩
    obtain ⟨hmem, hnot⟩ := List.mem_filter.mp he
    exact hdead e hmem jti hkey (by simpa using hnot)

/-- A new password is stored, and the refresh tokens of its user are dead. -/
theorem replacePassword_revoked {user : User} {new : String} {u : Unit} {n : Nat}
    (hn : n ≤ s.nextSecret) (h : (replacePassword prims user new).atomically s = (.ok u, s')) :
    ∃ t, s'.Revoked user.id n t := by
  unfold replacePassword at h
  obtain ⟨hash, s₁, hhash, h⟩ := Handler.atomically_bind_eq_ok.mp h
  obtain ⟨_, s₂, hcommit, h⟩ := Handler.atomically_bind_eq_ok.mp h
  obtain ⟨count, s₃, hrevoke, h⟩ := Handler.atomically_bind_eq_ok.mp h
  cases h
  have hgrows := (Handler.grows hhash).trans (Handler.grows hcommit)
  exact ⟨_, revokeAll_revoked (Nat.le_trans hn hgrows.secrets) hrevoke⟩

/-- `get_current_user` returns the user the token names. -/
theorem getCurrentUser_id {token : Option Token} {user : User}
    (h : (getCurrentUser cfg token).atomically s = (.ok user, s')) :
    ∃ t, token = some t ∧ user.id = t.sub := by
  cases token with
  | none => cases h
  | some t =>
    exact ⟨t, rfl, activeUser_id (getCurrentUser_eq_ok.mp (congrArg Prod.fst h)).2⟩

theorem changePassword_revoked {token : Option Token} {current new : String} {a : Answer}
    (hs : s.Wf) (h : (changePassword prims cfg token current new).atomically s = (.ok a, s')) :
    ∃ t, token = some t ∧ ∃ instant, s'.Revoked t.sub s.nextSecret instant := by
  unfold changePassword at h
  simp only [Handler.atomically_bind_eq_ok] at h
  obtain ⟨user, s₁, hcurrent, _, s₂, hcheck₁, _, s₃, hcheck₂, _, s₄, hcheck₃, _, s₅, hreplace,
    hlogin⟩ := h
  obtain ⟨-, rfl⟩ := require_eq_ok.mp hcheck₁
  obtain ⟨-, rfl⟩ := require_eq_ok.mp hcheck₂
  obtain ⟨-, rfl⟩ := require_eq_ok.mp hcheck₃
  obtain ⟨t, rfl, hid⟩ := getCurrentUser_id hcurrent
  have hwf₄ := Handler.keeps_wf (keeps_getCurrentUser (some t)) hs hcurrent
  have hwf₅ := Handler.keeps_wf (keeps_replacePassword user new : Keeps cfg _) hwf₄ hreplace
  obtain ⟨instant, hrevoked⟩ := replacePassword_revoked (Handler.grows hcurrent).secrets hreplace
  rw [hid] at hrevoked
  exact ⟨t, rfl, instant, keeps_revoked (keeps_completeLogin user) hwf₅ hrevoked hlogin⟩

theorem resetPassword_revoked {link userId : Nat} {new : String} {a : Answer}
    (hlink : ExpiringStore.get s.redis s.now (.pwreset link) = some userId)
    (h : (resetPassword prims link new).atomically s = (.ok a, s')) :
    ∃ instant, s'.Revoked userId s.nextSecret instant := by
  unfold resetPassword resetFor at h
  simp only [Handler.atomically_bind_eq_ok] at h
  obtain ⟨owner, s₁, hget, id, s₂, howner, _, s₃, hdelete, row, s₄, hselect, user, s₅, hrow, _, s₆,
    hreplace, h⟩ := h
  cases h
  obtain ⟨rfl, rfl⟩ := send_eq_ok hget
  obtain ⟨hid, rfl⟩ := requireLink_eq_ok howner
  cases hid.symm.trans hlink
  obtain ⟨hsome, -, rfl⟩ := requireActive_eq_ok hrow
  rw [← selectUser_id hselect hsome]
  have hgrows := (Handler.grows hdelete).trans (Handler.grows hselect)
  exact replacePassword_revoked hgrows.secrets hreplace

/-- An update that has passed its checks and sets a password revokes. -/
theorem applyUpdate_revoked {actor loaded left : User} {data : UserUpdate} {a : Answer} {n : Nat}
    (hpassword : data.password.isSome = true) (hn : n ≤ s.nextSecret)
    (h : (applyUpdate actor loaded left data).atomically s = (.ok a, s')) :
    ∃ instant, s'.Revoked loaded.id n instant := by
  unfold applyUpdate at h
  simp only [Handler.atomically_bind_eq_ok] at h
  obtain ⟨_, s₁, hgeneral, _, s₂, hself, _, s₃, hdemote, users, s₄, hflush, _, s₅, hadmin, _, s₆,
    hcommit, _, s₇, hend, h⟩ := h
  cases h
  obtain ⟨-, rfl⟩ := require_eq_ok.mp hgeneral
  obtain ⟨-, rfl⟩ := require_eq_ok.mp hself
  obtain ⟨-, rfl⟩ := require_eq_ok.mp hdemote
  obtain ⟨-, rfl⟩ := require_eq_ok.mp hadmin
  have hgrows := (Handler.grows hflush).trans (Handler.grows hcommit)
  unfold endSessionsIf at hend
  rw [hpassword, Bool.true_or, if_pos rfl] at hend
  obtain ⟨count, s₈, hrevoke, h⟩ := Handler.atomically_bind_eq_ok.mp hend
  cases h
  exact ⟨_, revokeAll_revoked (Nat.le_trans hn hgrows.secrets) hrevoke⟩

theorem updateUser_revoked {token : Option Token} {userId : Nat} {data : UserUpdate} {a : Answer}
    (hpassword : data.password.isSome = true)
    (h : (updateUser prims cfg token userId data).atomically s = (.ok a, s')) :
    ∃ instant, s'.Revoked userId s.nextSecret instant := by
  unfold updateUser at h
  simp only [Handler.atomically_bind_eq_ok] at h
  obtain ⟨actor, s₁, hactor, row, s₂, hselect, user, s₃, hrow, hash, s₄, hhash, role, s₅, hrole, h⟩ := h
  obtain ⟨hsome, rfl⟩ := requireUser_eq_ok hrow
  rw [← selectUser_id hselect hsome]
  have hgrows := ((Handler.grows hactor).trans (Handler.grows hselect)).trans
    ((Handler.grows hhash).trans (Handler.grows hrole))
  exact applyUpdate_revoked hpassword hgrows.secrets h

/-- A change of a password, once it is done, leaves none of the user's older
refresh tokens alive. -/
theorem changes_revoked {userId : Nat} {call : AuthCall} {a : Answer} (hs : s.Wf)
    (hchanges : Changes s userId call) (h : serve prims cfg s call = (.ok a, s')) :
    ∃ instant, s'.Revoked userId s.nextSecret instant := by
  cases call with
  | changePassword token current new =>
    obtain ⟨t, ht, hsub⟩ := hchanges
    obtain ⟨t', ht', instant, hrevoked⟩ := changePassword_revoked hs h
    cases ht.symm.trans ht'
    exact ⟨instant, hsub ▸ hrevoked⟩
  | resetPassword link new => exact resetPassword_revoked hchanges h
  | updateUser token id data =>
    obtain ⟨rfl, hpassword⟩ := hchanges
    exact updateUser_revoked hpassword h
  | _ => cases hchanges

end Change

/-! ## Runs -/

section Along

variable {s : Server}

theorem grows_happen (s : Server) (e : Event) : s.Grows (happen prims cfg s e) := by
  cases e with
  | call call => exact Handler.grows (p := handle prims cfg call) rfl
  | wait seconds => exact s.grows_wait seconds

theorem grows_run (s : Server) (es : List Event) : s.Grows (run (happen prims cfg) s es) :=
  run_relates (I := fun _ => True) Server.Grows.refl (fun h h' => h.trans h') (fun _ _ _ => trivial)
    (fun s e _ => grows_happen s e) trivial es

theorem sound_happen (hs : s.Sound) (e : Event) : (happen prims cfg s e).Sound := by
  cases e with
  | call call => exact keeps_sound (handle_obeys prims cfg call) hs rfl
  | wait seconds =>
    refine ⟨⟨hs.jti_lt, hs.sid_lt, hs.jti_inj, hs.key_lt⟩, hs.mfa_exp, fun e he token hkey => ?_,
      hs.link_lt, hs.link_live⟩
    have hlive := hs.reset_live e he token hkey
    simp only [happen, Server.wait]
    omega

theorem sound_run (hs : s.Sound) (es : List Event) : (run (happen prims cfg) s es).Sound :=
  run_invariant (I := Server.Sound) (fun _ e h => sound_happen h e) hs es

theorem revoked_run {userId n : Nat} {t : Int} (hs : s.Sound) (h : s.Revoked userId n t)
    (es : List Event) : (run (happen prims cfg) s es).Revoked userId n t := by
  have hstep : ∀ (s : Server) (e : Event), (s.Sound ∧ s.Revoked userId n t) →
      ((happen prims cfg s e).Sound ∧ (happen prims cfg s e).Revoked userId n t) := by
    rintro s e ⟨hs, hrevoked⟩
    refine ⟨sound_happen hs e, ?_⟩
    cases e with
    | call call => exact keeps_revoked (handle_obeys prims cfg call) hs.toWf hrevoked rfl
    | wait seconds =>
      refine ⟨hrevoked.secrets, ?_, hrevoked.gone⟩
      exact Int.lt_of_lt_of_le hrevoked.time (s.grows_wait seconds).time
  exact (run_invariant hstep ⟨hs, h⟩ es).2

theorem burnt_run {token : Nat} (h : s.Burnt token) (es : List Event) :
    (run (happen prims cfg) s es).Burnt token := by
  refine run_invariant (fun s e hburnt => ?_) h es
  cases e with
  | call call => exact keeps_burnt (handle_obeys prims cfg call) hburnt rfl
  | wait seconds => exact ⟨hburnt.secret, hburnt.gone⟩

end Along

/-! ## What is accepted -/

section Accepted

variable {s : Server}

theorem serve_of_accepts {call : AuthCall} (h : Accepts prims cfg s call) :
    ∃ a s', serve prims cfg s call = (.ok a, s') := by
  obtain ⟨a, ha⟩ := h
  exact ⟨a, _, Prod.ext ha rfl⟩

/-- A refresh is accepted only with a token that passes its checks. -/
theorem refreshable_of_accepts {t : Token} {body cookie : Option Token}
    (ht : (cookie <|> body) = some t) (h : Accepts prims cfg s (.refresh body cookie)) :
    ∃ user, s.Refreshable t user := by
  obtain ⟨a, s', h⟩ := serve_of_accepts h
  simp only [serve, handle, refresh, ht] at h
  obtain ⟨user, s₁, hcheck, -⟩ := Handler.atomically_bind_eq_ok.mp h
  exact ⟨user, (checkRefresh_eq_ok.mp hcheck).1⟩

/-- A refresh token that is revoked is refused. -/
theorem not_accepts_refresh {userId n : Nat} {instant : Int} {t : Token} {body cookie : Option Token}
    (h : s.Revoked userId n instant) (hsub : t.sub = userId) (hjti : t.jti < n)
    (ht : (cookie <|> body) = some t) : ¬ Accepts prims cfg s (.refresh body cookie) := by
  intro haccepts
  obtain ⟨user, hcheck⟩ := refreshable_of_accepts ht haccepts
  have hactive : s.has (.refreshActive t.sub t.jti) = true := (Bool.and_eq_true_iff.mp hcheck.valid).2
  have hdead := (h.gone t.jti hjti).get_eq_none h.time
  rw [← hsub] at hdead
  rw [Server.has, ExpiringStore.contains, hdead] at hactive
  cases hactive

/-- An `mfa_token` is accepted only before it expires. -/
theorem decodes_of_secondFactor {t : Token} {code ip : String}
    (h : Accepts prims cfg s (.loginSecondFactor t code ip)) : s.now < t.exp := by
  obtain ⟨a, s', h⟩ := serve_of_accepts h
  obtain ⟨_, s₁, hdecode, -⟩ := Handler.atomically_bind_eq_ok.mp h
  have hdecodes := (decodeToken_eq_ok.mp hdecode).1
  exact of_decide_eq_true (Bool.and_eq_true_iff.mp hdecodes).2

/-- A reset link is accepted only while its key lives. -/
theorem has_of_reset {token : Nat} {new : String}
    (h : Accepts prims cfg s (.resetPassword token new)) : s.has (.pwreset token) = true := by
  obtain ⟨a, s', h⟩ := serve_of_accepts h
  obtain ⟨owner, s₁, hget, h⟩ := Handler.atomically_bind_eq_ok.mp h
  obtain ⟨userId, s₂, howner, -⟩ := Handler.atomically_bind_eq_ok.mp h
  obtain ⟨rfl, -⟩ := send_eq_ok hget
  exact Option.isSome_iff_exists.mpr ⟨userId, (requireLink_eq_ok howner).1⟩

/-- A link that is used up is refused. -/
theorem not_accepts_reset {token : Nat} (h : s.Burnt token) (new : String) :
    ¬ Accepts prims cfg s (.resetPassword token new) := by
  intro haccepts
  have hhas := has_of_reset haccepts
  rw [Server.has, h.gone.contains_eq_false] at hhas
  cases hhas

/-- The use of a link uses it up. -/
theorem burnt_of_reset {token : Nat} {new : String} (htoken : token < s.nextSecret)
    (h : Accepts prims cfg s (.resetPassword token new)) :
    (serve prims cfg s (.resetPassword token new)).2.Burnt token := by
  obtain ⟨a, s', hserve⟩ := serve_of_accepts h
  rw [hserve]
  obtain ⟨owner, s₁, hget, h₁⟩ := Handler.atomically_bind_eq_ok.mp hserve
  obtain ⟨userId, s₂, howner, h₂⟩ := Handler.atomically_bind_eq_ok.mp h₁
  obtain ⟨_, s₃, hdelete, hreset⟩ := Handler.atomically_bind_eq_ok.mp h₂
  have hdeleted : s₃ = s.delete [.pwreset token] := by
    rw [(send_eq_ok hdelete).2, (requireLink_eq_ok howner).2, (send_eq_ok hget).2]
    rfl
  have hburnt : s₃.Burnt token := by
    rw [hdeleted]
    exact ⟨htoken, absent_delete s.redis (List.mem_singleton_self _)⟩
  exact keeps_burnt (keeps_resetFor userId new : Keeps cfg _) hburnt hreset

end Accepted

/-! ## What a change ends -/

/-- Whatever happened before a completed change of the user's password and
whatever happens after it: no refresh token of the user from before is
accepted again. An `mfa_token` from before is accepted at most until its own
five minutes are over. A reset link from before is accepted within its thirty
minutes and once, and not at all if it is the one the change was made with. -/
theorem password_change_ends (prims : Primitives) (cfg : Settings) (s₀ : Server) (h₀ : s₀.Sound)
    (xs ys : List Event) (change : AuthCall) (userId : Nat)
    (hchange : Changes (run (happen prims cfg) s₀ xs) userId change)
    (hdone : Accepts prims cfg (run (happen prims cfg) s₀ xs) change) :
    let before := run (happen prims cfg) s₀ xs
    let after := run (happen prims cfg) s₀ (xs ++ .call change :: ys)
    (∀ t ∈ before.issued, t.type = .refresh → t.sub = userId →
      ∀ body cookie, (cookie <|> body) = some t → ¬ Accepts prims cfg after (.refresh body cookie)) ∧
    (∀ t ∈ before.issued, t.type = .mfa → t.sub = userId →
      ∀ code ip, Accepts prims cfg after (.loginSecondFactor t code ip) → after.now < t.iat + 5 * 60) ∧
    ∀ l ∈ before.links, l.userId = userId →
      (∀ new, Accepts prims cfg after (.resetPassword l.token new) →
        after.now ≤ l.sentAt + 30 * 60 ∧
          ∀ zs again, ¬ Accepts prims cfg
            (run (happen prims cfg) after (.call (.resetPassword l.token new) :: zs))
            (.resetPassword l.token again)) ∧
      ∀ new, change = .resetPassword l.token new →
        ∀ again, ¬ Accepts prims cfg after (.resetPassword l.token again) := by
  intro before after
  have hbefore : before.Sound := sound_run h₀ xs
  have hsplit : after = run (happen prims cfg) (happen prims cfg before (.call change)) ys := by
    rw [← run_cons, ← run_append]
  have hnext : (happen prims cfg before (.call change)).Sound := sound_happen hbefore _
  have hafter : after.Sound := hsplit ▸ sound_run hnext ys
  have hgrows : before.Grows after := hsplit ▸ (grows_happen before _).trans (grows_run _ ys)
  refine ⟨fun t ht htype hsub body cookie hcarried => ?_, fun t ht htype hsub code ip haccepts => ?_,
    fun l hl huser => ⟨fun new haccepts => ⟨?_, fun zs again => ?_⟩, ?_⟩⟩
  · obtain ⟨a, s', hserve⟩ := serve_of_accepts hdone
    obtain ⟨instant, hrevoked⟩ := changes_revoked hbefore.toWf hchange hserve
    have hthere : (happen prims cfg before (.call change)).Revoked userId before.nextSecret instant := by
      rw [happen, hserve]
      exact hrevoked
    refine not_accepts_refresh (hsplit ▸ revoked_run hnext hthere ys) hsub ?_ hcarried
    exact hbefore.jti_lt t ht
  · have hexp := hbefore.mfa_exp t ht htype
    have hlive := decodes_of_secondFactor haccepts
    rw [hexp] at hlive
    exact hlive
  · by_contra hlate
    have hdead := (hafter.link_live l (hgrows.links l hl)).get_eq_none (Int.not_le.mp hlate)
    have hhas := has_of_reset haccepts
    rw [Server.has, ExpiringStore.contains, hdead] at hhas
    cases hhas
  · have hlt : l.token < after.nextSecret := Nat.lt_of_lt_of_le (hbefore.link_lt l hl) hgrows.secrets
    exact not_accepts_reset (burnt_run (burnt_of_reset hlt haccepts) zs) again
  · rintro new rfl again
    have hburnt := burnt_of_reset (hbefore.link_lt l hl) hdone
    exact not_accepts_reset (hsplit ▸ burnt_run hburnt ys) again

theorem frontDesk_sound : frontDesk.Sound :=
  { frontDesk_wf with
    mfa_exp := by simp [frontDesk]
    reset_live := by simp [frontDesk]
    link_lt := by simp [frontDesk]
    link_live := by simp [frontDesk] }

/-- The registrator signs in and changes the password: the refresh token of
the login is refused, a day later too. -/
theorem password_change_ends_desk :
    ¬ Accepts plainPrimitives {}
      (run (happen plainPrimitives {}) frontDesk
        ([.call deskLogin] ++ .call (.changePassword (some deskAccess) "parol" "yangi parol") ::
          [.wait 86400]))
      (.refresh none (some deskRefresh)) :=
  (password_change_ends plainPrimitives {} frontDesk frontDesk_sound [.call deskLogin] [.wait 86400]
    (.changePassword (some deskAccess) "parol" "yangi parol") 1 (by decide +kernel)
    (by decide +kernel)).1 deskRefresh (by decide +kernel) rfl rfl none (some deskRefresh) rfl

/-- The registrator has a second factor. -/
def lockedDesk : Server :=
  { frontDesk with
    users := frontDesk.users.map fun u => { u with totpSecret := some "SECRET", totpEnabled := true } }

/-- The registrator asks for a reset link. -/
def deskForgot : AuthCall := .forgotPassword "desk@royd" "10.0.0.1"

/-- The `mfa_token` of the first login. -/
def deskMfa : Token := { type := .mfa, sub := 1, jti := 0, sid := none, iat := 0, exp := 300 }

/-- A login with the old password waits for its code, and two reset links are
out. The first of them sets a new password. -/
def resetDesk : List Event :=
  [.call deskLogin, .call deskForgot, .call deskForgot, .call (.resetPassword 1 "yangi parol")]

/-- The change completes, and both the `mfa_token` and the other link are
still accepted. -/
theorem mfaToken_survives :
    Changes (run (happen plainPrimitives {}) lockedDesk (resetDesk.take 3)) 1
        (.resetPassword 1 "yangi parol") ∧
      Accepts plainPrimitives {} (run (happen plainPrimitives {}) lockedDesk (resetDesk.take 3))
        (.resetPassword 1 "yangi parol") ∧
      deskMfa ∈ (run (happen plainPrimitives {}) lockedDesk (resetDesk.take 3)).issued ∧
      (⟨1, 2, 0⟩ : ResetLink) ∈ (run (happen plainPrimitives {}) lockedDesk (resetDesk.take 3)).links ∧
      Accepts plainPrimitives {} (run (happen plainPrimitives {}) lockedDesk resetDesk)
        (.loginSecondFactor deskMfa "000000" "10.0.0.1") ∧
      Accepts plainPrimitives {} (run (happen plainPrimitives {}) lockedDesk resetDesk)
        (.resetPassword 2 "boshqa parol") := by
  decide +kernel

end Royd.Auth
