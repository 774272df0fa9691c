/-
Royd.Auth.Rotation — one refresh, from its check to its answer.

A refresh that is let through spends its token and signs a new one, which
passes the checks from then on. Whether it is let through or refused, every
other token that passed the checks before still does.
-/
import Royd.Auth.Atomic

namespace Royd.Auth

open ExpiringStore Programs

variable {cfg : Settings} {s s' : Server}

/-! ## Keys -/

section Keys

variable {k k' : Key} {ttl : Int} {v : Nat} {ks : List Key}

theorem has_setex_self (h : 0 ≤ ttl) : (s.setex k ttl v).has k = true := by
  have hget : ExpiringStore.get (s.setex k ttl v).redis (s.setex k ttl v).now k = some v :=
    get_setex_self (by simp only [Server.setex]; omega)
  rw [Server.has, contains, hget]
  rfl

theorem has_setex_of_ne (h : k' ≠ k) : (s.setex k ttl v).has k' = s.has k' := by
  simp only [Server.has, contains, Server.setex]
  rw [get_setex_of_ne _ h]

theorem has_delete_of_notMem (h : k ∉ ks) : (s.delete ks).has k = s.has k := by
  simp only [Server.has, contains, Server.delete]
  rw [get_delete_of_notMem h]

/-- A key about a random value that was not drawn yet is not there. -/
theorem has_eq_false_of_fresh (hs : s.Wf) {n : Nat} (hk : k.secret? = some n)
    (hn : s.nextSecret ≤ n) : s.has k = false := by
  have habsent : Absent s.redis k := by
    rintro e he rfl
    exact absurd (hs.key_lt e he n hk) (Nat.not_lt.mpr hn)
  exact habsent.contains_eq_false s.now

end Keys

/-! ## Spending and granting -/

namespace Server

/-- `revoke_refresh_jti`. -/
def spend (cfg : Settings) (s : Server) (t : Token) : Server :=
  (s.delete [.refreshActive t.sub t.jti]).setex (.refreshBlocked t.jti) (refreshTtlSeconds cfg) mark

/-- The refresh token that is signed next. -/
def nextRefresh (cfg : Settings) (s : Server) (user : User) (sid : Nat) : Token :=
  s.newToken .refresh user.id (some sid) (refreshTtlSeconds cfg)

/-- The new refresh token is signed and registered, and the session touched. -/
def grant (cfg : Settings) (s : Server) (user : User) (sid : Nat) : Server :=
  ((s.sign (s.nextRefresh cfg user sid)).setex (.refreshActive user.id s.nextSecret)
    (refreshTtlSeconds cfg) mark).setex (.sessionSeen sid) (idleTimeoutSeconds cfg) mark

end Server

theorem rotate_atomically (cfg : Settings) (s : Server) (t : Token) (user : User) (sid : Nat) :
    ∃ access, (rotate cfg t user sid).atomically s =
      (.ok (.tokenPair access (s.nextRefresh cfg user sid)),
        ((s.spend cfg t).grant cfg user sid).sign access) := ⟨_, rfl⟩

/-! ## The other tokens -/

section Others

variable {t t' : Token} {user user' : User} {sid : Nat}

/-- What has passed the checks passes them as long as it decodes, its keys
are as they were and its user is. -/
theorem Server.Refreshable.congr (h : s.Refreshable t user) (hissued : ∀ t ∈ s.issued, t ∈ s'.issued)
    (hnow : s'.now = s.now) (husers : s'.users = s.users)
    (hblocked : s'.has (.refreshBlocked t.jti) = s.has (.refreshBlocked t.jti))
    (hactive : s'.has (.refreshActive t.sub t.jti) = s.has (.refreshActive t.sub t.jti))
    (hseen : ∀ n, t.sid = some n → s.has (.sessionSeen n) = true → s'.has (.sessionSeen n) = true) :
    s'.Refreshable t user where
  decodes := by
    have hdecodes := h.decodes
    simp only [Server.decodes, Bool.and_eq_true, List.contains_eq_mem, decide_eq_true_eq] at hdecodes ⊢
    exact ⟨hissued t hdecodes.1, hnow ▸ hdecodes.2⟩
  type := h.type
  sub := h.sub
  valid := by
    unfold Server.jtiValid
    rw [hblocked, hactive]
    exact h.valid
  session := by
    have hsession := h.session
    unfold Server.sessionActive at hsession ⊢
    cases hsid : t.sid with
    | none => rfl
    | some n =>
      rw [hsid] at hsession
      exact hseen n hsid hsession
  user := by
    have huser := h.user
    unfold Server.activeUser at huser ⊢
    rw [husers]
    exact huser

/-- Spending one token leaves the others alone. -/
theorem Server.Refreshable.spend (h : s.Refreshable t user) (hne : t.jti ≠ t'.jti) :
    (s.spend cfg t').Refreshable t user := by
  refine h.congr (fun _ ht => ht) rfl rfl ?_ ?_ fun n hn hhas => ?_
  · rw [Server.spend, has_setex_of_ne (by simp [hne]), has_delete_of_notMem (by simp)]
  · rw [Server.spend, has_setex_of_ne (by simp), has_delete_of_notMem (by simp [hne])]
  · rw [Server.spend, has_setex_of_ne (by simp), has_delete_of_notMem (by simp)]
    exact hhas

/-- Granting a token leaves the others alone. -/
theorem Server.Refreshable.grant (h : s.Refreshable t user) (hne : t.jti ≠ s.nextSecret) :
    (s.grant cfg user' sid).Refreshable t user := by
  refine h.congr (fun _ ht => List.mem_cons_of_mem _ ht) rfl rfl ?_ ?_ fun n hn hhas => ?_
  · rw [Server.grant, has_setex_of_ne (by simp), has_setex_of_ne (by simp)]
    rfl
  · rw [Server.grant, has_setex_of_ne (by simp), has_setex_of_ne (by simp [hne])]
    rfl
  · by_cases hsame : n = sid
    · rw [hsame]
      exact has_setex_self (by unfold idleTimeoutSeconds; omega)
    · rw [Server.grant, has_setex_of_ne (by simp [hsame]), has_setex_of_ne (by simp)]
      exact hhas

theorem Server.Refreshable.sign (h : s.Refreshable t user) (t' : Token) :
    (s.sign t').Refreshable t user :=
  h.congr (fun _ ht => List.mem_cons_of_mem _ ht) rfl rfl rfl rfl fun _ _ hhas => hhas

/-- The new token passes the checks. -/
theorem refreshable_grant (hcfg : 0 < cfg.jwtRefreshTtlDays)
    (hblocked : s.has (.refreshBlocked s.nextSecret) = false)
    (huser : s.activeUser user.id = some user) (hid : user.id ≠ 0) :
    (s.grant cfg user sid).Refreshable (s.nextRefresh cfg user sid) user where
  decodes := by
    have hlive : s.now < s.now + refreshTtlSeconds cfg := by
      unfold refreshTtlSeconds
      omega
    simp [Server.decodes, Server.grant, Server.setex, Server.sign, Server.nextRefresh,
      Server.newToken, hlive]
  type := rfl
  sub := hid
  valid := by
    have hactive : (s.grant cfg user sid).has (.refreshActive user.id s.nextSecret) = true := by
      rw [Server.grant, has_setex_of_ne (by simp)]
      exact has_setex_self (by unfold refreshTtlSeconds; omega)
    have hnot : (s.grant cfg user sid).has (.refreshBlocked s.nextSecret) = false := by
      rw [Server.grant, has_setex_of_ne (by simp), has_setex_of_ne (by simp)]
      exact hblocked
    simp [Server.jtiValid, Server.nextRefresh, Server.newToken, hactive, hnot]
  session := has_setex_self (by unfold idleTimeoutSeconds; omega)
  user := huser

end Others

/-! ## One refresh -/

section Refresh

variable {t : Token} {user : User}

theorem adoptSession_atomically (s : Server) (sid : Option Nat) :
    ∃ n s', (adoptSession sid).atomically s = (.ok n, s') ∧
      ((s' = s ∧ sid = some n) ∨ s' = { s with nextSecret := s.nextSecret + 1 }) := by
  cases sid with
  | some n => exact ⟨n, s, rfl, .inl ⟨rfl, rfl⟩⟩
  | none => exact ⟨s.nextSecret, _, rfl, .inr rfl⟩

/-- Two tokens that pass the checks share no `jti`. -/
theorem jti_ne (hs : s.Wf) {t t' : Token} {user user' : User} (h : s.Refreshable t user)
    (h' : s.Refreshable t' user') (hne : t' ≠ t) : t'.jti ≠ t.jti := by
  have hissued : ∀ {t : Token} {user : User}, s.Refreshable t user → t ∈ s.issued :=
    fun h => mem_of_decodes h.decodes
  exact fun heq => hne (hs.jti_inj t' (hissued h') t (hissued h) heq)

/-- A token that passes the checks is let through: it is answered with a new
one, which no one has seen before and which passes them in its place. -/
theorem refresh_accepted (hcfg : 0 < cfg.jwtRefreshTtlDays) (hs : s.Wf) (h : s.Refreshable t user) :
    ∃ access new s', (refreshWith cfg t).atomically s = (.ok (.tokenPair access new), s') ∧
      (∀ t' ∈ s.issued, t' ≠ new) ∧ s'.Refreshable new user ∧
      ∀ t' user', s.Refreshable t' user' → t' ≠ t → s'.Refreshable t' user' := by
  obtain ⟨sid, s₁, hadopt, hs₁⟩ := adoptSession_atomically s t.sid
  obtain ⟨access, hrotate⟩ := rotate_atomically cfg s₁ t user sid
  have hsecret : s.nextSecret ≤ s₁.nextSecret := (Handler.grows hadopt).secrets
  have hold : ∀ t' user', s.Refreshable t' user' → s₁.Refreshable t' user' := by
    rintro t' user' h'
    rcases hs₁ with ⟨rfl, -⟩ | rfl
    · exact h'
    · exact h'.congr (fun _ ht => ht) rfl rfl rfl rfl fun _ _ hhas => hhas
  have hwf : s₁.Wf := by
    rcases hs₁ with ⟨rfl, -⟩ | rfl
    · exact hs
    · exact ⟨fun t ht => Nat.lt_succ_of_lt (hs.jti_lt t ht),
        fun t ht n hn => Nat.lt_succ_of_lt (hs.sid_lt t ht n hn), hs.jti_inj,
        fun e he n hn => Nat.lt_succ_of_lt (hs.key_lt e he n hn)⟩
  have hlt : ∀ t' ∈ s.issued, t'.jti < s₁.nextSecret :=
    fun t' ht' => Nat.lt_of_lt_of_le (hs.jti_lt t' ht') hsecret
  have hissued : t ∈ s.issued := mem_of_decodes h.decodes
  have huser := activeUser_id (hold t user h).user
  refine ⟨access, s₁.nextRefresh cfg user sid, ((s₁.spend cfg t).grant cfg user sid).sign access, ?_,
    fun t' ht' heq => ?_, ?_, fun t' user' h' hne => ?_⟩
  · exact Handler.atomically_bind_eq_ok.mpr ⟨user, s, checkRefresh_eq_ok.mpr ⟨h, rfl⟩,
      Handler.atomically_bind_eq_ok.mpr ⟨sid, s₁, hadopt, hrotate⟩⟩
  · exact absurd (congrArg Token.jti heq) (Nat.ne_of_lt (hlt t' ht'))
  · have hblocked : (s₁.spend cfg t).has (.refreshBlocked s₁.nextSecret) = false := by
      have hne : s₁.nextSecret ≠ t.jti := Nat.ne_of_gt (hlt t hissued)
      rw [Server.spend, has_setex_of_ne (by simp [hne]), has_delete_of_notMem (by simp)]
      exact has_eq_false_of_fresh hwf rfl (Nat.le_refl _)
    have hactive : (s₁.spend cfg t).activeUser user.id = some user := by
      rw [huser]
      exact (hold t user h).user
    exact (refreshable_grant hcfg hblocked hactive (huser ▸ h.sub)).sign access
  · have hmem := mem_of_decodes h'.decodes
    have hspent : (s₁.spend cfg t).Refreshable t' user' := (hold t' user' h').spend (jti_ne hs h h' hne)
    exact (hspent.grant (Nat.ne_of_lt (hlt t' hmem))).sign access

/-- What a check that fails leaves behind: nothing, or the token is spent
because its session has gone quiet. -/
theorem checkRefresh_eq_error {e : Failure} (h : (checkRefresh cfg t).atomically s = (.error e, s')) :
    s' = s ∨ (s.decodes t = true ∧ s.sessionActive t.sid = false ∧ s' = s.spend cfg t) := by
  unfold checkRefresh at h
  have hvalid : (isRefreshJtiValid t.sub t.jti).Reads s :=
    congrArg Prod.snd (isRefreshJtiValid_atomically t.sub t.jti)
  have hactive : (isSessionActive t.sid).Reads s :=
    congrArg Prod.snd (isSessionActive_atomically t.sid)
  obtain rfl | ⟨_, hdecode, h⟩ := Handler.error_of_reads (decodeToken_reads t s) h
  · exact .inl rfl
  obtain rfl | ⟨_, -, h⟩ := Handler.error_of_reads (require_reads _ _ s) h
  · exact .inl rfl
  obtain rfl | ⟨_, -, h⟩ := Handler.error_of_reads (require_reads _ _ s) h
  · exact .inl rfl
  obtain rfl | ⟨_, -, h⟩ := Handler.error_of_reads hvalid h
  · exact .inl rfl
  obtain rfl | ⟨_, -, h⟩ := Handler.error_of_reads (require_reads _ _ s) h
  · exact .inl rfl
  obtain rfl | ⟨active, hsession, h⟩ := Handler.error_of_reads hactive h
  · exact .inl rfl
  rw [isSessionActive_atomically] at hsession
  cases hsession
  cases hopen : s.sessionActive t.sid with
  | true =>
    rw [hopen] at h
    left
    obtain rfl | ⟨row, -, h⟩ := Handler.error_of_reads (p := send (.selectUser t.sub)) rfl h
    · rfl
    · exact (congrArg Prod.snd h).symm.trans (requireActive_reads row _ s)
  | false =>
    rw [hopen] at h
    cases h
    exact .inr ⟨(decodeToken_eq_ok.mp hdecode).1, rfl, rfl⟩

/-- A token that does not pass the checks is refused, and no other token
suffers from it. -/
theorem refresh_refused (cfg : Settings) (hs : s.Wf) (h : ∀ user, ¬ s.Refreshable t user) :
    ∃ e s', (refreshWith cfg t).atomically s = (.error e, s') ∧
      ∀ t' user', s.Refreshable t' user' → s'.Refreshable t' user' := by
  rcases hcheck : (checkRefresh cfg t).atomically s with ⟨e | user, s'⟩
  · refine ⟨e, s', ?_, fun t' user' h' => ?_⟩
    · unfold refreshWith
      rw [Handler.atomically_bind, hcheck]
    · rcases checkRefresh_eq_error hcheck with rfl | ⟨hdecodes, hclosed, rfl⟩
      · exact h'
      · refine h'.spend fun heq => ?_
        have hsame := hs.jti_inj t' (mem_of_decodes h'.decodes) t (mem_of_decodes hdecodes) heq
        rw [hsame] at h'
        rw [h'.session] at hclosed
        cases hclosed
  · exact absurd (checkRefresh_eq_ok.mp hcheck).1 (h user)

end Refresh

end Royd.Auth
