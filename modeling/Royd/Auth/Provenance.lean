/-
Royd.Auth.Provenance — every token was earned.

A call signs a token only after the transcript of what it asked and was told
shows why it may: `login` has read the row of the email and the password
matches its hash, `login_second_factor` was shown a challenge that decodes
and has burnt a code that matches, `change_password` and `refresh` were shown
a token that decodes for the same user (`May`, `handle_records`). What decodes
was signed before, so over a run of any number of calls every token leads back
to a login with the password and, where the row it read asks for one, to a
code (`SignedIn`).
-/
import Royd.Auth.Footprints
import Royd.Auth.Interleaving
import Royd.Lib.Transcripts

namespace Royd.Auth

open ExpiringStore Programs Runs

variable {prims : Primitives} {cfg : Settings} {α β : Type}

/-! ## What a transcript shows -/

/-- What a call has asked, and was told. -/
abbrev Exchanged := Transcript Command Command.Reply

/-- The row of the email was read, and it is active and has this password. -/
structure PasswordShown (prims : Primitives) (email password : String) (q : Exchanged) (u : User) :
    Prop where
  row : ⟨.selectUsers fun v => v.email == some email, [u]⟩ ∈ q
  active : u.isActive = true
  protected' : falsy u.passwordHash = false
  verified : verifyPassword prims password (u.passwordHash.getD "") = true

/-- The row was read, it is active and asks for a code, and the code matched
at the time that was read and was burnt. -/
structure CodeShown (prims : Primitives) (code : String) (q : Exchanged) (u : User) : Prop where
  row : ⟨.selectUser u.id, some u⟩ ∈ q
  active : u.isActive = true
  enabled : u.totpEnabled = true
  burnt : ∃ now step, ⟨.clock, now⟩ ∈ q ∧
    matchingStep prims (u.totpSecret.getD "") code now = .ok (some step) ∧
    ⟨.setNx (.totpUsed u.id step) 120, true⟩ ∈ q

/-- The token decoded. -/
def Decoded (t : Token) (q : Exchanged) : Prop := ⟨.decode t, true⟩ ∈ q

theorem PasswordShown.mono {email password : String} {q q' : Exchanged} {u : User}
    (h : PasswordShown prims email password q u) (hsub : q ⊆ q') :
    PasswordShown prims email password q' u := { h with row := hsub h.row }

theorem CodeShown.mono {code : String} {q q' : Exchanged} {u : User}
    (h : CodeShown prims code q u) (hsub : q ⊆ q') : CodeShown prims code q' u := by
  obtain ⟨now, step, hclock, hmatch, hburnt⟩ := h.burnt
  exact { h with
    row := hsub h.row
    burnt := ⟨now, step, hsub hclock, hmatch, hsub hburnt⟩ }

/-! ## What a call may sign -/

/-- The call may sign access and refresh tokens of this user. -/
def Earns (prims : Primitives) (call : AuthCall) (q : Exchanged) (sub : Nat) : Prop :=
  match call with
  | .login email password _ =>
    ∃ u, PasswordShown prims email password q u ∧ u.id = sub ∧ u.totpEnabled = false
  | .loginSecondFactor mfaToken code _ =>
    Decoded mfaToken q ∧ mfaToken.type = .mfa ∧ mfaToken.sub = sub ∧
      ∃ u, CodeShown prims code q u ∧ u.id = sub
  | .changePassword token _ _ => ∃ t ∈ token, Decoded t q ∧ t.type = .access ∧ t.sub = sub
  | .refresh body cookie => ∃ t ∈ (cookie <|> body), Decoded t q ∧ t.type = .refresh ∧ t.sub = sub
  | _ => False

/-- The call may sign a challenge for this user. -/
def Challenges (prims : Primitives) (call : AuthCall) (q : Exchanged) (sub : Nat) : Prop :=
  match call with
  | .login email password _ =>
    ∃ u, PasswordShown prims email password q u ∧ u.id = sub ∧ u.totpEnabled = true
  | _ => False

/-- What a call may send, given what it was told before. -/
def May (prims : Primitives) (call : AuthCall) (q : Exchanged) : Command → Prop
  | .mint .mfa sub sid ttl => Challenges prims call q sub ∧ sid = none ∧ ttl = mfaTtlSeconds
  | .mint _ sub _ _ => Earns prims call q sub
  | _ => True

theorem Earns.mono {call : AuthCall} {q q' : Exchanged} {sub : Nat} (h : Earns prims call q sub)
    (hsub : q ⊆ q') : Earns prims call q' sub := by
  cases call with
  | login email password ip =>
    obtain ⟨u, hshown, hu⟩ := h
    exact ⟨u, hshown.mono hsub, hu⟩
  | loginSecondFactor mfaToken code ip =>
    obtain ⟨hdecoded, htype, hid, u, hshown, hu⟩ := h
    exact ⟨hsub hdecoded, htype, hid, u, hshown.mono hsub, hu⟩
  | changePassword token current new =>
    obtain ⟨t, ht, hdecoded, h⟩ := h
    exact ⟨t, ht, hsub hdecoded, h⟩
  | refresh body cookie =>
    obtain ⟨t, ht, hdecoded, h⟩ := h
    exact ⟨t, ht, hsub hdecoded, h⟩
  | _ => exact h

/-! ## The functions -/

/-- The function signs only what the call may sign, and what it returns is as
`out` says. -/
abbrev Shows (prims : Primitives) (call : AuthCall) (q : Exchanged) (p : Handler α)
    (out : Exchanged → α → Prop) : Prop :=
  Records (May prims call) Ledger.Possible q p out

variable {call : AuthCall} {q : Exchanged}

/-- The command signs nothing. -/
def Command.Unsigned (c : Command) : Prop := ∀ type sub sid ttl, c ≠ .mint type sub sid ttl

theorem may_of_unsigned {c : Command} (h : c.Unsigned) (q : Exchanged) : May prims call q c := by
  cases c with
  | mint type sub sid ttl => exact absurd rfl (h type sub sid ttl)
  | _ => trivial

/-- A function that signs nothing. -/
theorem shows_of_sends {p : Handler α} (hp : Sends Command.Unsigned p) :
    Shows prims call q p fun _ _ => True := by
  refine records_of_sends ?_
  induction p with
  | pure a => trivial
  | raise e => trivial
  | call c k ih => exact ⟨fun q => may_of_unsigned hp.1 q, fun r => ih r (hp.2 r)⟩

theorem shows_send {c : Command} {out : Exchanged → c.Reply → Prop} (hc : c.Unsigned)
    (h : ∀ r, Ledger.Possible c r → out (⟨c, r⟩ :: q) r) : Shows prims call q (send c) out :=
  records_issue (may_of_unsigned hc q) h

/-- A condition that holds from here on. -/
theorem shows_require {b : Bool} {e : Failure} :
    Shows prims call q (require b e) fun _ _ => b = true := by
  unfold require
  split
  · rename_i hb
    exact records_pure hb
  · exact records_raise e

theorem shows_decodeToken (t : Token) :
    Shows prims call q (decodeToken t) fun q' _ => Decoded t q' := by
  unfold decodeToken
  have hdecode : Shows prims call q (send (.decode t)) fun q' ok => ok = true → Decoded t q' :=
    shows_send nofun fun ok _ hok => by
      subst hok
      exact List.mem_cons_self
  refine hdecode.bind fun q' ok _ hok => shows_require.mono fun q'' _ hsub h => ?_
  exact hsub (hok h)

theorem shows_requireActive {row : Option User} {e : Failure} :
    Shows prims call q (requireActive row e) fun _ u => row = some u ∧ u.isActive = true := by
  unfold requireActive
  split
  · exact records_raise e
  · split
    · rename_i hactive
      exact records_pure ⟨rfl, hactive⟩
    · exact records_raise e

theorem shows_scalarOneOrNone {rows : List User} :
    Shows prims call q (scalarOneOrNone rows) fun _ row => ∀ u ∈ row, rows = [u] := by
  unfold scalarOneOrNone
  split
  · exact records_pure (by simp)
  · exact records_pure (by simp)
  · exact records_raise _

/-- A password that is accepted was shown. -/
theorem shows_authenticateLocal {email password : String} :
    Shows prims call q (authenticateLocal prims email password) fun q' result =>
      ∀ u, result = .ok u → PasswordShown prims email password q' u := by
  unfold authenticateLocal
  have hselect : Shows prims call q (send (.selectUsers fun u => u.email == some email))
      fun q' rows => ⟨.selectUsers fun u => u.email == some email, rows⟩ ∈ q' :=
    shows_send nofun fun rows _ => List.mem_cons_self
  refine hselect.bind fun q₁ rows _ hrows => ?_
  refine shows_scalarOneOrNone.bind fun q₂ row h₂ hrow => ?_
  split
  · exact records_pure (by simp)
  · rename_i user
    split_ifs with hhash hinactive hpassword
    · exact records_pure (by simp)
    · exact records_pure (by simp)
    · exact records_pure (by simp)
    · refine records_pure fun u hu => ?_
      cases hu
      refine ⟨?_, by simpa using hinactive, by simpa using hhash, by simpa using hpassword⟩
      rw [hrow user rfl] at hrows
      exact h₂ hrows

/-- A code that is accepted was burnt. -/
theorem shows_consumeTotp {user : User} {code : String} :
    Shows prims call q (consumeTotp prims user code) fun q' accepted => accepted = true →
      ∃ now step, ⟨.clock, now⟩ ∈ q' ∧
        matchingStep prims (user.totpSecret.getD "") code now = .ok (some step) ∧
        ⟨.setNx (.totpUsed user.id step) 120, true⟩ ∈ q' := by
  unfold consumeTotp
  split
  · exact records_pure (by simp)
  · have hclock : Shows prims call q (send .clock) fun q' now => ⟨.clock, now⟩ ∈ q' :=
      shows_send nofun fun now _ => List.mem_cons_self
    refine hclock.bind fun q₁ now _ hnow => ?_
    unfold burnStep
    split
    · exact records_raise _
    · exact records_pure (by simp)
    · rename_i step hstep
      refine shows_send nofun fun ok _ hok => ?_
      subst hok
      exact ⟨now, step, List.mem_cons_of_mem _ hnow, hstep, List.mem_cons_self⟩

/-- The tokens of a user for whom the call has earned them. -/
theorem shows_issueTokens {user : User} (h : Earns prims call q user.id) :
    Shows prims call q (issueTokens cfg user) fun _ _ => True := by
  unfold issueTokens
  have hfresh : Shows prims call q newSessionId fun _ _ => True :=
    shows_of_sends (sends_send nofun)
  refine hfresh.bind fun q₁ sid h₁ _ => ?_
  have haccess : Shows prims call q₁ (createAccessToken cfg user sid) fun _ _ => True :=
    records_issue (h.mono h₁) fun _ _ => trivial
  refine haccess.bind fun q₂ access h₂ _ => ?_
  have hrefresh : Shows prims call q₂ (createRefreshToken cfg user sid) fun _ _ => True :=
    records_issue (h.mono (List.Subset.trans h₁ h₂)) fun _ _ => trivial
  refine hrefresh.bind fun q₃ refresh _ _ => ?_
  exact shows_of_sends ((sends_send nofun).bind fun _ =>
    (sends_touchSession (fun _ _ _ => nofun) _).bind fun _ => sends_pure _)

theorem shows_completeLogin {user : User} (h : Earns prims call q user.id) :
    Shows prims call q (completeLogin cfg user) fun _ _ => True :=
  (shows_issueTokens h).bind fun _ _ _ _ => records_pure trivial

theorem shows_getCurrentUser {token : Option Token} :
    Shows prims call q (getCurrentUser cfg token) fun q' u =>
      ∃ t ∈ token, Decoded t q' ∧ t.type = .access ∧ t.sub = u.id := by
  unfold getCurrentUser
  split
  · exact records_raise _
  · rename_i t
    refine (shows_decodeToken t).bind fun q₁ _ _ hdecoded => ?_
    refine shows_require.bind fun q₂ _ h₂ htype => shows_require.bind fun q₃ _ h₃ _ => ?_
    have hactive : Shows prims call q₃ (isSessionActive t.sid) fun _ _ => True :=
      shows_of_sends (sends_isSessionActive (fun _ => nofun) t.sid)
    refine hactive.bind fun q₄ active h₄ _ => shows_require.bind fun q₅ _ h₅ _ => ?_
    have hselect : Shows prims call q₅ (send (.selectUser t.sub)) fun _ row =>
        ∀ u ∈ row, u.id = t.sub := shows_send nofun fun _ hrow => hrow
    refine hselect.bind fun q₆ row h₆ hrow => shows_requireActive.bind fun q₇ user h₇ huser => ?_
    have htouch : Shows prims call q₇ (touchSession cfg t.sid) fun _ _ => True :=
      shows_of_sends (sends_touchSession (fun _ _ _ => nofun) _)
    refine htouch.bind fun q₈ _ h₈ _ => records_pure ⟨t, rfl, ?_, by simpa using htype, ?_⟩
    · exact h₈ (h₇ (h₆ (h₅ (h₄ (h₃ (h₂ hdecoded))))))
    · exact (hrow user huser.1).symm

/-! ## The calls that sign -/

theorem shows_login (email password ip : String) :
    Shows prims (.login email password ip) q (login prims cfg email password ip) fun _ _ => True := by
  unfold login
  have hcheck : Shows prims (.login email password ip) q
      (checkBruteForce cfg (prims.lower email) ip) fun _ _ => True :=
    shows_of_sends (sends_checkBruteForce nofun fun _ => nofun)
  refine hcheck.bind fun q₁ _ _ _ => shows_authenticateLocal.bind fun q₂ result _ hresult => ?_
  unfold loginAs
  split
  · have hfailure : Shows prims (.login email password ip) q₂
        (recordLoginFailure cfg (prims.lower email) ip) fun _ _ => True :=
      shows_of_sends (sends_send nofun)
    exact hfailure.bind fun q₃ _ _ _ => records_raise _
  · rename_i user
    have hclear : Shows prims (.login email password ip) q₂
        (clearLoginFailures (prims.lower email) ip) fun _ _ => True :=
      shows_of_sends (sends_send nofun)
    refine hclear.bind fun q₃ _ h₃ _ => ?_
    have hshown : PasswordShown prims email password q₃ user := (hresult user rfl).mono h₃
    split
    · rename_i henabled
      have hmint : Shows prims (.login email password ip) q₃ (createMfaToken user) fun _ _ => True :=
        records_issue ⟨⟨user, hshown, rfl, henabled⟩, rfl, rfl⟩ fun _ _ => trivial
      exact hmint.bind fun q₄ _ _ _ => records_pure trivial
    · rename_i hplain
      exact shows_completeLogin ⟨user, hshown, rfl, by simpa using hplain⟩

theorem shows_loginSecondFactor (mfaToken : Token) (code ip : String) :
    Shows prims (.loginSecondFactor mfaToken code ip) q
      (loginSecondFactor prims cfg mfaToken code ip) fun _ _ => True := by
  unfold loginSecondFactor
  refine (shows_decodeToken mfaToken).bind fun q₁ _ _ hdecoded => ?_
  refine shows_require.bind fun q₂ _ h₂ htype => ?_
  have hselect : Shows prims (.loginSecondFactor mfaToken code ip) q₂
      (send (.selectUser mfaToken.sub)) fun q' row =>
        ∀ u ∈ row, u.id = mfaToken.sub ∧ ⟨.selectUser u.id, some u⟩ ∈ q' := by
    refine shows_send nofun fun row hrow u hu => ⟨hrow u hu, ?_⟩
    rw [hrow u hu, ← Option.mem_def.mp hu]
    exact List.mem_cons_self
  refine hselect.bind fun q₃ row h₃ hrow => shows_requireActive.bind fun q₄ user h₄ huser => ?_
  obtain ⟨hid, hread⟩ := hrow user huser.1
  refine shows_require.bind fun q₅ _ h₅ henabled => ?_
  have hcheck : Shows prims (.loginSecondFactor mfaToken code ip) q₅
      (checkBruteForce cfg s!"mfa:{user.id}" ip) fun _ _ => True :=
    shows_of_sends (sends_checkBruteForce nofun fun _ => nofun)
  refine hcheck.bind fun q₆ _ h₆ _ => shows_consumeTotp.bind fun q₇ accepted h₇ hburnt => ?_
  have hcode : Shows prims (.loginSecondFactor mfaToken code ip) q₇
      (requireCode cfg s!"mfa:{user.id}" ip accepted) fun _ _ => accepted = true := by
    unfold requireCode
    split
    · rename_i haccepted
      exact records_pure haccepted
    · have hfailure : Shows prims (.loginSecondFactor mfaToken code ip) q₇
          (recordLoginFailure cfg s!"mfa:{user.id}" ip) fun _ _ => True :=
        shows_of_sends (sends_send nofun)
      exact hfailure.bind fun q₈ _ _ _ => records_raise _
  refine hcode.bind fun q₈ _ h₈ haccepted => ?_
  have hclear : Shows prims (.loginSecondFactor mfaToken code ip) q₈
      (clearLoginFailures s!"mfa:{user.id}" ip) fun _ _ => True :=
    shows_of_sends (sends_send nofun)
  refine hclear.bind fun q₉ _ h₉ _ => shows_completeLogin ?_
  have hlater : q₃ ⊆ q₇ := fun e he => h₇ (h₆ (h₅ (h₄ he)))
  have hshown : CodeShown prims code q₇ user :=
    ⟨hlater hread, huser.2, henabled, hburnt haccepted⟩
  refine ⟨h₉ (h₈ (hlater (h₃ (h₂ hdecoded)))), by simpa using htype, hid.symm, user, ?_, rfl⟩
  exact hshown.mono fun e he => h₉ (h₈ he)

theorem shows_changePassword (token : Option Token) (current new : String) :
    Shows prims (.changePassword token current new) q (changePassword prims cfg token current new)
      fun _ _ => True := by
  unfold changePassword
  refine shows_getCurrentUser.bind fun q₁ user _ huser => ?_
  refine shows_require.bind fun q₂ _ h₂ _ => shows_require.bind fun q₃ _ h₃ _ => ?_
  refine shows_require.bind fun q₄ _ h₄ _ => ?_
  have hreplace : Shows prims (.changePassword token current new) q₄
      (replacePassword prims user new) fun _ _ => True := by
    refine shows_of_sends ((sends_hashPassword nofun new).bind fun hash => ?_)
    exact (sends_commitUser nofun).bind fun _ =>
      (sends_revokeAllRefreshTokens nofun fun _ => nofun).bind fun _ => sends_pure _
  refine hreplace.bind fun q₅ _ h₅ _ => shows_completeLogin ?_
  obtain ⟨t, ht, hdecoded, htype, hsub⟩ := huser
  exact ⟨t, ht, h₅ (h₄ (h₃ (h₂ hdecoded))), htype, hsub⟩

/-- A rotation is for the user of the token. -/
theorem shows_checkRefresh (t : Token) :
    Shows prims call q (checkRefresh cfg t) fun q' u =>
      Decoded t q' ∧ t.type = .refresh ∧ t.sub = u.id := by
  unfold checkRefresh
  refine (shows_decodeToken t).bind fun q₁ _ _ hdecoded => ?_
  refine shows_require.bind fun q₂ _ h₂ htype => shows_require.bind fun q₃ _ h₃ _ => ?_
  have hvalid : Shows prims call q₃ (isRefreshJtiValid t.sub t.jti) fun _ _ => True :=
    shows_of_sends (sends_isRefreshJtiValid nofun nofun)
  refine hvalid.bind fun q₄ valid h₄ _ => shows_require.bind fun q₅ _ h₅ _ => ?_
  have hactive : Shows prims call q₅ (isSessionActive t.sid) fun _ _ => True :=
    shows_of_sends (sends_isSessionActive (fun _ => nofun) t.sid)
  refine hactive.bind fun q₆ active h₆ _ => ?_
  have hsession : Shows prims call q₆ (requireSession cfg t active) fun _ _ => True := by
    refine shows_of_sends ?_
    unfold requireSession
    split
    · exact sends_pure _
    · exact (sends_revokeRefreshJti nofun fun _ _ => nofun).bind fun _ => sends_raise _
  refine hsession.bind fun q₇ _ h₇ _ => ?_
  have hselect : Shows prims call q₇ (send (.selectUser t.sub)) fun _ row =>
      ∀ u ∈ row, u.id = t.sub := shows_send nofun fun _ hrow => hrow
  refine hselect.bind fun q₈ row h₈ hrow => shows_requireActive.mono fun q₉ user h₉ huser => ?_
  refine ⟨?_, by simpa using htype, (hrow user huser.1).symm⟩
  exact h₉ (h₈ (h₇ (h₆ (h₅ (h₄ (h₃ (h₂ hdecoded)))))))

theorem shows_refresh (body cookie : Option Token) :
    Shows prims (.refresh body cookie) q (refresh cfg body cookie) fun _ _ => True := by
  unfold refresh
  split
  · exact records_raise _
  · rename_i t ht
    unfold refreshWith
    refine (shows_checkRefresh t).bind fun q₁ user _ hchecked => ?_
    have hadopt : Shows prims (.refresh body cookie) q₁ (adoptSession t.sid) fun _ _ => True := by
      refine shows_of_sends ?_
      unfold adoptSession
      split
      · exact sends_pure _
      · exact sends_send nofun
    refine hadopt.bind fun q₂ sid h₂ _ => ?_
    unfold rotate
    have hrevoke : Shows prims (.refresh body cookie) q₂ (revokeRefreshJti cfg t.sub t.jti)
        fun _ _ => True :=
      shows_of_sends (sends_revokeRefreshJti nofun fun _ _ => nofun)
    refine hrevoke.bind fun q₃ _ h₃ _ => ?_
    have hearned : Earns prims (.refresh body cookie) q₃ user.id :=
      ⟨t, ht, h₃ (h₂ hchecked.1), hchecked.2.1, hchecked.2.2⟩
    have hmint : Shows prims (.refresh body cookie) q₃ (createRefreshToken cfg user sid)
        fun _ _ => True := records_issue hearned fun _ _ => trivial
    refine hmint.bind fun q₄ newRefresh h₄ _ => ?_
    have hregister : Shows prims (.refresh body cookie) q₄
        (registerRefreshJti cfg user.id newRefresh.jti) fun _ _ => True :=
      shows_of_sends (sends_send nofun)
    refine hregister.bind fun q₅ _ h₅ _ => ?_
    have htouch : Shows prims (.refresh body cookie) q₅ (touchSession cfg (some sid))
        fun _ _ => True := shows_of_sends (sends_touchSession (fun _ _ _ => nofun) _)
    refine htouch.bind fun q₆ _ h₆ _ => ?_
    have haccess : Shows prims (.refresh body cookie) q₆ (createAccessToken cfg user sid)
        fun _ _ => True :=
      records_issue (hearned.mono fun e he => h₆ (h₅ (h₄ he))) fun _ _ => trivial
    exact haccess.bind fun q₇ _ _ _ => records_pure trivial

/-! ## The calls that sign nothing -/

theorem unsigned_getCurrentUser (token : Option Token) :
    Sends Command.Unsigned (getCurrentUser cfg token) :=
  sends_getCurrentUser (fun _ => nofun) (fun _ => nofun) (fun _ => nofun) (fun _ _ _ => nofun) token

theorem unsigned_requireRoles (roles : List Role) (token : Option Token) :
    Sends Command.Unsigned (requireRoles cfg roles token) :=
  (unsigned_getCurrentUser token).bind fun _ => (sends_require _ _).bind fun _ => sends_pure _

theorem unsigned_logout (body cookie : Option Token) :
    Sends Command.Unsigned (logout cfg body cookie) := by
  unfold logout
  split
  · exact sends_pure _
  · rename_i t _
    refine (sends_send nofun).bind fun ok => ?_
    split
    · unfold logoutWith revokeOwn
      refine Sends.bind ?_ fun _ => (sends_endSession (fun _ => nofun) _).bind fun _ => sends_pure _
      split
      · exact sends_revokeRefreshJti nofun fun _ _ => nofun
      · exact sends_pure _
    · exact sends_pure _

theorem unsigned_replacePassword (user : User) (new : String) :
    Sends Command.Unsigned (replacePassword prims user new) :=
  (sends_hashPassword nofun new).bind fun _ => (sends_commitUser nofun).bind fun _ =>
    (sends_revokeAllRefreshTokens nofun fun _ => nofun).bind fun _ => sends_pure _

theorem unsigned_forgotPassword (email ip : String) :
    Sends Command.Unsigned (forgotPassword prims cfg email ip) := by
  unfold forgotPassword
  refine (sends_checkBruteForce nofun fun _ => nofun).bind fun _ => ?_
  refine (sends_send nofun).bind fun _ => (sends_send nofun).bind fun rows => ?_
  refine (sends_scalarOneOrNone rows).bind fun row => ?_
  split
  · exact sends_pure _
  · split
    · exact sends_pure _
    · exact (sends_send nofun).bind fun _ => (sends_send nofun).bind fun _ =>
        (sends_send nofun).bind fun _ => sends_pure _

theorem unsigned_resetPassword (link : Nat) (new : String) :
    Sends Command.Unsigned (resetPassword prims link new) :=
  (sends_send nofun).bind fun _ => (sends_requireLink _).bind fun _ => (sends_send nofun).bind fun _ =>
    (sends_send nofun).bind fun _ => (sends_requireActive _ _).bind fun user =>
      (unsigned_replacePassword user new).bind fun _ => sends_pure _

theorem unsigned_totpSetup (token : Option Token) :
    Sends Command.Unsigned (totpSetup prims cfg token) :=
  (unsigned_getCurrentUser token).bind fun _ => (sends_require _ _).bind fun _ =>
    (sends_require _ _).bind fun _ => (sends_send nofun).bind fun _ =>
      (sends_commitUser nofun).bind fun _ => sends_pure _

theorem unsigned_totpEnable (token : Option Token) (code : String) :
    Sends Command.Unsigned (totpEnable prims cfg token code) :=
  (unsigned_getCurrentUser token).bind fun _ => (sends_require _ _).bind fun _ =>
    (sends_consumeTotp nofun (fun _ => nofun) code).bind fun _ => (sends_require _ _).bind fun _ =>
      (sends_commitUser nofun).bind fun _ => sends_pure _

theorem unsigned_totpDisable (token : Option Token) (password code : String) :
    Sends Command.Unsigned (totpDisable prims cfg token password code) :=
  (unsigned_getCurrentUser token).bind fun _ => (sends_require _ _).bind fun _ =>
    (sends_require _ _).bind fun _ => (sends_consumeTotp nofun (fun _ => nofun) code).bind fun _ =>
      (sends_require _ _).bind fun _ => (sends_commitUser nofun).bind fun _ => sends_pure _

theorem unsigned_updateUser (token : Option Token) (userId : Nat) (data : UserUpdate) :
    Sends Command.Unsigned (updateUser prims cfg token userId data) := by
  refine (unsigned_requireRoles _ token).bind fun _ => (sends_send nofun).bind fun row => ?_
  refine (sends_requireUser row).bind fun user => (sends_hashIfSent nofun _).bind fun hash => ?_
  refine (sends_requireRole user _).bind fun role => (sends_require _ _).bind fun _ => ?_
  refine (sends_require _ _).bind fun _ => (sends_require _ _).bind fun _ => ?_
  refine (sends_flushUser (fun _ => nofun) _ _).bind fun _ => (sends_require _ _).bind fun _ => ?_
  exact (sends_commitUser nofun).bind fun _ =>
    (sends_endSessionsIf nofun (fun _ => nofun) _).bind fun _ => sends_pure _

theorem unsigned_deleteUser (token : Option Token) (userId : Nat) :
    Sends Command.Unsigned (deleteUser cfg token userId) := by
  refine (unsigned_requireRoles _ token).bind fun _ => (sends_require _ _).bind fun _ => ?_
  refine (sends_send nofun).bind fun row => (sends_requireUser row).bind fun user => ?_
  refine (sends_flushUser (fun _ => nofun) _ _).bind fun _ => (sends_require _ _).bind fun _ => ?_
  exact (sends_commitUser nofun).bind fun _ => sends_pure _

theorem unsigned_socket (token : Option Token) : Sends Command.Unsigned (socket token) := by
  unfold socket
  split
  · exact sends_pure _
  · refine (sends_send nofun).bind fun ok => ?_
    split
    · unfold authenticateSocket
      split
      · exact (sends_isSessionActive (fun _ => nofun) _).bind fun _ => sends_pure _
      · exact sends_pure _
    · exact sends_pure _

/-- Every call signs only what it has earned. -/
theorem handle_records (prims : Primitives) (cfg : Settings) (call : AuthCall) :
    Shows prims call [] (handle prims cfg call) fun _ _ => True := by
  cases call with
  | login email password ip => exact shows_login email password ip
  | loginSecondFactor mfaToken code ip => exact shows_loginSecondFactor mfaToken code ip
  | refresh body cookie => exact shows_refresh body cookie
  | changePassword token current new => exact shows_changePassword token current new
  | logout body cookie => exact shows_of_sends (unsigned_logout body cookie)
  | authenticated token =>
    exact shows_of_sends ((unsigned_getCurrentUser token).bind fun _ => sends_pure _)
  | forgotPassword email ip => exact shows_of_sends (unsigned_forgotPassword email ip)
  | resetPassword link new => exact shows_of_sends (unsigned_resetPassword link new)
  | totpSetup token => exact shows_of_sends (unsigned_totpSetup token)
  | totpEnable token code => exact shows_of_sends (unsigned_totpEnable token code)
  | totpDisable token password code => exact shows_of_sends (unsigned_totpDisable token password code)
  | updateUser token userId data => exact shows_of_sends (unsigned_updateUser token userId data)
  | deleteUser token userId => exact shows_of_sends (unsigned_deleteUser token userId)
  | socket token => exact shows_of_sends (unsigned_socket token)

/-! ## The calls of a run -/

/-- The login that began it: it was shown the password of the user's row. -/
structure Began (prims : Primitives) (th : Running) (u : User) : Prop where
  shown : ∃ email password ip, th.req = .login email password ip ∧
    PasswordShown prims email password th.trace u

/-- The second call of a login: it was shown the challenge `m` and a code. -/
structure Completed (prims : Primitives) (th : Running) (m : Token) (u : User) : Prop where
  shown : ∃ code ip, th.req = .loginSecondFactor m code ip ∧ Decoded m th.trace ∧
    CodeShown prims code th.trace u

/-- The challenge was signed by this call. -/
def Signed (th : Running) (m : Token) : Prop := ⟨.mint .mfa m.sub none mfaTtlSeconds, m⟩ ∈ th.trace

/-- Somebody has shown the user's password, and a code too if the row that was
read asks for one. -/
def SignedIn (prims : Primitives) (calls : List Running) (sub : Nat) : Prop :=
  ∃ first ∈ calls, ∃ u, Began prims first u ∧ u.id = sub ∧ (u.totpEnabled = true →
    ∃ m, Signed first m ∧ ∃ second ∈ calls, ∃ u', Completed prims second m u' ∧ u'.id = sub)

/-- A challenge is the answer to somebody who has shown the password. -/
def Challenged (prims : Primitives) (calls : List Running) (m : Token) : Prop :=
  ∃ first ∈ calls, ∃ u, Began prims first u ∧ u.id = m.sub ∧ u.totpEnabled = true ∧ Signed first m

/-- Every call is still there, and has gone on. -/
def GoneOn (calls calls' : List Running) : Prop :=
  ∀ th ∈ calls, ∃ th' ∈ calls', th'.req = th.req ∧ th.trace ⊆ th'.trace

section GoneOn

variable {calls calls' : List Running} {th th' : Running} {m : Token} {u : User} {sub : Nat}

theorem Began.mono (h : Began prims th u) (hreq : th'.req = th.req) (hsub : th.trace ⊆ th'.trace) :
    Began prims th' u := by
  obtain ⟨email, password, ip, hcall, hshown⟩ := h.shown
  exact ⟨email, password, ip, hreq.trans hcall, hshown.mono hsub⟩

theorem Completed.mono (h : Completed prims th m u) (hreq : th'.req = th.req)
    (hsub : th.trace ⊆ th'.trace) : Completed prims th' m u := by
  obtain ⟨code, ip, hcall, hdecoded, hshown⟩ := h.shown
  exact ⟨code, ip, hreq.trans hcall, hsub hdecoded, hshown.mono hsub⟩

theorem SignedIn.mono (h : SignedIn prims calls sub) (hgone : GoneOn calls calls') :
    SignedIn prims calls' sub := by
  obtain ⟨first, hfirst, u, hbegan, hid, hcode⟩ := h
  obtain ⟨first', hfirst', hreq, hsub⟩ := hgone first hfirst
  refine ⟨first', hfirst', u, hbegan.mono hreq hsub, hid, fun henabled => ?_⟩
  obtain ⟨m, hsigned, second, hsecond, u', hcompleted, hid'⟩ := hcode henabled
  obtain ⟨second', hsecond', hreq', hsub'⟩ := hgone second hsecond
  exact ⟨m, hsub hsigned, second', hsecond', u', hcompleted.mono hreq' hsub', hid'⟩

theorem Challenged.mono (h : Challenged prims calls m) (hgone : GoneOn calls calls') :
    Challenged prims calls' m := by
  obtain ⟨first, hfirst, u, hbegan, hid, henabled, hsigned⟩ := h
  obtain ⟨first', hfirst', hreq, hsub⟩ := hgone first hfirst
  exact ⟨first', hfirst', u, hbegan.mono hreq hsub, hid, henabled, hsub hsigned⟩

/-- A call keeps its place, and its transcript. -/
theorem goneOn_exchange (w : World) (msg : Message) :
    GoneOn w.calls (exchange prims cfg w msg).calls := by
  intro th hth
  obtain ⟨j, hj, rfl⟩ := List.getElem_of_mem hth
  have hget : w.calls[j]? = some w.calls[j] := List.getElem?_eq_getElem hj
  cases msg with
  | start call => exact ⟨_, List.mem_append_left _ hth, rfl, fun _ he => he⟩
  | step i =>
    rcases exchange_step prims cfg w i with heq | ⟨th₀, c, k, hth₀, -, heq⟩
    · rw [heq]
      exact ⟨_, hth, rfl, fun _ he => he⟩
    · rw [heq]
      by_cases hij : i = j
      · subst hij
        cases hth₀.symm.trans hget
        refine ⟨w.calls[i].sent w.server c k, ?_, rfl, fun _ he => List.mem_cons_of_mem _ he⟩
        exact List.mem_of_getElem? (i := i) (by simp [World.after, List.getElem?_set_self hj])
      · refine ⟨w.calls[j], ?_, rfl, fun _ he => he⟩
        exact List.mem_of_getElem? (i := j) (by
          simp only [World.after, List.getElem?_set_ne hij, hget])
  | drop i =>
    by_cases hij : i = j
    · refine ⟨w.calls[j].abort, ?_, rfl, fun _ he => he⟩
      exact List.mem_of_getElem? (i := j) (by simp [exchange, hij, hget])
    · refine ⟨w.calls[j], ?_, rfl, fun _ he => he⟩
      exact List.mem_of_getElem? (i := j) (by simp [exchange, hij, hget])
  | wait seconds => exact ⟨_, hth, rfl, fun _ he => he⟩
  | writeUsers users => exact ⟨_, hth, rfl, fun _ he => he⟩

end GoneOn

/-! ## The system -/

/-- The token is somebody's who has signed in, or a challenge to somebody who
has shown the password. -/
def Backed (prims : Primitives) (calls : List Running) (t : Token) : Prop :=
  if t.type = .mfa then Challenged prims calls t else SignedIn prims calls t.sub

theorem Backed.mono {calls calls' : List Running} {t : Token} (h : Backed prims calls t)
    (hgone : GoneOn calls calls') : Backed prims calls' t := by
  unfold Backed at h ⊢
  split
  · rename_i hmfa
    rw [if_pos hmfa] at h
    exact Challenged.mono h hgone
  · rename_i hother
    rw [if_neg hother] at h
    exact SignedIn.mono h hgone

/-- Every call keeps to what it may sign, what decoded for a call was signed,
and what was signed is backed. -/
structure World.Earned (prims : Primitives) (w : World) : Prop where
  obeys : ∀ th ∈ w.calls,
    Thread.Obeys (m := recorder (May prims th.req) Ledger.Possible) (fun _ _ => True) [] th
  decoded : ∀ th ∈ w.calls, ∀ t, Decoded t th.trace → t ∈ w.server.issued
  backed : ∀ t ∈ w.server.issued, Backed prims w.calls t

namespace World.Earned

variable {w : World} {i : Nat} {th : Running} {c : Command} {k : c.Reply → Handler Answer}

/-- What a call may send next. -/
theorem may (h : w.Earned prims) (hth : th ∈ w.calls) (hprog : th.prog = .call c k) :
    May prims th.req th.trace c := by
  have hallows := (Thread.Obeys.call (h.obeys th hth) hprog).1
  rwa [after_recorder] at hallows

/-- A token a call signs now is backed by what the call was shown. -/
theorem signs {type : TokenType} {sub : Nat} {sid : Option Nat} {ttl : Int}
    {k : Token → Handler Answer} (h : w.Earned prims) (hth : w.calls[i]? = some th)
    (hprog : th.prog = .call (.mint type sub sid ttl) k)
    (hgone : GoneOn w.calls (w.after i th (.mint type sub sid ttl) k).calls) :
    Backed prims (w.after i th (.mint type sub sid ttl) k).calls
      (w.server.newToken type sub sid ttl) := by
  have hmem := List.mem_of_getElem? hth
  have hmay := h.may hmem hprog
  have hsent : th.sent w.server (.mint type sub sid ttl) k ∈
      (w.after i th (.mint type sub sid ttl) k).calls :=
    List.mem_set (List.getElem?_eq_some_iff.mp hth).1 _
  have hgrown : th.trace ⊆ (th.sent w.server (.mint type sub sid ttl) k).trace :=
    fun _ he => List.mem_cons_of_mem _ he
  have hearned : type ≠ .mfa → Earns prims th.req th.trace sub →
      SignedIn prims (w.after i th (.mint type sub sid ttl) k).calls sub := by
    intro _ hearns
    unfold Earns at hearns
    split at hearns
    · rename_i email password ip hcall
      obtain ⟨u, hshown, hid, hplain⟩ := hearns
      refine ⟨_, hsent, u, ⟨email, password, ip, hcall, hshown.mono hgrown⟩, hid, fun henabled => ?_⟩
      rw [hplain] at henabled
      cases henabled
    · rename_i mfaToken code ip hcall
      obtain ⟨hdecoded, htype, hsub, u, hshown, hid⟩ := hearns
      have hbacked := (h.backed mfaToken (h.decoded th hmem mfaToken hdecoded)).mono hgone
      unfold Backed at hbacked
      rw [if_pos htype] at hbacked
      obtain ⟨first, hfirst, u', hbegan, hid', -, hsigned⟩ := hbacked
      refine ⟨first, hfirst, u', hbegan, hid'.trans hsub, fun _ => ⟨mfaToken, hsigned, _, hsent, u, ?_, hid⟩⟩
      exact ⟨code, ip, hcall, hgrown hdecoded, hshown.mono hgrown⟩
    · rename_i token current new hcall
      obtain ⟨t, -, hdecoded, htype, hsub⟩ := hearns
      have hbacked := (h.backed t (h.decoded th hmem t hdecoded)).mono hgone
      unfold Backed at hbacked
      rw [if_neg (by rw [htype]; decide), hsub] at hbacked
      exact hbacked
    · rename_i body cookie hcall
      obtain ⟨t, -, hdecoded, htype, hsub⟩ := hearns
      have hbacked := (h.backed t (h.decoded th hmem t hdecoded)).mono hgone
      unfold Backed at hbacked
      rw [if_neg (by rw [htype]; decide), hsub] at hbacked
      exact hbacked
    · exact hearns.elim
  unfold Backed
  cases type with
  | access =>
    rw [if_neg (by simp [Server.newToken])]
    exact hearned nofun hmay
  | refresh =>
    rw [if_neg (by simp [Server.newToken])]
    exact hearned nofun hmay
  | mfa =>
    rw [if_pos (by simp [Server.newToken])]
    obtain ⟨hchallenges, rfl, rfl⟩ := hmay
    unfold Challenges at hchallenges
    split at hchallenges
    · rename_i email password ip hcall
      obtain ⟨u, hshown, hid, henabled⟩ := hchallenges
      exact ⟨_, hsent, u, ⟨email, password, ip, hcall, hshown.mono hgrown⟩, hid, henabled,
        List.mem_cons_self⟩
    · exact hchallenges.elim

theorem after (h : w.Earned prims) (hth : w.calls[i]? = some th) (hprog : th.prog = .call c k)
    (hgone : GoneOn w.calls (w.after i th c k).calls) : (w.after i th c k).Earned prims where
  obeys th' hth' := by
    rcases List.mem_or_eq_of_mem_set hth' with hold | rfl
    · exact h.obeys th' hold
    · exact (Thread.Obeys.call (h.obeys th (List.mem_of_getElem? hth)) hprog).2 _
        (possible_exec c w.server)
  decoded th' hth' t ht := by
    have hgrows := (grows_exec c w.server).tokens t
    rcases List.mem_or_eq_of_mem_set hth' with hold | rfl
    · exact hgrows (h.decoded th' hold t ht)
    · rcases List.mem_cons.mp ht with heq | hold
      · have hc : c = .decode t := (congrArg Sigma.fst heq).symm
        subst hc
        have hok : true = w.server.decodes t := eq_of_heq (Sigma.mk.inj heq).2
        exact hgrows (mem_of_decodes hok.symm)
      · exact hgrows (h.decoded th (List.mem_of_getElem? hth) t hold)
  backed t ht := by
    rcases mem_issued_exec ht with hold | ⟨type, sub, sid, ttl, rfl, rfl⟩
    · exact (h.backed t hold).mono hgone
    · exact h.signs hth hprog hgone

theorem exchange (h : w.Earned prims) (msg : Message) : (exchange prims cfg w msg).Earned prims := by
  have hgone : GoneOn w.calls (Auth.exchange prims cfg w msg).calls := goneOn_exchange w msg
  cases msg with
  | start call =>
    refine ⟨fun th hth => ?_, fun th hth t ht => ?_, fun t ht => (h.backed t ht).mono hgone⟩
    · rcases List.mem_append.mp hth with hth | hth
      · exact h.obeys th hth
      · rw [List.mem_singleton.mp hth]
        exact Thread.obeys_start (handle_records prims cfg call).obeys
    · rcases List.mem_append.mp hth with hth | hth
      · exact h.decoded th hth t ht
      · rw [List.mem_singleton.mp hth] at ht
        cases ht
  | step i =>
    rcases exchange_step prims cfg w i with heq | ⟨th, c, k, hth, hprog, heq⟩
    · rw [heq]
      exact h
    · rw [heq] at hgone ⊢
      exact h.after hth hprog hgone
  | drop i =>
    have hcalls : ∀ th' ∈ (w.calls.modify i Running.abort), th' ∈ w.calls ∨
        ∃ th ∈ w.calls, th' = th.abort := by
      intro th' hth'
      obtain ⟨j, hj⟩ := List.mem_iff_getElem?.mp hth'
      have hafter : (Auth.exchange prims cfg w (.drop i)).calls[j]? = some th' := hj
      rcases call_drop hafter with hold | ⟨th, hold, rfl⟩
      · exact .inl (List.mem_of_getElem? hold)
      · exact .inr ⟨th, List.mem_of_getElem? hold, rfl⟩
    refine ⟨fun th' hth' => ?_, fun th' hth' t ht => ?_, fun t ht => (h.backed t ht).mono hgone⟩
    · rcases hcalls th' hth' with hold | ⟨th, hold, rfl⟩
      · exact h.obeys th' hold
      · trivial
    · rcases hcalls th' hth' with hold | ⟨th, hold, rfl⟩
      · exact h.decoded th' hold t ht
      · exact h.decoded th hold t ht
  | wait seconds => exact ⟨h.obeys, h.decoded, h.backed⟩
  | writeUsers users => exact ⟨h.obeys, h.decoded, h.backed⟩

end World.Earned

/-- Every token was earned. However calls of every kind interleave, and
whatever becomes of the users table meanwhile, from a server that has signed
nothing on: the user of every access and every refresh token has signed in,
by a login that was shown the password of the row it read and, if that row
asks for a code, by the call that was shown the challenge this login had
signed and has burnt a code that matched; and every challenge was signed for
somebody who had shown the password. -/
theorem tokens_are_earned (prims : Primitives) (cfg : Settings) (s : Server) (hs : s.issued = [])
    (msgs : List Message) :
    let w := run (exchange prims cfg) { server := s } msgs
    ∀ t ∈ w.server.issued,
      (t.type = .mfa → Challenged prims w.calls t) ∧
        (t.type ≠ .mfa → SignedIn prims w.calls t.sub) := by
  intro w t ht
  have hstart : World.Earned prims { server := s } :=
    ⟨by simp, by simp, fun t ht => by rw [hs] at ht; cases ht⟩
  have hend : World.Earned prims w := run_invariant (fun _ msg h => h.exchange msg) hstart msgs
  have hbacked := hend.backed t ht
  unfold Backed at hbacked
  refine ⟨fun hmfa => ?_, fun hother => ?_⟩
  · rwa [if_pos hmfa] at hbacked
  · rwa [if_neg hother] at hbacked

/-! ### A login with a code -/

/-- The registrator has a second factor, and is nowhere signed in. -/
def strictDesk : Server :=
  { frontDesk with
    users :=
      [{ id := 1, fullName := "Registrator", email := some "desk@royd", passwordHash := some "parol",
         role := .registrator, totpSecret := some "SECRET", totpEnabled := true }] }

/-- The challenge of the first login. -/
def deskChallenge : Token := { type := .mfa, sub := 1, jti := 0, sid := none, iat := 0, exp := 300 }

/-- The registrator signs in while somebody tries a guess. -/
def deskSignIn : List Message :=
  [.start deskLogin, .start (.login "desk@royd" "xato" "10.0.0.2"), .step 1] ++ goes 0 4 ++
    [.step 1, .start (.loginSecondFactor deskChallenge "000000" "10.0.0.1")] ++ goes 2 12

theorem tokens_are_earned_desk :
    let w := run (exchange plainPrimitives {}) { server := strictDesk } deskSignIn
    w.server.issued.map (·.type) = [.refresh, .access, .mfa] ∧
      Challenged plainPrimitives w.calls deskChallenge ∧ SignedIn plainPrimitives w.calls 1 := by
  intro w
  have hissued : w.server.issued =
      [{ type := .refresh, sub := 1, jti := 3, sid := some 1, iat := 0, exp := 604800 },
       { type := .access, sub := 1, jti := 2, sid := some 1, iat := 0, exp := 900 }, deskChallenge] := by
    decide +kernel
  have hearned := tokens_are_earned plainPrimitives {} strictDesk rfl deskSignIn
  refine ⟨by rw [hissued]; rfl, ?_, ?_⟩
  · exact (hearned deskChallenge (by rw [hissued]; simp)).1 rfl
  · exact (hearned { type := .access, sub := 1, jti := 2, sid := some 1, iat := 0, exp := 900 }
      (by rw [hissued]; simp)).2 nofun

end Royd.Auth
