/-
Royd.Auth.Discipline — every handler keeps the discipline.

One lemma for each function of the source, which says from what ledger the
call goes on after it. A function that leaves the ledger as it is is `Quiet`.
-/
import Royd.Auth.Footprints
import Royd.Auth.Ledger

namespace Royd.Auth

open Programs

variable {prims : Primitives} {cfg : Settings} {own : Option Token} {q : Ledger} {α : Type}

@[simp] theorem discipline_allows :
    (discipline cfg own).allows = Ledger.Allows cfg own := rfl

@[simp] theorem discipline_possible : (discipline cfg own).possible = Ledger.Possible := rfl

@[simp] theorem discipline_next : (discipline cfg own).next = Ledger.note own := rfl

attribute [local simp] send Prog.issue Ledger.Allows Ledger.Possible Ledger.note

/-- The deletion of keys that are about no session and not the call's own
token adds nothing to its ledger. -/
theorem deleted_eq_self {ks : List Key} (hsession : ∀ k ∈ ks, k.session? = none)
    (hown : ∀ t ∈ own, t.activeKey ∉ ks) : q.deleted own ks = q := by
  have hended : ks.filterMap Key.session? = [] := List.filterMap_eq_nil_iff.mpr hsession
  have hphase : Ledger.phaseAfterDelete own ks q.phase = q.phase := by
    unfold Ledger.phaseAfterDelete
    cases own with
    | none => simp
    | some t => simp [hown t rfl]
  unfold Ledger.deleted
  rw [hended, hphase]
  rfl

/-! ## Functions that leave the ledger as it is -/

/-- Whatever the function returns, the call goes on from the same ledger. -/
def Quiet (cfg : Settings) (own : Option Token) (p : Handler α) : Prop :=
  ∀ (q : Ledger) (post : Ledger → α → Prop), (∀ a, post q a) → Obeys (discipline cfg own) post q p

theorem Quiet.bind {β : Type} {p : Handler α} {f : α → Handler β} (hp : Quiet cfg own p)
    (hf : ∀ a, Quiet cfg own (f a)) : Quiet cfg own (p >>= f) := by
  intro q post h
  rw [obeys_bind]
  exact hp q _ fun a => hf a q post h

theorem quiet_pure (a : α) : Quiet cfg own (pure a : Handler α) := fun _ _ h => h a

/-- A function of whose commands the discipline sees none. -/
theorem quiet_of_sends {p : Handler α} (hp : Sends (discipline cfg own).Blind p) :
    Quiet cfg own p :=
  fun _ _ h => hp.obeys h

theorem quiet_require (b : Bool) (e : Failure) : Quiet cfg own (require b e) :=
  quiet_of_sends (sends_require b e)

theorem quiet_requireActive (row : Option User) (e : Failure) :
    Quiet cfg own (requireActive row e) :=
  quiet_of_sends (sends_requireActive row e)

theorem quiet_scalarOneOrNone (rows : List User) : Quiet cfg own (scalarOneOrNone rows) :=
  quiet_of_sends (sends_scalarOneOrNone rows)

theorem discipline_blind_selectUsers (p : User → Bool) :
    (discipline cfg own).Blind (.selectUsers p) :=
  fun _ => ⟨trivial, fun _ => rfl⟩

theorem quiet_selectUser (id : Nat) : Quiet cfg own (send (.selectUser id)) :=
  quiet_of_sends (sends_send fun _ => ⟨trivial, fun _ => rfl⟩)

theorem quiet_selectUsers (p : User → Bool) : Quiet cfg own (send (.selectUsers p)) :=
  quiet_of_sends (sends_send (discipline_blind_selectUsers p))

theorem quiet_commitUser (loaded left : User) : Quiet cfg own (commitUser loaded left) :=
  quiet_of_sends (sends_commitUser fun _ => ⟨trivial, fun _ => rfl⟩)

theorem quiet_checkBruteForce (identity ip : String) :
    Quiet cfg own (checkBruteForce cfg identity ip) :=
  quiet_of_sends (sends_checkBruteForce (fun _ => ⟨trivial, fun _ => rfl⟩)
    fun _ _ => ⟨trivial, fun _ => rfl⟩)

theorem quiet_recordLoginFailure (identity ip : String) :
    Quiet cfg own (recordLoginFailure cfg identity ip) :=
  quiet_of_sends (sends_send fun _ => ⟨by simp, fun _ => rfl⟩)

theorem quiet_clearLoginFailures (identity ip : String) :
    Quiet cfg own (clearLoginFailures identity ip) := by
  refine quiet_of_sends (sends_send fun q => ⟨by simp, fun _ => ?_⟩)
  exact deleted_eq_self (by simp [Key.session?]) (by simp [Token.activeKey])

theorem quiet_consumeTotp (user : User) (code : String) :
    Quiet cfg own (consumeTotp prims user code) :=
  quiet_of_sends (sends_consumeTotp (fun _ => ⟨trivial, fun _ => rfl⟩)
    (fun step _ => ⟨⟨user.id, step, rfl⟩, fun _ => rfl⟩) code)

theorem quiet_authenticateLocal (email password : String) :
    Quiet cfg own (authenticateLocal prims email password) := by
  refine (quiet_selectUsers _).bind fun rows => (quiet_scalarOneOrNone rows).bind fun row => ?_
  intro q post h
  split
  · exact h _
  · simp [h]

theorem quiet_getLink (link : Nat) : Quiet cfg own (send (.get (.pwreset link))) :=
  quiet_of_sends (sends_send fun _ => ⟨trivial, fun _ => rfl⟩)

theorem quiet_requireLink (owner : Option Nat) : Quiet cfg own (requireLink owner) :=
  quiet_of_sends (sends_requireLink owner)

theorem quiet_deleteLink (link : Nat) : Quiet cfg own (send (.delete [.pwreset link])) := by
  refine quiet_of_sends (sends_send fun q => ⟨by simp, fun _ => ?_⟩)
  exact deleted_eq_self (by simp [Key.session?]) (by simp [Token.activeKey])

theorem quiet_requireUser (row : Option User) : Quiet cfg own (requireUser row) :=
  quiet_of_sends (sends_requireUser row)

theorem quiet_requireRole (user : User) (name : Option String) :
    Quiet cfg own (requireRole user name) :=
  quiet_of_sends (sends_requireRole user name)

theorem quiet_flushUser (loaded left : User) : Quiet cfg own (flushUser loaded left) :=
  quiet_of_sends (sends_flushUser discipline_blind_selectUsers loaded left)

/-! ## Tokens and sessions -/

@[simp] theorem obeys_require {b : Bool} {e : Failure} {post : Ledger → Unit → Prop} :
    Obeys (discipline cfg own) post q (require b e) ↔ (b = true → post q ()) := by
  unfold require
  simp

@[simp] theorem obeys_decodeToken {t : Token} {post : Ledger → Unit → Prop} :
    Obeys (discipline cfg own) post q (decodeToken t) ↔
      post { q with decoded := t :: q.decoded } () := by
  simp [decodeToken]

@[simp] theorem obeys_hashPassword {plain : String} {post : Ledger → String → Prop} :
    Obeys (discipline cfg own) post q (hashPassword prims plain) ↔
      ∀ salt, post { q with drawn := salt :: q.drawn } (prims.hashpw plain salt) := by
  simp [hashPassword]

/-- What the ledger gains when a session is found active. -/
def Ledger.find (q : Ledger) (sid : Option Nat) : Ledger :=
  { q with live := sid.toList ++ q.live }

theorem obeys_isSessionActive {sid : Option Nat} {post : Ledger → Bool → Prop}
    (hactive : post (q.find sid) true) (hnot : post q false) :
    Obeys (discipline cfg own) post q (isSessionActive sid) := by
  unfold isSessionActive
  split
  · exact hactive
  · simp only [send, Prog.issue, obeys_call]
    refine ⟨trivial, fun found _ => ?_⟩
    cases found with
    | true => exact hactive
    | false => exact hnot

theorem obeys_touchSession {sid : Option Nat} {post : Ledger → Unit → Prop}
    (hsid : ∀ s, sid = some s → q.Holds s) (h : post q ()) :
    Obeys (discipline cfg own) post q (touchSession cfg sid) := by
  unfold touchSession
  split
  · exact h
  · rename_i s
    simp only [send, Prog.issue, obeys_call]
    exact ⟨⟨hsid s rfl, rfl⟩, fun _ _ => h⟩

/-- The ledger of a call whose token `get_current_user` has let through. -/
def Ledger.visit (q : Ledger) (t : Token) : Ledger :=
  { q with decoded := t :: q.decoded, live := t.sid.toList ++ q.live }

theorem Ledger.visit_admits (q : Ledger) (t : Token) : (q.visit t).Admits t := by
  refine ⟨List.mem_cons_self, fun sid hsid => ?_⟩
  simp [visit, hsid]

theorem obeys_getCurrentUser {token : Option Token} {post : Ledger → User → Prop}
    (h : ∀ t u, token = some t → post (q.visit t) u) :
    Obeys (discipline cfg own) post q (getCurrentUser cfg token) := by
  unfold getCurrentUser
  split
  · trivial
  · rename_i t
    simp only [obeys_bind, obeys_decodeToken, obeys_require]
    intro _ _
    refine obeys_isSessionActive ?_ (by simp)
    intro _
    refine quiet_selectUser t.sub _ _ fun row => ?_
    refine quiet_requireActive row _ _ _ fun user => ?_
    refine obeys_touchSession (fun sid hsid => .inl ?_) ?_
    · simp [Ledger.find, hsid]
    · exact h t user rfl

/-- The ledger of a call that has signed the pair of a new session. -/
def Ledger.open (q : Ledger) (sid : Nat) (refresh : Token) : Ledger :=
  { q with drawn := sid :: q.drawn, phase := .registered refresh }

theorem obeys_issueTokens {user : User} {post : Ledger → Token × Token → Prop} (hown : own = none)
    (hphase : q.phase = .fresh) (h : ∀ sid pair, post (q.open sid pair.2) pair) :
    Obeys (discipline cfg own) post q (issueTokens cfg user) := by
  simp [issueTokens, newSessionId, createAccessToken, createRefreshToken, registerRefreshJti,
    touchSession, Ledger.MaySign, Ledger.MayWrite, Ledger.Lifetime, Ledger.written, Ledger.Holds,
    Token.activeKey, hown, hphase]
  intro sid access _ _ _ refresh _ hsub _
  exact ⟨hsub, h sid (access, refresh)⟩

theorem quiet_revokeAllRefreshTokens (userId : Nat) (hown : own = none) :
    Quiet cfg own (revokeAllRefreshTokens userId) := by
  intro q post h
  simp only [revokeAllRefreshTokens, send, Prog.issue, obeys_bind, obeys_call, obeys_prog_pure]
  refine ⟨trivial, fun keys hkeys => ?_⟩
  have hsession : ∀ k ∈ keys, k.session? = none := by
    intro k hk
    have hscan := hkeys k hk
    cases k with
    | refreshActive id jti => rfl
    | _ => cases hscan
  have hself : q.deleted own keys = q := deleted_eq_self hsession (by simp [hown])
  split
  · exact h 0
  · refine ⟨fun sid hsid => ?_, fun _ _ => ?_⟩
    · cases hsession _ hsid
    · change post (q.deleted own keys) keys.length
      rw [hself]
      exact h keys.length

theorem quiet_endSessionsIf (condition : Bool) (userId : Nat) (hown : own = none) :
    Quiet cfg own (endSessionsIf condition userId) := by
  unfold endSessionsIf
  split
  · exact (quiet_revokeAllRefreshTokens userId hown).bind fun _ => quiet_pure _
  · exact quiet_pure _

theorem obeys_revokeRefreshJti {t : Token} {post : Ledger → Unit → Prop} (ht : t ∈ q.decoded)
    (h : post { q with phase := Ledger.phaseAfterDelete own [t.activeKey] q.phase } ()) :
    Obeys (discipline cfg own) post q (revokeRefreshJti cfg t.sub t.jti) := by
  simp only [revokeRefreshJti, send, Prog.issue, obeys_bind, obeys_call, obeys_prog_pure]
  refine ⟨by simp, fun _ _ => ⟨⟨⟨t, ht, rfl⟩, trivial⟩, fun _ _ => ?_⟩⟩
  exact h

/-! ## `refresh` and `logout` -/

/-- The ledger of a refresh that is past its checks. -/
def Ledger.check (q : Ledger) (t : Token) : Ledger :=
  { q with decoded := t :: q.decoded, live := t.sid.toList ++ q.live, phase := .checked }

theorem obeys_isRefreshJtiValid {t : Token} {post : Ledger → Bool → Prop} (hown : own = some t)
    (ht : t ∈ q.decoded) (hphase : q.phase = .fresh) (hvalid : post { q with phase := .checked } true)
    (hnot : post q false) :
    Obeys (discipline cfg own) post q (isRefreshJtiValid t.sub t.jti) := by
  unfold isRefreshJtiValid
  simp only [send, Prog.issue, obeys_bind, obeys_call, obeys_prog_pure]
  refine ⟨trivial, fun blocked _ => ?_⟩
  have hsame : (discipline cfg own).next q (.exists (.refreshBlocked t.jti)) blocked = q := by
    cases blocked with
    | true => rfl
    | false => rfl
  rw [hsame]
  split
  · exact hnot
  · refine ⟨⟨t, ht, hown, rfl⟩, fun found _ => ?_⟩
    cases found with
    | true =>
      have hfound : q.found own t.activeKey = { q with phase := .checked } := by
        simp [Ledger.found, Token.activeKey, hown, hphase]
      change post (q.found own t.activeKey) true
      rw [hfound]
      exact hvalid
    | false => exact hnot

theorem obeys_requireSession {t : Token} {active : Bool} {post : Ledger → Unit → Prop}
    (ht : t ∈ q.decoded) (h : active = true → post q ()) :
    Obeys (discipline cfg own) post q (requireSession cfg t active) := by
  unfold requireSession
  split
  · exact h ‹_›
  · rw [obeys_bind]
    exact obeys_revokeRefreshJti ht trivial

theorem obeys_checkRefresh {t : Token} {post : Ledger → User → Prop} (hown : own = some t)
    (hphase : q.phase = .fresh) (h : ∀ u, post (q.check t) u) :
    Obeys (discipline cfg own) post q (checkRefresh cfg t) := by
  unfold checkRefresh
  simp only [obeys_bind, obeys_decodeToken, obeys_require]
  intro _ _
  refine obeys_isRefreshJtiValid hown List.mem_cons_self hphase ?_ (by simp)
  intro _
  refine obeys_isSessionActive ?_ ?_
  · refine obeys_requireSession List.mem_cons_self fun _ => ?_
    exact quiet_selectUser _ _ _ fun row => quiet_requireActive row _ _ _ h
  · exact obeys_requireSession List.mem_cons_self (by simp)

theorem obeys_adoptSession {sid : Option Nat} {post : Ledger → Nat → Prop}
    (hsome : ∀ s, sid = some s → post q s)
    (hnone : ∀ n, post { q with drawn := n :: q.drawn } n) :
    Obeys (discipline cfg own) post q (adoptSession sid) := by
  unfold adoptSession
  split
  · exact hsome _ rfl
  · exact ⟨trivial, fun n _ => hnone n⟩

theorem obeys_rotate {t : Token} {user : User} {sid : Nat} {post : Ledger → Answer → Prop}
    (hown : own = some t) (hphase : q.phase = .checked) (ht : t ∈ q.decoded) (hsid : q.Holds sid)
    (h : ∀ access refresh, post { q with phase := .registered refresh } (.tokenPair access refresh)) :
    Obeys (discipline cfg own) post q (rotate cfg t user sid) := by
  have hspent : Ledger.phaseAfterDelete own [t.activeKey] q.phase = .spent := by
    simp [Ledger.phaseAfterDelete, hown, hphase]
  have hholds : ∀ s, some sid = some s → q.Holds s := by
    intro s hs
    cases hs
    exact hsid
  unfold rotate
  rw [obeys_bind]
  refine obeys_revokeRefreshJti ht ?_
  simp only [hspent, createRefreshToken, registerRefreshJti, touchSession, createAccessToken, send,
    Prog.issue, obeys_bind, obeys_call, obeys_prog_pure, obeys_pure]
  refine ⟨⟨hholds, by simp [Ledger.MaySign, hown]⟩, fun refresh hr => ?_⟩
  have hkey : refresh.activeKey = .refreshActive user.id refresh.jti := by
    rw [Token.activeKey, hr.2.1]
  refine ⟨⟨⟨refresh, rfl, hkey⟩, trivial⟩, fun _ _ => ?_⟩
  refine ⟨⟨hsid, rfl⟩, fun _ _ => ?_⟩
  exact ⟨hholds, fun access _ => h access refresh⟩

/-- `refresh`: the call goes on from its checks to the rotation. -/
theorem obeys_refresh {body cookie : Option Token} {post : Ledger → Answer → Prop}
    (hown : own = (cookie <|> body)) (hphase : q.phase = .fresh)
    (h : ∀ q' t a r, own = some t → q'.Admits t → q'.phase = .registered r → post q' a) :
    Obeys (discipline cfg own) post q (refresh cfg body cookie) := by
  unfold refresh
  split
  · trivial
  · rename_i t ht
    have hownt : own = some t := hown.trans ht
    have hadmits : (q.check t).Admits t := q.visit_admits t
    simp only [refreshWith, obeys_bind]
    refine obeys_checkRefresh hownt hphase fun user => ?_
    refine obeys_adoptSession (fun sid hsid => ?_) fun n => ?_
    · refine obeys_rotate hownt rfl hadmits.1 (.inl (hadmits.2 sid hsid)) fun access refresh => ?_
      exact h _ t _ refresh hownt hadmits rfl
    · refine obeys_rotate hownt rfl hadmits.1 (.inr List.mem_cons_self) fun access refresh => ?_
      exact h _ t _ refresh hownt hadmits rfl

theorem obeys_logoutWith {t : Token} {post : Ledger → Answer → Prop} (ht : t ∈ q.decoded)
    (h : ∀ q', (∀ sid, t.sid = some sid → sid ∈ q'.ended) → post q' .loggedOut) :
    Obeys (discipline cfg own) post q (logoutWith cfg t) := by
  have hend : ∀ q' : Ledger, t ∈ q'.decoded →
      Obeys (discipline cfg own) (fun q'' _ => post q'' .loggedOut) q' (endSession t.sid) := by
    intro q' hq'
    unfold endSession
    split
    · rename_i hsid
      exact h q' fun sid hs => by rw [hsid] at hs; cases hs
    · rename_i sid hsid
      refine ⟨fun s hs => ⟨t, hq', ?_⟩, fun _ _ => h _ fun s hs => ?_⟩
      · cases List.mem_singleton.mp hs
        exact hsid
      · rw [hsid] at hs
        cases hs
        exact List.mem_cons_self
  simp only [logoutWith, revokeOwn, obeys_bind, obeys_ite, obeys_pure]
  constructor
  · intro _
    exact obeys_revokeRefreshJti ht (hend _ ht)
  · intro _
    exact hend q ht

theorem obeys_logout {body cookie : Option Token} {post : Ledger → Answer → Prop}
    (hdecoded : q.decoded = [])
    (h : ∀ q' a, (∀ t, (cookie <|> body) = some t → q'.EndsSessionOf t) → post q' a) :
    Obeys (discipline cfg own) post q (logout cfg body cookie) := by
  unfold logout
  split
  · rename_i hnone
    exact h q _ fun t ht => by rw [hnone] at ht; cases ht
  · rename_i t ht
    simp only [send, Prog.issue, obeys_bind, obeys_call, obeys_prog_pure]
    refine ⟨trivial, fun ok _ => ?_⟩
    cases ok with
    | false =>
      refine h q _ fun t' _ hmem => ?_
      rw [hdecoded] at hmem
      cases hmem
    | true =>
      simp only [discipline_next, Ledger.note, Bool.true_and, if_true, obeys_ite, obeys_pure]
      constructor
      · intro _
        refine obeys_logoutWith List.mem_cons_self fun q' hended => h q' _ fun t' ht' _ _ => ?_
        cases ht.symm.trans ht'
        exact hended
      · intro htype
        refine h _ _ fun t' ht' _ hrefresh => ?_
        cases ht.symm.trans ht'
        simp [hrefresh] at htype

/-! ## The other endpoints -/

theorem obeys_completeLogin {user : User} {post : Ledger → Answer → Prop} (hown : own = none)
    (hphase : q.phase = .fresh)
    (h : ∀ sid access refresh, post (q.open sid refresh) (.tokenPair access refresh)) :
    Obeys (discipline cfg own) post q (completeLogin cfg user) := by
  unfold completeLogin
  rw [obeys_bind]
  exact obeys_issueTokens hown hphase fun sid pair => h sid pair.1 pair.2

section NoToken

variable {post : Ledger → Answer → Prop}

theorem obeys_login {email password ip : String} (hown : own = none) (hphase : q.phase = .fresh)
    (h : ∀ q a, post q a) :
    Obeys (discipline cfg own) post q (login prims cfg email password ip) := by
  simp only [login, obeys_bind]
  refine quiet_checkBruteForce _ _ _ _ fun _ => quiet_authenticateLocal _ _ _ _ fun result => ?_
  unfold loginAs
  split
  · rw [obeys_bind]
    exact quiet_recordLoginFailure _ _ _ _ fun _ => trivial
  · rw [obeys_bind]
    refine quiet_clearLoginFailures _ _ _ _ fun _ => ?_
    split
    · exact ⟨⟨rfl, rfl⟩, fun _ _ => h _ _⟩
    · exact obeys_completeLogin hown hphase fun _ _ _ => h _ _

theorem obeys_loginSecondFactor {mfaToken : Token} {code ip : String} (hown : own = none)
    (hphase : q.phase = .fresh) (h : ∀ q a, post q a) :
    Obeys (discipline cfg own) post q (loginSecondFactor prims cfg mfaToken code ip) := by
  simp only [loginSecondFactor, obeys_bind, obeys_decodeToken, obeys_require]
  intro _
  refine quiet_selectUser _ _ _ fun row => quiet_requireActive row _ _ _ fun user _ => ?_
  refine quiet_checkBruteForce _ _ _ _ fun _ => quiet_consumeTotp _ _ _ _ fun accepted => ?_
  unfold requireCode
  split
  · refine quiet_clearLoginFailures _ _ _ _ fun _ => ?_
    exact obeys_completeLogin hown hphase fun _ _ _ => h _ _
  · rw [obeys_bind]
    exact quiet_recordLoginFailure _ _ _ _ fun _ => trivial

theorem obeys_forgotPassword {email ip : String} (h : ∀ q a, post q a) :
    Obeys (discipline cfg own) post q (forgotPassword prims cfg email ip) := by
  simp only [forgotPassword, obeys_bind]
  refine quiet_checkBruteForce _ _ _ _ fun _ => quiet_recordLoginFailure _ _ _ _ fun _ => ?_
  refine quiet_selectUsers _ _ _ fun rows => quiet_scalarOneOrNone rows _ _ fun row => ?_
  split
  · exact h _ _
  · simp only [obeys_ite, obeys_pure]
    refine ⟨fun _ => h _ _, fun _ => ?_⟩
    refine ⟨trivial, fun token _ => ?_⟩
    refine ⟨⟨List.mem_cons_self, rfl⟩, fun _ _ => ?_⟩
    exact ⟨List.mem_cons_self, fun _ _ => h _ _⟩

theorem obeys_replacePassword {user : User} {new : String} {post : Ledger → Unit → Prop}
    (hown : own = none) (h : ∀ salt, post { q with drawn := salt :: q.drawn } ()) :
    Obeys (discipline cfg own) post q (replacePassword prims user new) := by
  simp only [replacePassword, obeys_bind, obeys_hashPassword]
  intro salt
  refine quiet_commitUser _ _ _ _ fun _ => ?_
  exact quiet_revokeAllRefreshTokens _ hown _ _ fun _ => h salt

theorem obeys_resetFor {userId : Nat} {new : String} (hown : own = none) (h : ∀ q a, post q a) :
    Obeys (discipline cfg own) post q (resetFor prims userId new) := by
  simp only [resetFor, obeys_bind]
  refine quiet_selectUser _ _ _ fun row => quiet_requireActive row _ _ _ fun user => ?_
  exact obeys_replacePassword hown fun _ => h _ _

theorem obeys_resetPassword {link : Nat} {new : String} (hown : own = none) (h : ∀ q a, post q a) :
    Obeys (discipline cfg own) post q (resetPassword prims link new) := by
  simp only [resetPassword, obeys_bind]
  refine quiet_getLink link _ _ fun owner => quiet_requireLink owner _ _ fun userId => ?_
  exact quiet_deleteLink link _ _ fun _ => obeys_resetFor hown h

end NoToken

section OneToken

variable {token : Option Token} {post : Ledger → Answer → Prop}

theorem obeys_changePassword {current new : String} (hown : own = none) (hphase : q.phase = .fresh)
    (h : ∀ q t a, token = some t → q.Admits t → post q a) :
    Obeys (discipline cfg own) post q (changePassword prims cfg token current new) := by
  simp only [changePassword, obeys_bind]
  refine obeys_getCurrentUser fun t user ht => ?_
  simp only [obeys_require]
  intro _ _ _
  refine obeys_replacePassword hown fun salt => ?_
  exact obeys_completeLogin hown hphase fun _ _ _ => h _ t _ ht (q.visit_admits t)

theorem obeys_totpSetup (h : ∀ q t a, token = some t → q.Admits t → post q a) :
    Obeys (discipline cfg own) post q (totpSetup prims cfg token) := by
  simp only [totpSetup, obeys_bind]
  refine obeys_getCurrentUser fun t user ht => ?_
  simp only [obeys_require]
  intro _ _
  refine ⟨trivial, fun random _ => ?_⟩
  exact quiet_commitUser _ _ _ _ fun _ => h _ t _ ht (q.visit_admits t)

theorem obeys_totpEnable {code : String} (h : ∀ q t a, token = some t → q.Admits t → post q a) :
    Obeys (discipline cfg own) post q (totpEnable prims cfg token code) := by
  simp only [totpEnable, obeys_bind]
  refine obeys_getCurrentUser fun t user ht => ?_
  rw [obeys_require]
  intro _
  refine quiet_consumeTotp _ _ _ _ fun accepted => ?_
  rw [obeys_require]
  intro _
  exact quiet_commitUser _ _ _ _ fun _ => h _ t _ ht (q.visit_admits t)

theorem obeys_totpDisable {password code : String}
    (h : ∀ q t a, token = some t → q.Admits t → post q a) :
    Obeys (discipline cfg own) post q (totpDisable prims cfg token password code) := by
  simp only [totpDisable, obeys_bind]
  refine obeys_getCurrentUser fun t user ht => ?_
  simp only [obeys_require]
  intro _ _
  refine quiet_consumeTotp _ _ _ _ fun accepted _ => ?_
  exact quiet_commitUser _ _ _ _ fun _ => h _ t _ ht (q.visit_admits t)

theorem obeys_updateUser {userId : Nat} {data : UserUpdate} (hown : own = none)
    (h : ∀ q t a, token = some t → q.Admits t → post q a) :
    Obeys (discipline cfg own) post q (updateUser prims cfg token userId data) := by
  have hrest : ∀ (q' : Ledger) (t : Token) (actor user : User) (hash : Option String),
      token = some t → q'.Admits t →
      Obeys (discipline cfg own) post q' (do
        let role ← requireRole user data.roleName
        applyUpdate actor user { data.apply user hash with role } data) := by
    intro q' t actor user hash ht hadmits
    simp only [applyUpdate, obeys_bind]
    refine quiet_requireRole _ _ _ _ fun role => quiet_require _ _ _ _ fun _ => ?_
    refine quiet_require _ _ _ _ fun _ => quiet_require _ _ _ _ fun _ => ?_
    refine quiet_flushUser _ _ _ _ fun users => quiet_require _ _ _ _ fun _ => ?_
    refine quiet_commitUser _ _ _ _ fun _ => quiet_endSessionsIf _ _ hown _ _ fun _ => ?_
    exact h q' t _ ht hadmits
  simp only [updateUser, requireRoles, obeys_bind]
  refine obeys_getCurrentUser fun t actor ht => ?_
  simp only [obeys_require, obeys_pure]
  intro _
  refine quiet_selectUser _ _ _ fun row => quiet_requireUser row _ _ fun user => ?_
  unfold hashIfSent
  split
  · rw [obeys_pure]
    exact (obeys_bind ..).mp (hrest _ t actor user none ht (q.visit_admits t))
  · simp only [obeys_bind, obeys_hashPassword, obeys_pure]
    intro salt
    exact (obeys_bind ..).mp (hrest _ t actor user _ ht (q.visit_admits t))

theorem obeys_deleteUser {userId : Nat} (h : ∀ q t a, token = some t → q.Admits t → post q a) :
    Obeys (discipline cfg own) post q (deleteUser cfg token userId) := by
  simp only [deleteUser, requireRoles, obeys_bind]
  refine obeys_getCurrentUser fun t actor ht => ?_
  simp only [obeys_require, obeys_pure]
  intro _ _
  refine quiet_selectUser _ _ _ fun row => quiet_requireUser row _ _ fun user => ?_
  refine quiet_flushUser _ _ _ _ fun users => quiet_require _ _ _ _ fun _ => ?_
  exact quiet_commitUser _ _ _ _ fun _ => h _ t _ ht (q.visit_admits t)

theorem obeys_socket (h : ∀ q t a, token = some t → q.Admits t → post q a)
    (hclosed : ∀ q, post q .socketClosed) :
    Obeys (discipline cfg own) post q (socket token) := by
  unfold socket
  split
  · exact hclosed q
  · rename_i t
    simp only [send, Prog.issue, obeys_bind, obeys_call, obeys_prog_pure, authenticateSocket]
    refine ⟨trivial, fun ok _ => ?_⟩
    cases ok with
    | false => exact hclosed _
    | true =>
      simp only [if_true]
      split
      · rw [obeys_bind]
        refine obeys_isSessionActive ?_ ?_
        · exact h _ t _ rfl (q.visit_admits t)
        · exact hclosed _
      · exact hclosed _

end OneToken

namespace Ledger.Answered

variable {call : AuthCall} {a : Answer}

/-- A call that presents no token has nothing to show. -/
theorem of_none (hcredential : call.credential = none) (hspends : call.spends = none)
    (hlogsOut : call.logsOut = none) : Answered call q a where
  admits := by simp [hcredential]
  spent := by simp [hspends]
  ended := by simp [hlogsOut]

/-- A call that needs a user shows that its token was let through. -/
theorem of_admits {t : Token} (hcredential : call.credential = some t)
    (hspends : call.spends = none) (hlogsOut : call.logsOut = none) (h : q.Admits t) :
    Answered call q a where
  admits := by
    intro _ t' ht'
    cases hcredential.symm.trans ht'
    exact h
  spent := by simp [hspends]
  ended := by simp [hlogsOut]

end Ledger.Answered

variable (prims cfg)

/-- Every handler keeps the discipline, and its answer means what
`Answered` says. -/
theorem handle_obeys (call : AuthCall) :
    Obeys (discipline cfg call.spends) (Ledger.Answered call) {} (handle prims cfg call) := by
  cases call with
  | login email password ip => exact obeys_login rfl rfl fun _ _ => .of_none rfl rfl rfl
  | loginSecondFactor mfaToken code ip =>
    exact obeys_loginSecondFactor rfl rfl fun _ _ => .of_none rfl rfl rfl
  | forgotPassword email ip => exact obeys_forgotPassword fun _ _ => .of_none rfl rfl rfl
  | resetPassword link new => exact obeys_resetPassword rfl fun _ _ => .of_none rfl rfl rfl
  | refresh body cookie =>
    refine obeys_refresh rfl rfl fun q t a r ht hadmits hphase => ⟨?_, ?_, by simp [AuthCall.logsOut]⟩
    · intro _ t' ht'
      cases ht.symm.trans ht'
      exact hadmits
    · exact fun _ _ => ⟨r, hphase⟩
  | logout body cookie =>
    refine obeys_logout rfl fun q a hended => ⟨?_, ?_, hended⟩
    · simp [AuthCall.credential]
    · simp [AuthCall.spends]
  | authenticated token =>
    simp only [handle, authenticated, obeys_bind, obeys_pure]
    exact obeys_getCurrentUser fun t user ht => .of_admits ht rfl rfl (Ledger.visit_admits _ t)
  | changePassword token current new =>
    exact obeys_changePassword rfl rfl fun q t a ht h => .of_admits ht rfl rfl h
  | totpSetup token => exact obeys_totpSetup fun q t a ht h => .of_admits ht rfl rfl h
  | totpEnable token code => exact obeys_totpEnable fun q t a ht h => .of_admits ht rfl rfl h
  | totpDisable token password code =>
    exact obeys_totpDisable fun q t a ht h => .of_admits ht rfl rfl h
  | updateUser token userId data =>
    exact obeys_updateUser rfl fun q t a ht h => .of_admits ht rfl rfl h
  | deleteUser token userId => exact obeys_deleteUser fun q t a ht h => .of_admits ht rfl rfl h
  | socket token =>
    refine obeys_socket (fun q t a ht h => .of_admits ht rfl rfl h) fun q => ⟨by simp, ?_, ?_⟩
    · simp [AuthCall.spends]
    · simp [AuthCall.logsOut]

variable {prims cfg}

/-! ## Parts of a call on their own -/

/-- The function keeps the discipline, in a call that spends no refresh
token. -/
def Keeps (cfg : Settings) (p : Handler α) : Prop :=
  Obeys (discipline cfg none) (fun _ _ => True) {} p

theorem keeps_getCurrentUser (token : Option Token) : Keeps cfg (getCurrentUser cfg token) :=
  obeys_getCurrentUser fun _ _ _ => trivial

theorem keeps_replacePassword (user : User) (new : String) :
    Keeps cfg (replacePassword prims user new) :=
  obeys_replacePassword rfl fun _ => trivial

theorem keeps_completeLogin (user : User) : Keeps cfg (completeLogin cfg user) :=
  obeys_completeLogin rfl rfl fun _ _ _ => trivial

theorem keeps_resetFor (userId : Nat) (new : String) : Keeps cfg (resetFor prims userId new) :=
  obeys_resetFor rfl fun _ _ => trivial

end Royd.Auth
