/-
Royd.Auth.Sightings — for whom a call opens a session or keeps one open.

A call signs access tokens, and touches sessions, only for a user it has itself
found active, and only in a session of that user: one it has just opened, or that
of a token which decoded for it. What a call has found is its `Sight`; the monitor
`sighting` says what it may then send, and every handler obeys it
(`handle_sighting`). That the user is still active when the call gets there is
another matter.
-/
import Royd.Auth.Footprints
import Royd.Auth.Interleaving

namespace Royd.Auth

open ExpiringStore Programs

variable {prims : Primitives} {cfg : Settings} {α β : Type}

/-! ## The monitor -/

/-- What a call has seen: the users it found active, the tokens that decoded, the
random values it drew, and the sessions it opened with their users. -/
structure Sight where
  active : List Nat := []
  decoded : List Token := []
  drawn : List Nat := []
  opened : List (Nat × Nat) := []
  deriving DecidableEq, Repr

/-- The change of a row sets `is_active` to false. -/
def deactivates (loaded left : User) : Bool :=
  decide (left.isActive ≠ loaded.isActive) && !left.isActive

namespace Sight

/-- The session is one of the user, as far as the call knows. -/
def Owns (q : Sight) (sid userId : Nat) : Prop :=
  sid ∈ q.drawn ∨ (sid, userId) ∈ q.opened ∨ ∃ t ∈ q.decoded, t.sid = some sid ∧ t.sub = userId

/-- A random value becomes a session. -/
def opens (q : Sight) (sid userId : Nat) : Sight :=
  if sid ∈ q.drawn then
    { q with drawn := q.drawn.filter (· ≠ sid), opened := (sid, userId) :: q.opened }
  else q

/-- A row was read. -/
def found (q : Sight) (row : Option User) : Sight :=
  { q with active := (row.toList.filter (·.isActive)).map (·.id) ++ q.active }

/-- The sight after a command. A query finds a user if it gives that user alone. -/
def note (q : Sight) : (c : Command) → c.Reply → Sight
  | .decode t, ok => if ok then { q with decoded := t :: q.decoded } else q
  | .mint _ sub (some sid) _, _ => q.opens sid sub
  | .secret, n => { q with drawn := n :: q.drawn }
  | .selectUser _, row => q.found row
  | .selectUsers _, [u] => q.found (some u)
  | .commitUser loaded left, saved =>
    if saved && deactivates loaded left then { q with active := q.active.filter (· ≠ loaded.id) }
    else q
  | _, _ => q

/-- A query finds one user, or none. -/
theorem note_selectUsers (q : Sight) (p : User → Bool) (rows : List User) :
    q.note (.selectUsers p) rows = q ∨
      ∃ u, rows = [u] ∧ q.note (.selectUsers p) rows = q.found (some u) := by
  rcases rows with _ | ⟨u, _ | ⟨u', rest⟩⟩
  · exact .inl rfl
  · exact .inr ⟨u, rfl, rfl⟩
  · exact .inl rfl

/-- What a call may send. -/
def Allows (q : Sight) : Command → Prop
  | .mint .access sub sid _ => sub ∈ q.active ∧ ∃ n, sid = some n ∧ q.Owns n sub
  | .mint .refresh sub sid _ => ∃ n, sid = some n ∧ q.Owns n sub
  | .mint .mfa _ sid _ => sid = none
  | .setex k _ _ => ∀ sid, k = .sessionSeen sid → ∃ userId ∈ q.active, q.Owns sid userId
  | .setNx k _ => k.session? = none
  | .incrExpire ks _ => ∀ k ∈ ks, k.session? = none
  | _ => True

/-- What was seen stays seen. -/
structure Extends (q q' : Sight) : Prop where
  active : ∀ id ∈ q.active, id ∈ q'.active
  decoded : ∀ t ∈ q.decoded, t ∈ q'.decoded
  opened : ∀ e ∈ q.opened, e ∈ q'.opened

theorem Extends.refl (q : Sight) : q.Extends q := ⟨fun _ h => h, fun _ h => h, fun _ h => h⟩

theorem Extends.trans {q q' q'' : Sight} (h : q.Extends q') (h' : q'.Extends q'') : q.Extends q'' :=
  ⟨fun id hid => h'.active id (h.active id hid), fun t ht => h'.decoded t (h.decoded t ht),
    fun e he => h'.opened e (h.opened e he)⟩

theorem extends_found (q : Sight) (row : Option User) : q.Extends (q.found row) :=
  ⟨fun _ h => List.mem_append_right _ h, fun _ h => h, fun _ h => h⟩

/-- An active user whose row was read has been found. -/
theorem mem_found {q : Sight} {row : Option User} {u : User} (hu : row = some u)
    (hactive : u.isActive = true) : u.id ∈ (q.found row).active :=
  List.mem_append_left _ <|
    List.mem_map_of_mem (List.mem_filter.mpr ⟨Option.mem_toList.mpr hu, hactive⟩)

theorem extends_opens (q : Sight) (sid userId : Nat) : q.Extends (q.opens sid userId) := by
  unfold opens
  split
  · exact ⟨fun _ h => h, fun _ h => h, fun _ h => List.mem_cons_of_mem _ h⟩
  · exact .refl q

/-- The session is the user's when it is opened for it, and it stays so. -/
theorem Owns.opens {q : Sight} {sid userId : Nat} (h : q.Owns sid userId) :
    (q.opens sid userId).Owns sid userId := by
  unfold Sight.opens
  split
  · exact .inr (.inl List.mem_cons_self)
  · exact h

end Sight

/-- The monitor. -/
def sighting : Monitor Command Command.Reply Sight where
  allows := Sight.Allows
  possible := Ledger.Possible
  next := Sight.note

/-! ## What a function finds out -/

/-- The function keeps to the monitor, and what it returns is known. -/
def Sees (q : Sight) (p : Handler α) (out : Sight → α → Prop) : Prop :=
  Obeys sighting (fun q' a => q.Extends q' ∧ out q' a) q p

/-- Nothing is found out. -/
def Plain (p : Handler α) : Prop := ∀ q, Sees q p fun _ _ => True

variable {q : Sight} {p : Handler α} {out : Sight → α → Prop}

theorem Sees.bind {f : α → Handler β} {out' : Sight → β → Prop} (hp : Sees q p out)
    (hf : ∀ q' a, q.Extends q' → out q' a → Sees q' (f a) out') : Sees q (p >>= f) out' := by
  unfold Sees
  rw [obeys_bind]
  refine Obeys.mono hp ?_
  rintro q' a ⟨hext, hout⟩
  exact Obeys.mono (hf q' a hext hout) fun q'' b h => ⟨hext.trans h.1, h.2⟩

theorem Plain.bind {f : α → Handler β} (hp : Plain p) (hf : ∀ a, Plain (f a)) : Plain (p >>= f) :=
  fun q => (hp q).bind fun q' a _ _ => hf a q'

/-- A plain function, and then another. -/
theorem Plain.then {f : α → Handler β} {out' : Sight → β → Prop} (hp : Plain p)
    (hf : ∀ q' a, q.Extends q' → Sees q' (f a) out') : Sees q (p >>= f) out' :=
  (hp q).bind fun q' a hext _ => hf q' a hext

theorem Sees.plain (h : ∀ q, Sees q p out) : Plain p :=
  fun q => Obeys.mono (h q) fun _ _ h => ⟨h.1, trivial⟩

theorem sees_pure {a : α} (h : out q a) : Sees q (pure a : Handler α) out := ⟨.refl q, h⟩

theorem sees_raise (e : Failure) : Sees q (.raise e : Handler α) out := trivial

theorem sees_send {c : Command} {out : Sight → c.Reply → Prop} (hallows : q.Allows c)
    (h : ∀ r, Ledger.Possible c r → q.Extends (q.note c r) ∧ out (q.note c r) r) :
    Sees q (send c) out := ⟨hallows, h⟩

theorem plain_pure (a : α) : Plain (pure a : Handler α) := fun _ => sees_pure trivial

theorem plain_raise (e : Failure) : Plain (.raise e : Handler α) := fun _ => sees_raise e

/-- A function of whose commands the sight notes none. -/
theorem sees_of_sends (hp : Sends sighting.Blind p) : Sees q p fun q' _ => q' = q :=
  hp.obeys fun _ => ⟨.refl q, rfl⟩

theorem plain_of_sends (hp : Sends sighting.Blind p) : Plain p :=
  fun q => hp.obeys fun _ => ⟨.refl q, trivial⟩

theorem plain_send {c : Command} (h : sighting.Blind c) : Plain (send c) :=
  plain_of_sends (sends_send h)

theorem sees_require {b : Bool} {e : Failure} : Sees q (require b e) fun _ _ => b = true := by
  unfold require
  split
  · rename_i hb
    exact sees_pure hb
  · exact sees_raise e

theorem plain_require (b : Bool) (e : Failure) : Plain (require b e) :=
  plain_of_sends (sends_require b e)

/-! ## The functions -/

theorem plain_secret : Plain (send .secret) := fun _ =>
  sees_send trivial fun _ _ => ⟨⟨fun _ h => h, fun _ h => h, fun _ h => h⟩, trivial⟩

/-- What a selected row shows. -/
theorem sees_selectUser {id : Nat} :
    Sees q (send (.selectUser id)) fun q' row =>
      ∀ u ∈ row, u.id = id ∧ (u.isActive = true → u.id ∈ q'.active) := by
  refine sees_send trivial fun row hrow => ⟨Sight.extends_found q row, fun u hu => ?_⟩
  exact ⟨hrow u hu, Sight.mem_found hu⟩

theorem sees_selectUsers {p : User → Bool} :
    Sees q (send (.selectUsers p)) fun q' rows =>
      ∀ u, rows = [u] → u.isActive = true → u.id ∈ q'.active := by
  refine sees_send trivial fun rows _ => ⟨?_, fun u hu hactive => ?_⟩
  · rcases q.note_selectUsers p rows with heq | ⟨u, -, heq⟩
    · rw [heq]
      exact .refl q
    · rw [heq]
      exact Sight.extends_found q (some u)
  · subst hu
    exact Sight.mem_found rfl hactive

theorem plain_selectUser (id : Nat) : Plain (send (.selectUser id)) :=
  Sees.plain fun _ => sees_selectUser

theorem sees_requireActive {row : Option User} {e : Failure} :
    Sees q (requireActive row e) fun _ u => row = some u ∧ u.isActive = true := by
  unfold requireActive
  split
  · exact sees_raise e
  · split
    · rename_i hactive
      exact sees_pure ⟨rfl, hactive⟩
    · exact sees_raise e

theorem sees_scalarOneOrNone {rows : List User} :
    Sees q (scalarOneOrNone rows) fun _ row => ∀ u ∈ row, rows = [u] := by
  unfold scalarOneOrNone
  split
  · exact sees_pure (by simp)
  · exact sees_pure (by simp)
  · exact sees_raise _

theorem sees_decodeToken {t : Token} : Sees q (decodeToken t) fun q' _ => t ∈ q'.decoded := by
  unfold decodeToken
  have hdecode : Sees q (send (.decode t)) fun q' ok => ok = true → t ∈ q'.decoded := by
    refine sees_send trivial fun ok _ => ?_
    cases ok with
    | true =>
      exact ⟨⟨fun _ h => h, fun _ h => List.mem_cons_of_mem _ h, fun _ h => h⟩,
        fun _ => List.mem_cons_self⟩
    | false => exact ⟨.refl q, fun h => by cases h⟩
  refine hdecode.bind fun q' ok _ hok => ?_
  exact Obeys.mono sees_require fun q'' _ h => ⟨h.1, h.1.decoded t (hok h.2)⟩

theorem plain_decode (t : Token) : Plain (send (.decode t)) := fun q =>
  sees_send trivial fun ok _ => by
    cases ok with
    | true => exact ⟨⟨fun _ h => h, fun _ h => List.mem_cons_of_mem _ h, fun _ h => h⟩, trivial⟩
    | false => exact ⟨.refl q, trivial⟩

theorem sighting_blind_exists (k : Key) : sighting.Blind (.exists k) :=
  fun _ => ⟨trivial, fun _ => rfl⟩

theorem sighting_blind_delete (ks : List Key) : sighting.Blind (.delete ks) :=
  fun _ => ⟨trivial, fun _ => rfl⟩

/-- A key that is about no session. -/
theorem sighting_blind_setex {k : Key} (hk : k.session? = none) (ttl : Int) (v : Nat) :
    sighting.Blind (.setex k ttl v) := by
  refine fun q => ⟨fun sid heq => ?_, fun _ => rfl⟩
  rw [heq] at hk
  cases hk

theorem plain_delete (ks : List Key) : Plain (send (.delete ks)) :=
  plain_send (sighting_blind_delete ks)

theorem sees_revokeRefreshJti {userId jti : Nat} :
    Sees q (revokeRefreshJti cfg userId jti) fun q' _ => q' = q :=
  sees_of_sends (sends_revokeRefreshJti (sighting_blind_delete _) (sighting_blind_setex rfl))

theorem plain_revokeRefreshJti (userId jti : Nat) : Plain (revokeRefreshJti cfg userId jti) :=
  plain_of_sends (sends_revokeRefreshJti (sighting_blind_delete _) (sighting_blind_setex rfl))

theorem plain_isSessionActive (sid : Option Nat) : Plain (isSessionActive sid) :=
  plain_of_sends (sends_isSessionActive (fun _ => sighting_blind_exists _) sid)

theorem plain_isRefreshJtiValid (userId jti : Nat) : Plain (isRefreshJtiValid userId jti) :=
  plain_of_sends (sends_isRefreshJtiValid (sighting_blind_exists _) (sighting_blind_exists _))

theorem plain_revokeAllRefreshTokens (userId : Nat) : Plain (revokeAllRefreshTokens userId) :=
  plain_of_sends (sends_revokeAllRefreshTokens (fun _ => ⟨trivial, fun _ => rfl⟩)
    sighting_blind_delete)

theorem plain_endSession (sid : Option Nat) : Plain (endSession sid) :=
  plain_of_sends (sends_endSession (fun _ => sighting_blind_delete _) sid)

theorem plain_checkBruteForce (identity ip : String) : Plain (checkBruteForce cfg identity ip) :=
  plain_of_sends (sends_checkBruteForce (fun _ => ⟨trivial, fun _ => rfl⟩)
    fun _ _ => ⟨trivial, fun _ => rfl⟩)

theorem plain_recordLoginFailure (identity ip : String) :
    Plain (recordLoginFailure cfg identity ip) :=
  plain_send fun _ => ⟨by simp [sighting, Sight.Allows, Key.session?], fun _ => rfl⟩

theorem plain_clearLoginFailures (identity ip : String) : Plain (clearLoginFailures identity ip) :=
  plain_delete _

theorem plain_hashPassword (plain : String) : Plain (hashPassword prims plain) :=
  plain_secret.bind fun _ => plain_pure _

theorem plain_consumeTotp (user : User) (code : String) : Plain (consumeTotp prims user code) :=
  plain_of_sends (sends_consumeTotp (fun _ => ⟨trivial, fun _ => rfl⟩)
    (fun _ _ => ⟨rfl, fun _ => rfl⟩) code)

/-- A change of the row that leaves the user as active as before. -/
theorem plain_commitUser {loaded left : User} (h : left.isActive = loaded.isActive) :
    Plain (commitUser loaded left) := by
  unfold commitUser
  have hnot : deactivates loaded left = false := by simp [deactivates, h]
  refine Plain.bind (plain_send fun q => ⟨trivial, fun saved => ?_⟩) fun saved => plain_require _ _
  simp [sighting, Sight.note, hnot]

/-- Any change of a row. -/
theorem obeys_commitUser (q : Sight) {loaded left : User} {post : Sight → Unit → Prop}
    (h : ∀ q', post q' ()) : Obeys sighting post q (commitUser loaded left) := by
  simp only [commitUser, send, Prog.issue, obeys_bind, obeys_call, obeys_prog_pure]
  refine ⟨trivial, fun saved _ => ?_⟩
  unfold require
  split
  · exact h _
  · trivial

/-! ## Sessions -/

/-- A session of a user who was found active is touched. -/
theorem sees_touchSession {sid : Option Nat}
    (h : ∀ n ∈ sid, ∃ userId ∈ q.active, q.Owns n userId) :
    Sees q (touchSession cfg sid) fun q' _ => q' = q := by
  unfold touchSession
  split
  · exact sees_pure rfl
  · rename_i n
    refine sees_send (fun sid heq => ?_) fun _ _ => ⟨.refl q, rfl⟩
    cases heq
    exact h n rfl

theorem sees_getCurrentUser {token : Option Token} :
    Sees q (getCurrentUser cfg token) fun q' u => u.id ∈ q'.active := by
  unfold getCurrentUser
  split
  · exact sees_raise _
  · rename_i t
    refine sees_decodeToken.bind fun q₁ _ _ hdecoded => ?_
    refine (plain_require _ _).then fun q₂ _ h₂ => (plain_require _ _).then fun q₃ _ h₃ => ?_
    refine (plain_isSessionActive t.sid).then fun q₄ active h₄ => ?_
    refine (plain_require _ _).then fun q₅ _ h₅ => sees_selectUser.bind fun q₆ row h₆ hrow => ?_
    refine sees_requireActive.bind fun q₇ user h₇ huser => ?_
    obtain ⟨hid, hseen⟩ := hrow user huser.1
    have hactive : user.id ∈ q₇.active := h₇.active _ (hseen huser.2)
    have hext : q₁.Extends q₇ := (((((h₂.trans h₃).trans h₄).trans h₅).trans h₆).trans h₇)
    have htouch : Sees q₇ (touchSession cfg t.sid) fun q' _ => q' = q₇ :=
      sees_touchSession fun n hn =>
        ⟨user.id, hactive, .inr (.inr ⟨t, hext.decoded t hdecoded, hn, hid.symm⟩)⟩
    exact htouch.bind fun q₈ _ _ heq => sees_pure (heq ▸ hactive)

theorem sees_requireRoles {roles : List Role} {token : Option Token} :
    Sees q (requireRoles cfg roles token) fun q' u => u.id ∈ q'.active := by
  unfold requireRoles
  refine sees_getCurrentUser.bind fun q₁ user _ hactive => ?_
  exact (plain_require _ _).then fun q₂ _ hext => sees_pure (hext.active _ hactive)

/-- A token is signed for a session of the user. -/
theorem sees_mint {type : TokenType} {sub n : Nat} {ttl : Int} (htype : type ≠ .mfa)
    (hactive : sub ∈ q.active) (howns : q.Owns n sub) :
    Sees q (send (.mint type sub (some n) ttl)) fun q' _ => q'.Owns n sub := by
  refine sees_send ?_ fun t _ => ⟨Sight.extends_opens q n sub, howns.opens⟩
  cases type with
  | access => exact ⟨hactive, n, rfl, howns⟩
  | refresh => exact ⟨n, rfl, howns⟩
  | mfa => exact absurd rfl htype

theorem sees_registerRefreshJti {userId jti : Nat} :
    Sees q (registerRefreshJti cfg userId jti) fun q' _ => q' = q :=
  sees_of_sends (sends_send (sighting_blind_setex rfl _ _))

theorem sees_issueTokens {user : User} (hactive : user.id ∈ q.active) :
    Sees q (issueTokens cfg user) fun _ _ => True := by
  unfold issueTokens
  have hfresh : Sees q newSessionId fun q' n => n ∈ q'.drawn :=
    sees_send trivial fun _ _ => ⟨⟨fun _ h => h, fun _ h => h, fun _ h => h⟩, List.mem_cons_self⟩
  refine hfresh.bind fun q₁ n h₁ hdrawn => ?_
  have hactive₁ := h₁.active _ hactive
  refine (sees_mint (by decide) hactive₁ (.inl hdrawn)).bind fun q₂ access h₂ howns₂ => ?_
  have hactive₂ := h₂.active _ hactive₁
  refine (sees_mint (by decide) hactive₂ howns₂).bind fun q₃ refresh h₃ howns₃ => ?_
  refine sees_registerRefreshJti.bind fun q₄ _ _ heq => ?_
  subst heq
  refine (sees_touchSession ?_).bind fun q₅ _ _ _ => sees_pure trivial
  intro sid hsid
  cases hsid
  exact ⟨user.id, h₃.active _ hactive₂, howns₃⟩

theorem sees_completeLogin {user : User} (hactive : user.id ∈ q.active) :
    Sees q (completeLogin cfg user) fun _ _ => True :=
  (sees_issueTokens hactive).bind fun _ _ _ _ => sees_pure trivial

/-! ## The handlers -/

theorem sees_authenticateLocal {email password : String} :
    Sees q (authenticateLocal prims email password) fun q' result =>
      ∀ u, result = .ok u → u.id ∈ q'.active := by
  unfold authenticateLocal
  refine sees_selectUsers.bind fun q₁ rows _ hrows => ?_
  refine sees_scalarOneOrNone.bind fun q₂ row h₂ hrow => ?_
  split
  · exact sees_pure (by simp)
  · rename_i user
    split_ifs with hhash hinactive hpassword
    · exact sees_pure (by simp)
    · exact sees_pure (by simp)
    · exact sees_pure (by simp)
    · refine sees_pure fun u hu => ?_
      cases hu
      have hactive : user.isActive = true := by simpa using hinactive
      exact h₂.active _ (hrows user (hrow user rfl) hactive)

theorem plain_login (email password ip : String) : Plain (login prims cfg email password ip) := by
  intro q
  unfold login
  refine (plain_checkBruteForce _ ip).then fun q₁ _ _ => ?_
  refine sees_authenticateLocal.bind fun q₂ result _ hresult => ?_
  unfold loginAs
  split
  · exact (plain_recordLoginFailure _ ip).then fun q₃ _ _ => sees_raise _
  · rename_i user
    refine (plain_clearLoginFailures _ ip).then fun q₃ _ h₃ => ?_
    split
    · have hmint : Sees q₃ (createMfaToken user) fun _ _ => True :=
        sees_send rfl fun _ _ => ⟨.refl _, trivial⟩
      exact hmint.bind fun q₄ _ _ _ => sees_pure trivial
    · exact sees_completeLogin (h₃.active _ (hresult user rfl))

theorem plain_requireCode (identity ip : String) (accepted : Bool) :
    Plain (requireCode cfg identity ip accepted) := by
  unfold requireCode
  split
  · exact plain_pure _
  · exact (plain_recordLoginFailure identity ip).bind fun _ => plain_raise _

theorem plain_loginSecondFactor (mfaToken : Token) (code ip : String) :
    Plain (loginSecondFactor prims cfg mfaToken code ip) := by
  intro q
  unfold loginSecondFactor
  refine sees_decodeToken.bind fun q₁ _ _ _ => (plain_require _ _).then fun q₂ _ _ => ?_
  refine sees_selectUser.bind fun q₃ row _ hrow => ?_
  refine sees_requireActive.bind fun q₄ user h₄ huser => ?_
  have hactive : user.id ∈ q₄.active := h₄.active _ ((hrow user huser.1).2 huser.2)
  refine (plain_require _ _).then fun q₅ _ h₅ => (plain_checkBruteForce _ ip).then fun q₆ _ h₆ => ?_
  refine (plain_consumeTotp user code).then fun q₇ accepted h₇ => ?_
  refine (plain_requireCode _ ip accepted).then fun q₈ _ h₈ => ?_
  refine (plain_clearLoginFailures _ ip).then fun q₉ _ h₉ => ?_
  exact sees_completeLogin (((((h₅.trans h₆).trans h₇).trans h₈).trans h₉).active _ hactive)

theorem plain_requireSession (t : Token) (active : Bool) : Plain (requireSession cfg t active) := by
  unfold requireSession
  split
  · exact plain_pure _
  · exact (plain_revokeRefreshJti _ _).bind fun _ => plain_raise _

theorem sees_checkRefresh {t : Token} :
    Sees q (checkRefresh cfg t) fun q' u => t ∈ q'.decoded ∧ u.id = t.sub ∧ u.id ∈ q'.active := by
  unfold checkRefresh
  refine sees_decodeToken.bind fun q₁ _ _ hdecoded => (plain_require _ _).then fun q₂ _ h₂ => ?_
  refine (plain_require _ _).then fun q₃ _ h₃ => ?_
  refine (plain_isRefreshJtiValid t.sub t.jti).then fun q₄ valid h₄ => ?_
  refine (plain_require _ _).then fun q₅ _ h₅ => ?_
  refine (plain_isSessionActive t.sid).then fun q₆ active h₆ => ?_
  refine (plain_requireSession t active).then fun q₇ _ h₇ => ?_
  refine sees_selectUser.bind fun q₈ row h₈ hrow => ?_
  refine Obeys.mono sees_requireActive fun q₉ user h => ?_
  obtain ⟨h₉, hfound, hactive⟩ := h
  obtain ⟨hid, hseen⟩ := hrow user hfound
  have hext := ((((((h₂.trans h₃).trans h₄).trans h₅).trans h₆).trans h₇).trans h₈).trans h₉
  exact ⟨h₉, hext.decoded t hdecoded, hid, h₉.active _ (hseen hactive)⟩

/-- The session a refresh goes on with is the user's, or is opened for it. -/
theorem sees_adoptSession {t : Token} {userId : Nat} (hdecoded : t ∈ q.decoded)
    (hid : userId = t.sub) : Sees q (adoptSession t.sid) fun q' n => q'.Owns n userId := by
  unfold adoptSession
  split
  · rename_i sid hsid
    exact sees_pure (.inr (.inr ⟨t, hdecoded, hsid, hid.symm⟩))
  · exact sees_send trivial fun _ _ =>
      ⟨⟨fun _ h => h, fun _ h => h, fun _ h => h⟩, .inl List.mem_cons_self⟩

theorem sees_rotate {t : Token} {user : User} {n : Nat} (hactive : user.id ∈ q.active)
    (howns : q.Owns n user.id) : Sees q (rotate cfg t user n) fun _ _ => True := by
  unfold rotate
  refine sees_revokeRefreshJti.bind fun q₁ _ _ heq => ?_
  subst heq
  refine (sees_mint (by decide) hactive howns).bind fun q₂ newRefresh h₂ howns₂ => ?_
  have hactive₂ := h₂.active _ hactive
  refine sees_registerRefreshJti.bind fun q₃ _ _ heq => ?_
  subst heq
  refine (sees_touchSession fun sid hsid => ?_).bind fun q₄ _ _ heq => ?_
  · cases hsid
    exact ⟨user.id, hactive₂, howns₂⟩
  · subst heq
    exact (sees_mint (by decide) hactive₂ howns₂).bind fun q₅ access _ _ => sees_pure trivial

theorem plain_refresh (body cookie : Option Token) : Plain (refresh cfg body cookie) := by
  intro q
  unfold refresh
  split
  · exact sees_raise _
  · rename_i t _
    refine sees_checkRefresh.bind fun q₁ user _ hchecked => ?_
    obtain ⟨hdecoded, hid, hactive⟩ := hchecked
    refine (sees_adoptSession hdecoded hid).bind fun q₂ n h₂ howns => ?_
    exact sees_rotate (h₂.active _ hactive) howns

theorem plain_logout (body cookie : Option Token) : Plain (logout cfg body cookie) := by
  unfold logout
  split
  · exact plain_pure _
  · rename_i t _
    refine (plain_decode t).bind fun ok => ?_
    split
    · unfold logoutWith
      refine Plain.bind ?_ fun _ => (plain_endSession _).bind fun _ => plain_pure _
      unfold revokeOwn
      split
      · exact plain_revokeRefreshJti _ _
      · exact plain_pure _
    · exact plain_pure _

theorem plain_getCurrentUser (token : Option Token) : Plain (getCurrentUser cfg token) :=
  Sees.plain fun _ => sees_getCurrentUser

theorem plain_replacePassword (user : User) (new : String) :
    Plain (replacePassword prims user new) := by
  unfold replacePassword
  refine (plain_hashPassword new).bind fun hash => (plain_commitUser rfl).bind fun _ => ?_
  exact (plain_revokeAllRefreshTokens user.id).bind fun _ => plain_pure _

theorem plain_changePassword (token : Option Token) (current new : String) :
    Plain (changePassword prims cfg token current new) := by
  intro q
  unfold changePassword
  refine sees_getCurrentUser.bind fun q₁ user _ hactive => ?_
  refine (plain_require _ _).then fun q₂ _ h₂ => (plain_require _ _).then fun q₃ _ h₃ => ?_
  refine (plain_require _ _).then fun q₄ _ h₄ => ?_
  refine (plain_replacePassword user new).then fun q₅ _ h₅ => ?_
  exact sees_completeLogin ((((h₂.trans h₃).trans h₄).trans h₅).active _ hactive)

theorem plain_forgotPassword (email ip : String) : Plain (forgotPassword prims cfg email ip) := by
  unfold forgotPassword
  refine (plain_checkBruteForce _ ip).bind fun _ => (plain_recordLoginFailure _ ip).bind fun _ => ?_
  refine (Sees.plain fun _ => sees_selectUsers).bind fun rows => ?_
  refine (Sees.plain fun _ => sees_scalarOneOrNone).bind fun row => ?_
  split
  · exact plain_pure _
  · split
    · exact plain_pure _
    · rename_i user _
      refine plain_secret.bind fun token => ?_
      refine (plain_send (sighting_blind_setex rfl _ _)).bind fun _ => ?_
      have hmail : Plain (send (.mailLink user.id token)) :=
        plain_send fun _ => ⟨trivial, fun _ => rfl⟩
      exact hmail.bind fun _ => plain_pure _

theorem plain_resetPassword (link : Nat) (new : String) : Plain (resetPassword prims link new) := by
  unfold resetPassword
  have hget : Plain (send (.get (.pwreset link))) := plain_send fun _ => ⟨trivial, fun _ => rfl⟩
  refine hget.bind fun owner => ?_
  refine (plain_of_sends (sends_requireLink owner)).bind fun userId => ?_
  refine (plain_delete _).bind fun _ => ?_
  unfold resetFor
  refine (plain_selectUser userId).bind fun row => ?_
  refine (plain_of_sends (sends_requireActive row _)).bind fun user => ?_
  exact (plain_replacePassword user new).bind fun _ => plain_pure _

theorem plain_totpSetup (token : Option Token) : Plain (totpSetup prims cfg token) := by
  unfold totpSetup
  refine (plain_getCurrentUser token).bind fun user => (plain_require _ _).bind fun _ => ?_
  refine (plain_require _ _).bind fun _ => plain_secret.bind fun random => ?_
  exact (plain_commitUser rfl).bind fun _ => plain_pure _

theorem plain_totpEnable (token : Option Token) (code : String) :
    Plain (totpEnable prims cfg token code) := by
  unfold totpEnable
  refine (plain_getCurrentUser token).bind fun user => (plain_require _ _).bind fun _ => ?_
  refine (plain_consumeTotp user code).bind fun accepted => (plain_require _ _).bind fun _ => ?_
  exact (plain_commitUser rfl).bind fun _ => plain_pure _

theorem plain_totpDisable (token : Option Token) (password code : String) :
    Plain (totpDisable prims cfg token password code) := by
  unfold totpDisable
  refine (plain_getCurrentUser token).bind fun user => (plain_require _ _).bind fun _ => ?_
  refine (plain_require _ _).bind fun _ => (plain_consumeTotp user code).bind fun accepted => ?_
  refine (plain_require _ _).bind fun _ => ?_
  exact (plain_commitUser rfl).bind fun _ => plain_pure _

theorem plain_socket (token : Option Token) : Plain (socket token) := by
  unfold socket
  split
  · exact plain_pure _
  · rename_i t
    refine (plain_decode t).bind fun ok => ?_
    split
    · unfold authenticateSocket
      split
      · exact (plain_isSessionActive t.sid).bind fun _ => plain_pure _
      · exact plain_pure _
    · exact plain_pure _

theorem Plain.obeys (hp : Plain p) (q : Sight) : Obeys sighting (fun _ _ => True) q p :=
  Obeys.mono (hp q) fun _ _ _ => trivial

theorem plain_flushUser (loaded left : User) : Plain (flushUser loaded left) :=
  (Sees.plain fun _ => sees_selectUsers).bind fun _ =>
    (plain_require _ _).bind fun _ => plain_pure _

/-- The two handlers go from the flush to the commit in the same way; what follows the
commit signs nothing. -/
theorem sighting_guarded (q : Sight) (loaded left : User) {rest : Handler α} (hrest : Plain rest) :
    Obeys sighting (fun _ _ => True) q (do
      let users ← flushUser loaded left
      assertAdminRemains users
      commitUser loaded left
      rest) := by
  simp only [obeys_bind]
  refine Obeys.mono (plain_flushUser loaded left q) fun q₁ users _ => ?_
  refine Obeys.mono (plain_require _ _ q₁) fun q₂ _ _ => ?_
  exact obeys_commitUser q₂ fun q₃ => hrest.obeys q₃

theorem plain_requireUser (row : Option User) : Plain (requireUser row) :=
  plain_of_sends (sends_requireUser row)

theorem plain_hashIfSent (password : Option String) : Plain (hashIfSent prims password) := by
  unfold hashIfSent
  split
  · exact plain_pure _
  · exact (plain_hashPassword _).bind fun _ => plain_pure _

theorem plain_requireRole (user : User) (name : Option String) : Plain (requireRole user name) :=
  plain_of_sends (sends_requireRole user name)

theorem plain_endSessionsIf (condition : Bool) (userId : Nat) :
    Plain (endSessionsIf condition userId) :=
  plain_of_sends (sends_endSessionsIf (fun _ => ⟨trivial, fun _ => rfl⟩) sighting_blind_delete
    condition)

theorem plain_requireRoles (roles : List Role) (token : Option Token) :
    Plain (requireRoles cfg roles token) := Sees.plain fun _ => sees_requireRoles

theorem sighting_updateUser (token : Option Token) (userId : Nat) (data : UserUpdate) :
    Obeys sighting (fun _ _ => True) q (updateUser prims cfg token userId data) := by
  simp only [updateUser, applyUpdate, obeys_bind]
  refine Obeys.mono (plain_requireRoles _ token q) fun q₁ actor _ => ?_
  refine Obeys.mono (plain_selectUser userId q₁) fun q₂ row _ => ?_
  refine Obeys.mono (plain_requireUser row q₂) fun q₃ user _ => ?_
  refine Obeys.mono (plain_hashIfSent data.password q₃) fun q₄ hash _ => ?_
  refine Obeys.mono (plain_requireRole user data.roleName q₄) fun q₅ role _ => ?_
  refine Obeys.mono (plain_require _ _ q₅) fun q₆ _ _ => ?_
  refine Obeys.mono (plain_require _ _ q₆) fun q₇ _ _ => ?_
  refine Obeys.mono (plain_require _ _ q₇) fun q₈ _ _ => ?_
  have hrest : Plain (do
      endSessionsIf (data.password.isSome || data.reset2fa == some true) user.id
      pure (Answer.user { data.apply user hash with role })) :=
    (plain_endSessionsIf _ _).bind fun _ => plain_pure _
  simpa only [obeys_bind] using sighting_guarded q₈ user { data.apply user hash with role } hrest

theorem sighting_deleteUser (token : Option Token) (userId : Nat) :
    Obeys sighting (fun _ _ => True) q (deleteUser cfg token userId) := by
  simp only [deleteUser, obeys_bind]
  refine Obeys.mono (plain_requireRoles _ token q) fun q₁ actor _ => ?_
  refine Obeys.mono (plain_require _ _ q₁) fun q₂ _ _ => ?_
  refine Obeys.mono (plain_selectUser userId q₂) fun q₃ row _ => ?_
  refine Obeys.mono (plain_requireUser row q₃) fun q₄ user _ => ?_
  simpa only [obeys_bind] using sighting_guarded q₄ user { user with isActive := false }
    (plain_pure Answer.noContent)

/-- Every handler keeps to what it has found. -/
theorem handle_sighting (prims : Primitives) (cfg : Settings) (call : AuthCall) :
    Obeys sighting (fun _ _ => True) {} (handle prims cfg call) := by
  cases call with
  | login email password ip => exact (plain_login email password ip).obeys _
  | loginSecondFactor mfaToken code ip => exact (plain_loginSecondFactor mfaToken code ip).obeys _
  | refresh body cookie => exact (plain_refresh body cookie).obeys _
  | logout body cookie => exact (plain_logout body cookie).obeys _
  | authenticated token =>
    exact ((plain_getCurrentUser token).bind fun _ => plain_pure _).obeys _
  | changePassword token current new => exact (plain_changePassword token current new).obeys _
  | forgotPassword email ip => exact (plain_forgotPassword email ip).obeys _
  | resetPassword link new => exact (plain_resetPassword link new).obeys _
  | totpSetup token => exact (plain_totpSetup token).obeys _
  | totpEnable token code => exact (plain_totpEnable token code).obeys _
  | totpDisable token password code => exact (plain_totpDisable token password code).obeys _
  | updateUser token userId data => exact sighting_updateUser token userId data
  | deleteUser token userId => exact sighting_deleteUser token userId
  | socket token => exact (plain_socket token).obeys _

end Royd.Auth
