/-
Royd.Auth.Ledger — the discipline every handler keeps.

A call's `Ledger` is what its commands and their replies tell about it so
far: the tokens that decoded for it, the sessions it found active, the random
values it drew, the sessions it ended, and how far it got with the refresh
token it presents. The discipline says which commands a call may send, given
its ledger:

* a session is touched only if the call found it active or has just opened
  it, and ended only on a token of it that decoded;
* a refresh token is registered only by the call that signed it, once, and a
  refresh signs one only after it has deleted the token it presents;
* a reset link is written only under a value the call drew itself.

That every handler keeps it is proved in `Royd.Auth.Discipline`; what it
means for any number of calls at once is what the rest of the development is
about.
-/
import Royd.Auth.Endpoints

namespace Royd.Auth

open Programs

/-- How far a call has got with the refresh token it presents, and with the
one it signs. -/
inductive Phase where
  | fresh
  | checked
  | spent
  | minted (t : Token)
  | registered (t : Token)
  deriving DecidableEq, Repr

/-- What a call has seen and done. -/
structure Ledger where
  decoded : List Token := []
  live : List Nat := []
  drawn : List Nat := []
  ended : List Nat := []
  phase : Phase := .fresh
  deriving DecidableEq, Repr

/-- The session a key is about. -/
def Key.session? : Key → Option Nat
  | .sessionSeen sid => some sid
  | _ => none

/-- The key under which a refresh token is active. -/
def Token.activeKey (t : Token) : Key := .refreshActive t.sub t.jti

namespace Ledger

/-! ## What a command adds -/

/-- A key was found. -/
def found (own : Option Token) (q : Ledger) : Key → Ledger
  | .sessionSeen sid => { q with live := sid :: q.live }
  | .refreshActive userId jti =>
    if q.phase = .fresh ∧ own.map Token.activeKey = some (.refreshActive userId jti) then
      { q with phase := .checked }
    else q
  | _ => q

/-- A key was written. -/
def written (q : Ledger) : Key → Ledger
  | .refreshActive .. =>
    match q.phase with
    | .minted t => { q with phase := .registered t }
    | _ => q
  | _ => q

@[simp] theorem found_ended (own : Option Token) (q : Ledger) (k : Key) :
    (q.found own k).ended = q.ended := by
  unfold found
  split
  · rfl
  · split
    · rfl
    · rfl
  · rfl

@[simp] theorem found_drawn (own : Option Token) (q : Ledger) (k : Key) :
    (q.found own k).drawn = q.drawn := by
  unfold found
  split
  · rfl
  · split
    · rfl
    · rfl
  · rfl

@[simp] theorem found_decoded (own : Option Token) (q : Ledger) (k : Key) :
    (q.found own k).decoded = q.decoded := by
  unfold found
  split
  · rfl
  · split
    · rfl
    · rfl
  · rfl

@[simp] theorem written_decoded (q : Ledger) (k : Key) : (q.written k).decoded = q.decoded := by
  unfold written
  split
  · split
    · rfl
    · rfl
  · rfl

@[simp] theorem written_ended (q : Ledger) (k : Key) : (q.written k).ended = q.ended := by
  unfold written
  split
  · split
    · rfl
    · rfl
  · rfl

@[simp] theorem written_drawn (q : Ledger) (k : Key) : (q.written k).drawn = q.drawn := by
  unfold written
  split
  · split
    · rfl
    · rfl
  · rfl

@[simp] theorem written_live (q : Ledger) (k : Key) : (q.written k).live = q.live := by
  unfold written
  split
  · split
    · rfl
    · rfl
  · rfl

/-- The own token is spent by the deletion of its key. -/
def phaseAfterDelete (own : Option Token) (ks : List Key) (p : Phase) : Phase :=
  if p = .checked ∧ own.any (fun t => ks.contains t.activeKey) then .spent else p

/-- Keys were deleted. -/
def deleted (own : Option Token) (q : Ledger) (ks : List Key) : Ledger :=
  { q with
    ended := ks.filterMap Key.session? ++ q.ended
    phase := phaseAfterDelete own ks q.phase }

/-- The ledger after a command; `own` is the refresh token the call
presents. -/
def note (own : Option Token) (q : Ledger) : (c : Command) → c.Reply → Ledger
  | .decode t, ok => if ok then { q with decoded := t :: q.decoded } else q
  | .mint .refresh .., t => { q with phase := .minted t }
  | .secret, n => { q with drawn := n :: q.drawn }
  | .exists k, ok => if ok then q.found own k else q
  | .setex k .., _ => q.written k
  | .delete ks, _ => q.deleted own ks
  | .mailLink _ token, _ => { q with drawn := q.drawn.filter (· ≠ token) }
  | _, _ => q

/-! ## What may be sent -/

/-- The call found the session active, or opened it. -/
def Holds (q : Ledger) (sid : Nat) : Prop := sid ∈ q.live ∨ sid ∈ q.drawn

/-- A refresh signs a token only once it has spent its own. -/
def MaySign (own : Option Token) (q : Ledger) : Prop :=
  q.phase = if own.isSome then .spent else .fresh

/-- The keys a call may write. -/
def MayWrite (q : Ledger) : Key → Prop
  | .refreshActive userId jti => ∃ t, q.phase = .minted t ∧ t.activeKey = .refreshActive userId jti
  | .refreshBlocked jti => ∃ t ∈ q.decoded, t.jti = jti
  | .sessionSeen sid => q.Holds sid
  | .pwreset token => token ∈ q.drawn
  | _ => True

/-- The lifetimes it may give them. -/
def Lifetime (cfg : Settings) (ttl : Int) : Key → Prop
  | .sessionSeen _ => ttl = idleTimeoutSeconds cfg
  | .pwreset _ => ttl = resetTtlSeconds
  | _ => True

/-- The commands a call may send. -/
def Allows (cfg : Settings) (own : Option Token) (q : Ledger) : Command → Prop
  | .mint .access _ sid _ => ∀ s, sid = some s → q.Holds s
  | .mint .refresh _ sid _ => (∀ s, sid = some s → q.Holds s) ∧ q.MaySign own
  | .mint .mfa _ sid ttl => sid = none ∧ ttl = mfaTtlSeconds
  | .exists (.refreshActive userId jti) =>
    ∃ t ∈ q.decoded, own = some t ∧ t.activeKey = .refreshActive userId jti
  | .setex k ttl _ => q.MayWrite k ∧ Lifetime cfg ttl k
  | .setNx k _ => ∃ userId step, k = .totpUsed userId step
  | .incrExpire ks _ => ∀ k ∈ ks, (∃ identity, k = .loginFailUser identity) ∨ ∃ ip, k = .loginFailIp ip
  | .delete ks => ∀ sid, Key.sessionSeen sid ∈ ks → ∃ t ∈ q.decoded, t.sid = some sid
  | .mailLink _ token => token ∈ q.drawn
  | _ => True

/-- What is known of a reply. -/
def Possible : (c : Command) → c.Reply → Prop
  | .mint type sub sid _, t => t.type = type ∧ t.sub = sub ∧ t.sid = sid
  | .selectUser id, row => ∀ u ∈ row, u.id = id
  | .scanRefresh userId, ks => ∀ k ∈ ks, k.isRefreshOf userId = true
  | _, _ => True

end Ledger

/-- The discipline, for a call that presents the refresh token `own`. -/
def discipline (cfg : Settings) (own : Option Token) : Monitor Command Command.Reply Ledger where
  allows := Ledger.Allows cfg own
  possible := Ledger.Possible
  next := Ledger.note own

/-! ## What an answer means -/

namespace AuthCall

/-- The refresh token a call would spend. -/
def spends : AuthCall → Option Token
  | .refresh body cookie => cookie <|> body
  | _ => none

/-- The token whose session a call needs. -/
def credential : AuthCall → Option Token
  | .refresh body cookie => cookie <|> body
  | .authenticated token => token
  | .changePassword token .. => token
  | .totpSetup token => token
  | .totpEnable token _ => token
  | .totpDisable token .. => token
  | .updateUser token .. => token
  | .deleteUser token _ => token
  | .socket token => token
  | _ => none

/-- The refresh token whose session a call ends. -/
def logsOut : AuthCall → Option Token
  | .logout body cookie => cookie <|> body
  | _ => none

end AuthCall

namespace Ledger

/-- The token decoded, and its session was active. -/
def Admits (q : Ledger) (t : Token) : Prop := t ∈ q.decoded ∧ ∀ sid, t.sid = some sid → sid ∈ q.live

/-- The session of the token was ended, if the token is one that can end it. -/
def EndsSessionOf (q : Ledger) (t : Token) : Prop :=
  t ∈ q.decoded → t.type = .refresh → ∀ sid, t.sid = some sid → sid ∈ q.ended

/-- What a call that answered has been through. -/
structure Answered (call : AuthCall) (q : Ledger) (a : Answer) : Prop where
  admits : a ≠ .socketClosed → ∀ t, call.credential = some t → q.Admits t
  spent : ∀ t, call.spends = some t → ∃ r, q.phase = .registered r
  ended : ∀ t, call.logsOut = some t → q.EndsSessionOf t

end Ledger

end Royd.Auth
