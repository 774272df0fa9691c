/-
Royd.Auth.Footprints — which commands a function sends.

Most functions are of no interest to most monitors: none of their commands is one
the monitor looks at. So what a function sends is said here once, for any property
`P` of commands that the commands named in its lemma have; a monitor has to look
only at commands.
-/
import Royd.Auth.Endpoints

namespace Royd.Auth

open Programs

variable {prims : Primitives} {cfg : Settings} {P : Command → Prop} {α : Type}

theorem sends_send {c : Command} (h : P c) : Sends P (send c) := sends_issue h

/-! ## Functions that send nothing -/

theorem sends_require (b : Bool) (e : Failure) : Sends P (require b e) := by
  unfold require
  split
  · exact sends_pure _
  · exact sends_raise e

theorem sends_requireActive (row : Option User) (e : Failure) : Sends P (requireActive row e) := by
  unfold requireActive
  split
  · exact sends_raise e
  · split
    · exact sends_pure _
    · exact sends_raise e

theorem sends_requireUser (row : Option User) : Sends P (requireUser row) := by
  unfold requireUser
  split
  · exact sends_raise _
  · exact sends_pure _

theorem sends_requireLink (owner : Option Nat) : Sends P (requireLink owner) := by
  unfold requireLink
  split
  · exact sends_raise _
  · exact sends_pure _

theorem sends_requireRole (user : User) (name : Option String) :
    Sends P (requireRole user name) := by
  unfold requireRole
  split
  · exact sends_pure _
  · split
    · exact sends_raise _
    · exact sends_pure _

theorem sends_scalarOneOrNone (rows : List User) : Sends P (scalarOneOrNone rows) := by
  unfold scalarOneOrNone
  split
  · exact sends_pure _
  · exact sends_pure _
  · exact sends_raise _

/-! ## Tokens and sessions -/

theorem sends_decodeToken {t : Token} (h : P (.decode t)) : Sends P (decodeToken t) :=
  (sends_send h).bind fun _ => sends_require _ _

theorem sends_isSessionActive (h : ∀ n, P (.exists (.sessionSeen n))) (sid : Option Nat) :
    Sends P (isSessionActive sid) := by
  unfold isSessionActive
  split
  · exact sends_pure _
  · exact sends_send (h _)

theorem sends_touchSession (h : ∀ n ttl v, P (.setex (.sessionSeen n) ttl v)) (sid : Option Nat) :
    Sends P (touchSession cfg sid) := by
  unfold touchSession
  split
  · exact sends_pure _
  · exact sends_send (h ..)

theorem sends_endSession (h : ∀ n, P (.delete [.sessionSeen n])) (sid : Option Nat) :
    Sends P (endSession sid) := by
  unfold endSession
  split
  · exact sends_pure _
  · exact sends_send (h _)

theorem sends_isRefreshJtiValid {userId jti : Nat} (hblocked : P (.exists (.refreshBlocked jti)))
    (hactive : P (.exists (.refreshActive userId jti))) :
    Sends P (isRefreshJtiValid userId jti) := by
  refine (sends_send hblocked).bind fun blocked => ?_
  split
  · exact sends_pure _
  · exact sends_send hactive

theorem sends_revokeRefreshJti {userId jti : Nat}
    (hdelete : P (.delete [.refreshActive userId jti]))
    (hblock : ∀ ttl v, P (.setex (.refreshBlocked jti) ttl v)) :
    Sends P (revokeRefreshJti cfg userId jti) :=
  (sends_send hdelete).bind fun _ => sends_send (hblock ..)

theorem sends_revokeAllRefreshTokens {userId : Nat} (hscan : P (.scanRefresh userId))
    (hdelete : ∀ ks, P (.delete ks)) : Sends P (revokeAllRefreshTokens userId) := by
  refine (sends_send hscan).bind fun keys => ?_
  split
  · exact sends_pure _
  · exact (sends_send (hdelete keys)).bind fun _ => sends_pure _

theorem sends_endSessionsIf {userId : Nat} (hscan : P (.scanRefresh userId))
    (hdelete : ∀ ks, P (.delete ks)) (condition : Bool) :
    Sends P (endSessionsIf condition userId) := by
  unfold endSessionsIf
  split
  · exact (sends_revokeAllRefreshTokens hscan hdelete).bind fun _ => sends_pure _
  · exact sends_pure _

theorem sends_getCurrentUser (hdecode : ∀ t, P (.decode t))
    (hexists : ∀ n, P (.exists (.sessionSeen n))) (hselect : ∀ id, P (.selectUser id))
    (htouch : ∀ n ttl v, P (.setex (.sessionSeen n) ttl v)) (token : Option Token) :
    Sends P (getCurrentUser cfg token) := by
  unfold getCurrentUser
  split
  · exact sends_raise _
  · rename_i t
    refine (sends_decodeToken (hdecode t)).bind fun _ => (sends_require _ _).bind fun _ => ?_
    refine (sends_require _ _).bind fun _ => (sends_isSessionActive hexists _).bind fun active => ?_
    refine (sends_require _ _).bind fun _ => (sends_send (hselect _)).bind fun row => ?_
    refine (sends_requireActive row _).bind fun user => ?_
    exact (sends_touchSession htouch t.sid).bind fun _ => sends_pure _

/-! ## Brute force and one-time passwords -/

theorem sends_backoff (h : ∀ n, P (.sleep n)) (failures : Option Nat) :
    Sends P (backoff cfg failures) := by
  unfold backoff
  split
  · exact sends_pure _
  · split
    · exact sends_send (h _)
    · exact sends_pure _

theorem sends_checkBruteForce {identity ip : String}
    (hread : P (.mget (.loginFailUser identity) (.loginFailIp ip))) (hsleep : ∀ n, P (.sleep n)) :
    Sends P (checkBruteForce cfg identity ip) := by
  refine (sends_send hread).bind fun counts => (sends_require _ _).bind fun _ => ?_
  exact (sends_require _ _).bind fun _ => sends_backoff hsleep _

theorem sends_consumeTotp {user : User} (hclock : P .clock)
    (hmark : ∀ step, P (.setNx (.totpUsed user.id step) 120)) (code : String) :
    Sends P (consumeTotp prims user code) := by
  unfold consumeTotp
  split
  · exact sends_pure _
  · refine (sends_send hclock).bind fun now => ?_
    unfold burnStep
    split
    · exact sends_raise _
    · exact sends_pure _
    · exact sends_send (hmark _)

/-! ## The users table -/

theorem sends_commitUser {loaded left : User} (h : P (.commitUser loaded left)) :
    Sends P (commitUser loaded left) :=
  (sends_send h).bind fun _ => sends_require _ _

theorem sends_flushUser (h : ∀ p, P (.selectUsers p)) (loaded left : User) :
    Sends P (flushUser loaded left) :=
  (sends_send (h _)).bind fun _ => (sends_require _ _).bind fun _ => sends_pure _

theorem sends_hashPassword (h : P .secret) (plain : String) :
    Sends P (hashPassword prims plain) :=
  (sends_send h).bind fun _ => sends_pure _

theorem sends_hashIfSent (h : P .secret) (password : Option String) :
    Sends P (hashIfSent prims password) := by
  unfold hashIfSent
  split
  · exact sends_pure _
  · exact (sends_hashPassword h _).bind fun _ => sends_pure _

end Royd.Auth
