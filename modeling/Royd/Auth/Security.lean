/-
Royd.Auth.Security — `core/security.py`, `core/totp.py` and the parts of
`services/auth_service.py` that sign a user in.

Every `await` on Redis or the database is one command, so each function is
the sequence of commands it sends. What bcrypt and HMAC compute is left to
`Primitives`; that a Python value is empty (`not user.password_hash`) is
`falsy`.
-/
import Royd.Auth.Server

namespace Royd.Auth

open ExpiringStore Programs

/-- What the third-party and text functions compute. -/
structure Primitives where
  /-- `bcrypt.hashpw`, with the salt. -/
  hashpw : String → Nat → String
  /-- `bcrypt.checkpw`; `false` where it raises a ValueError. -/
  checkpw : String → String → Bool
  /-- `_code_at`. -/
  codeAt : String → Int → String
  /-- `new_secret`, from the random bytes. -/
  base32 : Nat → String
  /-- `str.lower`. -/
  lower : String → String
  /-- `str.isdigit` for one character. -/
  isDigit : Char → Bool

variable (prims : Primitives) (cfg : Settings)

/-- `not text`, for a text that may be missing. -/
def falsy (text : Option String) : Bool := text.getD "" == ""

/-- `if not user or not user.is_active: raise error`. -/
def requireActive (user : Option User) (error : Failure) : Handler User :=
  match user with
  | none => .raise error
  | some u => if u.isActive then pure u else .raise error

/-- `scalar_one_or_none`. The reference id in the text of the 503 is left
out. -/
def scalarOneOrNone (rows : List User) : Handler (Option User) :=
  match rows with
  | [] => pure none
  | [u] => pure (some u)
  | _ => .raise (httpError 503 "Ma'lumotlar bazasi vaqtincha mavjud emas")

/-- `users_email_key` violated, as the exception handler reports it. -/
def emailConflict : Failure := httpError 409 "Bu email allaqachon ro'yxatdan o'tgan"

/-- `db.commit()`, when one user was changed. -/
def commitUser (loaded left : User) : Handler Unit := do
  let saved ← send (.commitUser loaded left)
  require saved emailConflict

/-! ## Passwords -/

/-- `hash_password`. -/
def hashPassword (plain : String) : Handler String := do
  let salt ← send .secret
  pure (prims.hashpw plain salt)

/-- `verify_password`. -/
def verifyPassword (plain hashed : String) : Bool := prims.checkpw plain hashed

/-! ## Tokens -/

/-- `new_session_id`. -/
def newSessionId : Handler Nat := send .secret

/-- `create_access_token`. -/
def createAccessToken (user : User) (sessionId : Nat) : Handler Token :=
  send (.mint .access user.id (some sessionId) (cfg.jwtAccessTtlMinutes * 60))

/-- The lifetime of a refresh token, and of the keys kept about it. -/
def refreshTtlSeconds : Int := cfg.jwtRefreshTtlDays * 24 * 3600

/-- `create_refresh_token`. -/
def createRefreshToken (user : User) (sessionId : Nat) : Handler Token :=
  send (.mint .refresh user.id (some sessionId) (refreshTtlSeconds cfg))

/-- The lifetime of an `mfa_token`. -/
def mfaTtlSeconds : Int := 5 * 60

/-- `create_mfa_token`. -/
def createMfaToken (user : User) : Handler Token :=
  send (.mint .mfa user.id none mfaTtlSeconds)

/-- `decode_token`. -/
def decodeToken (token : Token) : Handler Unit := do
  let ok ← send (.decode token)
  require ok (httpError 401 "Invalid or expired token" [.wwwAuthenticate])

/-- `register_refresh_jti`. -/
def registerRefreshJti (userId jti : Nat) : Handler Unit :=
  send (.setex (.refreshActive userId jti) (refreshTtlSeconds cfg) mark)

/-- `revoke_refresh_jti`. -/
def revokeRefreshJti (userId jti : Nat) : Handler Unit := do
  send (.delete [.refreshActive userId jti])
  send (.setex (.refreshBlocked jti) (refreshTtlSeconds cfg) mark)

/-- `is_refresh_jti_valid`. -/
def isRefreshJtiValid (userId jti : Nat) : Handler Bool := do
  let blocked ← send (.exists (.refreshBlocked jti))
  if blocked then pure false else send (.exists (.refreshActive userId jti))

/-- `revoke_all_refresh_tokens`. -/
def revokeAllRefreshTokens (userId : Nat) : Handler Nat := do
  let keys ← send (.scanRefresh userId)
  if keys.isEmpty then pure 0 else do
    send (.delete keys)
    pure keys.length

/-! ## Sessions -/

/-- `session_idle_timeout_minutes`, in seconds. -/
def idleTimeoutSeconds : Int := cfg.sessionIdleTimeoutMinutes * 60

/-- `touch_session`. -/
def touchSession (sessionId : Option Nat) : Handler Unit :=
  match sessionId with
  | none => pure ()
  | some sid => send (.setex (.sessionSeen sid) (idleTimeoutSeconds cfg) mark)

/-- `is_session_active`. A token from before sessions had ids is active. -/
def isSessionActive (sessionId : Option Nat) : Handler Bool :=
  match sessionId with
  | none => pure true
  | some sid => send (.exists (.sessionSeen sid))

/-- `end_session`. -/
def endSession (sessionId : Option Nat) : Handler Unit :=
  match sessionId with
  | none => pure ()
  | some sid => send (.delete [.sessionSeen sid])

/-- `get_current_user`. -/
def getCurrentUser (token : Option Token) : Handler User :=
  match token with
  | none => .raise (httpError 401 "Not authenticated" [.wwwAuthenticate])
  | some t => do
    decodeToken t
    require (t.type == .access) (httpError 401 "Invalid token type")
    require (t.sub != 0) (httpError 401 "Invalid token")
    let active ← isSessionActive t.sid
    require active (httpError 401 "Session expired due to inactivity" [.wwwAuthenticate])
    let row ← send (.selectUser t.sub)
    let user ← requireActive row (httpError 401 "User inactive")
    touchSession cfg t.sid
    pure user

/-- `require_roles`. -/
def requireRoles (roles : List Role) (token : Option Token) : Handler User := do
  let user ← getCurrentUser cfg token
  require (user.hasRole roles) (httpError 403 "Ruxsat yetarli emas")
  pure user

/-! ## Brute force -/

/-- The delay of an attempt, once an account has failed too often. -/
def backoff (failures : Option Nat) : Handler Unit :=
  match failures with
  | none => pure ()
  | some n =>
    if cfg.loginMaxAttemptsPerUser ≤ n then
      send (.sleep (min (Nat.pow 2 (n - cfg.loginMaxAttemptsPerUser)) 30))
    else pure ()

/-- `check_brute_force`. -/
def checkBruteForce (identity ip : String) : Handler Unit := do
  let counts ← send (.mget (.loginFailUser identity) (.loginFailIp ip))
  require (!counts.2.any (cfg.loginMaxAttemptsPerIp ≤ ·))
    (httpError 429 "Juda ko'p urinish. Keyinroq qayta urinib ko'ring."
      [.retryAfter cfg.loginWindowSeconds])
  require (!counts.1.any (cfg.loginLockoutAttempts ≤ ·))
    (httpError 429 ("Akkaunt vaqtincha bloklandi: juda ko'p noto'g'ri urinish. "
      ++ "Keyinroq qayta urinib ko'ring.") [.retryAfter cfg.loginWindowSeconds])
  backoff cfg counts.1

/-- `record_login_failure`. -/
def recordLoginFailure (identity ip : String) : Handler Unit :=
  send (.incrExpire [.loginFailUser identity, .loginFailIp ip] cfg.loginWindowSeconds)

/-- `clear_login_failures`. -/
def clearLoginFailures (identity ip : String) : Handler Unit :=
  send (.delete [.loginFailUser identity, .loginFailIp ip])

/-! ## One-time passwords -/

def stepSeconds : Int := 30
def digits : Nat := 6
def driftSteps : Int := 1

/-- `code.strip().replace(" ", "")`. -/
def normalCode (code : String) : String :=
  String.ofList ((stripChars code.toList).filter (· != ' '))

/-- `matching_step`. `hmac.compare_digest` refuses digits that are not
ASCII, with a TypeError. -/
def matchingStep (secret code : String) (now : Int) : Except Exc (Option Int) :=
  let code := normalCode code
  let nowStep := now / stepSeconds
  if code.length ≠ digits || !code.toList.all prims.isDigit then .ok none
  else if !code.toList.all (·.toNat < 128) then
    .error (.value "comparing strings with non-ASCII characters is not supported")
  else
    .ok ([nowStep - driftSteps, nowStep, nowStep + driftSteps].find? fun step =>
      prims.codeAt secret step == code)

/-- The step of a code, if there is one, is burnt. -/
def burnStep (userId : Nat) (step : Except Exc (Option Int)) : Handler Bool :=
  match step with
  | .error exc => .raise { exc }
  | .ok none => pure false
  | .ok (some step) => send (.setNx (.totpUsed userId step) 120)

/-- `_consume_totp`. -/
def consumeTotp (user : User) (code : String) : Handler Bool :=
  if falsy user.totpSecret then pure false else do
    let now ← send .clock
    burnStep user.id (matchingStep prims (user.totpSecret.getD "") code now)

/-! ## Signing in -/

/-- `authenticate_local`. An `AuthError` is a returned text. The time of the
last login is not kept. -/
def authenticateLocal (email password : String) : Handler (Except String User) := do
  let rows ← send (.selectUsers fun u => u.email == some email)
  let row ← scalarOneOrNone rows
  match row with
  | none => pure (.error "Email yoki parol noto'g'ri")
  | some user =>
    if falsy user.passwordHash then pure (.error "Email yoki parol noto'g'ri")
    else if !user.isActive then pure (.error "Akkaunt faol emas")
    else if !verifyPassword prims password (user.passwordHash.getD "") then
      pure (.error "Email yoki parol noto'g'ri")
    else pure (.ok user)

/-- `issue_tokens`. -/
def issueTokens (user : User) : Handler (Token × Token) := do
  let sessionId ← newSessionId
  let access ← createAccessToken cfg user sessionId
  let refresh ← createRefreshToken cfg user sessionId
  registerRefreshJti cfg user.id refresh.jti
  touchSession cfg (some sessionId)
  pure (access, refresh)

end Royd.Auth
