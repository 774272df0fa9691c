/-
Royd.Auth.Endpoints — the endpoints of `api/v1/auth.py`, `update_user` of
`api/v1/users.py` and the handshake of `api/v1/ws.py`.

`handle` is the program of a call. What the browser does with the refresh
cookie on an answer is `cookieEffect`. Audit rows, the texts of mails and the
QR code are left out.
-/
import Royd.Auth.Security

namespace Royd.Auth

open Programs

variable (prims : Primitives) (cfg : Settings)

/-! ## Calls and answers -/

/-- `UserUpdate`. A field that can be cleared is `some none` when it was sent
as null. -/
structure UserUpdate where
  fullName : Option String := none
  email : Option String := none
  roleName : Option String := none
  facultyId : Option (Option Nat) := none
  departmentId : Option (Option Nat) := none
  isGeneralManager : Option Bool := none
  isActive : Option Bool := none
  password : Option String := none
  reset2fa : Option Bool := none
  deriving DecidableEq, Repr

/-- A call of an endpoint: `token` is the bearer token, `body` and `cookie`
are the places a refresh token comes in. -/
inductive AuthCall where
  | login (email password ip : String)
  | loginSecondFactor (mfaToken : Token) (code ip : String)
  | refresh (body cookie : Option Token)
  | logout (body cookie : Option Token)
  /-- An authenticated call: all that its dependency `get_current_user`
  does. -/
  | authenticated (token : Option Token)
  | changePassword (token : Option Token) (currentPassword newPassword : String)
  | forgotPassword (email ip : String)
  | resetPassword (link : Nat) (newPassword : String)
  | totpSetup (token : Option Token)
  | totpEnable (token : Option Token) (code : String)
  | totpDisable (token : Option Token) (password code : String)
  | updateUser (token : Option Token) (userId : Nat) (data : UserUpdate)
  | deleteUser (token : Option Token) (userId : Nat)
  /-- A socket that authenticates. -/
  | socket (token : Option Token)
  deriving DecidableEq, Repr

/-- What a call answers. -/
inductive Answer where
  /-- `LoginResponse` or `TokenPair`. -/
  | tokenPair (access refresh : Token)
  | mfaRequired (mfaToken : Token)
  | user (u : User)
  | totpSecret (secret : String)
  | noContent
  | loggedOut
  | connected (userId : Nat)
  | socketClosed
  deriving DecidableEq, Repr

/-- What a response does to the refresh cookie. -/
inductive CookieEffect where
  | set (token : Token)
  | clear
  | keep
  deriving DecidableEq, Repr

/-- The `Set-Cookie` of a response. -/
def cookieEffect : Except Failure Answer → CookieEffect
  | .ok (.tokenPair _ refresh) => .set refresh
  | .ok .loggedOut => .clear
  | .ok _ => .keep
  | .error e => if e.headers.contains .clearRefreshCookie then .clear else .keep

/-- The refresh cookie after a response. -/
def applyCookie (cookie : Option Token) : CookieEffect → Option Token
  | .set t => some t
  | .clear => none
  | .keep => cookie

/-- `_unauthorized`. -/
def unauthorized (detail : String) : Failure := httpError 401 detail [.clearRefreshCookie]

/-! ## `login` -/

/-- `_complete_login`. -/
def completeLogin (user : User) : Handler Answer := do
  let pair ← issueTokens cfg user
  pure (.tokenPair pair.1 pair.2)

/-- The rest of `login`, once `authenticate_local` is through. -/
def loginAs (identity ip : String) (result : Except String User) : Handler Answer :=
  match result with
  | .error detail => do
    recordLoginFailure cfg identity ip
    .raise (httpError 401 detail)
  | .ok user => do
    clearLoginFailures identity ip
    if user.totpEnabled then do
      let mfaToken ← createMfaToken user
      pure (.mfaRequired mfaToken)
    else completeLogin cfg user

/-- `login`. -/
def login (email password ip : String) : Handler Answer := do
  let identity := prims.lower email
  checkBruteForce cfg identity ip
  let result ← authenticateLocal prims email password
  loginAs cfg identity ip result

/-- `if not await _consume_totp(...)` of `login_second_factor`. -/
def requireCode (identity ip : String) (accepted : Bool) : Handler Unit :=
  if accepted then pure () else do
    recordLoginFailure cfg identity ip
    .raise (httpError 401 "Kod noto'g'ri")

/-- `login_second_factor`. -/
def loginSecondFactor (mfaToken : Token) (code ip : String) : Handler Answer := do
  decodeToken mfaToken
  require (mfaToken.type == .mfa) (httpError 401 "Invalid token type")
  let row ← send (.selectUser mfaToken.sub)
  let user ← requireActive row (httpError 401 "Kirish rad etildi")
  require user.totpEnabled (httpError 401 "Kirish rad etildi")
  let identity := s!"mfa:{user.id}"
  checkBruteForce cfg identity ip
  let accepted ← consumeTotp prims user code
  requireCode cfg identity ip accepted
  clearLoginFailures identity ip
  completeLogin cfg user

/-! ## `refresh` and `logout` -/

/-- The session has gone quiet: the token goes with it. -/
def requireSession (t : Token) (active : Bool) : Handler Unit :=
  if active then pure () else do
    revokeRefreshJti cfg t.sub t.jti
    .raise (unauthorized "Session expired due to inactivity")

/-- `session_id or new_session_id()`. -/
def adoptSession (sessionId : Option Nat) : Handler Nat :=
  match sessionId with
  | some sid => pure sid
  | none => newSessionId

/-- The checks of `refresh`: the token, its session and its user. -/
def checkRefresh (t : Token) : Handler User := do
  decodeToken t
  require (t.type == .refresh) (unauthorized "Invalid token type")
  require (t.sub != 0) (unauthorized "Refresh token invalid or revoked")
  let valid ← isRefreshJtiValid t.sub t.jti
  require valid (unauthorized "Refresh token invalid or revoked")
  let active ← isSessionActive t.sid
  requireSession cfg t active
  let row ← send (.selectUser t.sub)
  requireActive row (unauthorized "User inactive")

/-- The rotation: the token is spent and a new pair is signed. -/
def rotate (t : Token) (user : User) (sessionId : Nat) : Handler Answer := do
  revokeRefreshJti cfg t.sub t.jti
  let newRefresh ← createRefreshToken cfg user sessionId
  registerRefreshJti cfg user.id newRefresh.jti
  touchSession cfg (some sessionId)
  let access ← createAccessToken cfg user sessionId
  pure (.tokenPair access newRefresh)

/-- `refresh`, after `_refresh_token_from`. -/
def refreshWith (t : Token) : Handler Answer := do
  let user ← checkRefresh cfg t
  let sessionId ← adoptSession t.sid
  rotate cfg t user sessionId

/-- `refresh`. The cookie comes before the body. -/
def refresh (body cookie : Option Token) : Handler Answer :=
  match cookie <|> body with
  | none => .raise (unauthorized "Refresh token missing")
  | some t => refreshWith cfg t

/-- `if user_id and jti` of `logout`. -/
def revokeOwn (t : Token) : Handler Unit :=
  if t.sub != 0 then revokeRefreshJti cfg t.sub t.jti else pure ()

/-- `logout`, once there is a refresh token that decodes. -/
def logoutWith (t : Token) : Handler Answer := do
  revokeOwn cfg t
  endSession t.sid
  pure .loggedOut

/-- `logout`. -/
def logout (body cookie : Option Token) : Handler Answer :=
  match cookie <|> body with
  | none => pure .loggedOut
  | some t => do
    let ok ← send (.decode t)
    if ok && t.type == .refresh then logoutWith cfg t else pure .loggedOut

/-! ## Passwords -/

/-- The new password is stored, and every refresh token of the user revoked. -/
def replacePassword (user : User) (newPassword : String) : Handler Unit := do
  let hash ← hashPassword prims newPassword
  commitUser user { user with passwordHash := some hash }
  let _ ← revokeAllRefreshTokens user.id
  pure ()

/-- `change_password`. -/
def changePassword (token : Option Token) (currentPassword newPassword : String) :
    Handler Answer := do
  let user ← getCurrentUser cfg token
  require (!falsy user.passwordHash) (httpError 400 "Bu akkaunt parol bilan kirmaydi")
  require (verifyPassword prims currentPassword (user.passwordHash.getD ""))
    (httpError 400 "Joriy parol noto'g'ri")
  require (currentPassword != newPassword) (httpError 400 "Yangi parol eskisidan farq qilishi kerak")
  replacePassword prims user newPassword
  completeLogin cfg user

/-- `_RESET_TTL_SECONDS`. -/
def resetTtlSeconds : Int := 30 * 60

/-- The rest of `forgot_password`, for the account that was found. -/
def sendResetLink (user : User) : Handler Answer := do
  let token ← send .secret
  send (.setex (.pwreset token) resetTtlSeconds user.id)
  send (.mailLink user.id token)
  pure .noContent

/-- `forgot_password`. -/
def forgotPassword (email ip : String) : Handler Answer := do
  let email := prims.lower email
  let identity := s!"pwreset:{email}"
  checkBruteForce cfg identity ip
  recordLoginFailure cfg identity ip
  let rows ← send (.selectUsers fun u => u.email.map prims.lower == some email)
  let row ← scalarOneOrNone rows
  match row with
  | none => pure .noContent
  | some user =>
    if !user.isActive || falsy user.passwordHash then pure .noContent else sendResetLink user

/-- The owner of a reset link. -/
def requireLink (owner : Option Nat) : Handler Nat :=
  match owner with
  | none => .raise (httpError 400 "Havola yaroqsiz yoki muddati o'tgan")
  | some userId => pure userId

/-- `reset_password`, once the link is burnt. -/
def resetFor (userId : Nat) (newPassword : String) : Handler Answer := do
  let row ← send (.selectUser userId)
  let user ← requireActive row (httpError 400 "Havola yaroqsiz yoki muddati o'tgan")
  replacePassword prims user newPassword
  pure .noContent

/-- `reset_password`. -/
def resetPassword (link : Nat) (newPassword : String) : Handler Answer := do
  let owner ← send (.get (.pwreset link))
  let userId ← requireLink owner
  send (.delete [.pwreset link])
  resetFor prims userId newPassword

/-! ## Second factor -/

/-- `totp_setup`. -/
def totpSetup (token : Option Token) : Handler Answer := do
  let user ← getCurrentUser cfg token
  require (!user.totpEnabled) (httpError 409 "Ikki bosqichli kirish allaqachon yoqilgan")
  require (!falsy user.passwordHash) (httpError 400 "Bu akkaunt parol bilan kirmaydi")
  let random ← send .secret
  commitUser user { user with totpSecret := some (prims.base32 random) }
  pure (.totpSecret (prims.base32 random))

/-- `totp_enable`. -/
def totpEnable (token : Option Token) (code : String) : Handler Answer := do
  let user ← getCurrentUser cfg token
  require (!user.totpEnabled) (httpError 409 "Ikki bosqichli kirish allaqachon yoqilgan")
  let accepted ← consumeTotp prims user code
  require accepted (httpError 400 "Kod noto'g'ri")
  commitUser user { user with totpEnabled := true }
  pure .noContent

/-- `totp_disable`. -/
def totpDisable (token : Option Token) (password code : String) : Handler Answer := do
  let user ← getCurrentUser cfg token
  require user.totpEnabled (httpError 409 "Ikki bosqichli kirish yoqilmagan")
  require (!falsy user.passwordHash && verifyPassword prims password (user.passwordHash.getD ""))
    (httpError 400 "Parol noto'g'ri")
  let accepted ← consumeTotp prims user code
  require accepted (httpError 400 "Kod noto'g'ri")
  commitUser user { user with totpEnabled := false, totpSecret := none }
  pure .noContent

/-! ## `update_user` and `delete_user` -/

/-- `roles.name`. -/
def roleNamed (name : String) : Option Role :=
  match name with
  | "student" => some .student
  | "registrator" => some .registrator
  | "staff" => some .staff
  | "admin" => some .admin
  | "leadership" => some .leadership
  | _ => none

namespace UserUpdate

/-- `general`: the flag is set, or cleared on a profile that exists. -/
def touchesGeneral (data : UserUpdate) (user : User) : Bool :=
  data.isGeneralManager.any (· || user.employeeProfile.isSome)

/-- The employee profile the update leaves. -/
def profile (data : UserUpdate) (user : User) : Option Employee :=
  if data.facultyId.isSome || data.departmentId.isSome || data.touchesGeneral user then
    let profile := user.employeeProfile.getD {}
    some { profile with
      facultyId := data.facultyId.getD profile.facultyId
      departmentId := data.departmentId.getD profile.departmentId
      isGeneralManager :=
        if data.touchesGeneral user then data.isGeneralManager.getD false
        else profile.isGeneralManager }
  else user.employeeProfile

/-- The row as the update leaves it, `role` aside. -/
def apply (data : UserUpdate) (user : User) (hash : Option String) : User :=
  { user with
    fullName := data.fullName.getD user.fullName
    email := data.email <|> user.email
    employeeProfile := data.profile user
    isActive := data.isActive.getD user.isActive
    passwordHash := hash <|> user.passwordHash
    totpEnabled := if data.reset2fa = some true then false else user.totpEnabled
    totpSecret := if data.reset2fa = some true then none else user.totpSecret }

end UserUpdate

/-- `hash_password(data.password)`, if there is one. -/
def hashIfSent (password : Option String) : Handler (Option String) :=
  match password with
  | none => pure none
  | some plain => do
    let hash ← hashPassword prims plain
    pure (some hash)

/-- The role the update asks for. -/
def requireRole (user : User) (name : Option String) : Handler Role :=
  match name with
  | none => pure user.role
  | some name =>
    match roleNamed name with
    | none => .raise (httpError 400 s!"Noma'lum rol: {name}")
    | some role => pure role

/-- `_assert_can_manage_general`, if the flag is to be set. -/
def assertCanManageGeneral (flag : Option Bool) (role : Role) : Handler Unit :=
  require (flag != some true || role == .staff || role == .registrator)
    (httpError 400
      "Umumiy masalalar bo'yicha menejer faqat xodim yoki registrator bo'lishi mumkin")

/-- `_assert_admin_remains`, on the flushed rows. -/
def assertAdminRemains (users : List User) : Handler Unit :=
  require (users.any fun u => u.role == .admin && u.isActive)
    (httpError 400 "Tizimda kamida bitta faol administrator qolishi kerak")

/-- `db.flush()`, and what the transaction then sees of the table. -/
def flushUser (loaded left : User) : Handler (List User) := do
  let users ← send (.selectUsers fun _ => true)
  require (!emailTaken users loaded left) emailConflict
  pure (updateUsers users loaded left)

/-- The sessions opened with the old password or factor end. -/
def endSessionsIf (condition : Bool) (userId : Nat) : Handler Unit :=
  if condition then do
    let _ ← revokeAllRefreshTokens userId
    pure ()
  else pure ()

/-- The row `update_user` works on. -/
def requireUser (row : Option User) : Handler User :=
  match row with
  | none => .raise (httpError 404 "Foydalanuvchi topilmadi")
  | some user => pure user

/-- `update_user`, from the checks of the changed row on. -/
def applyUpdate (actor loaded left : User) (data : UserUpdate) : Handler Answer := do
  assertCanManageGeneral data.isGeneralManager left.role
  require (!(loaded.id == actor.id && data.isActive == some false))
    (httpError 400 "O'zingizni deaktiv qila olmaysiz")
  require (!(loaded.id == actor.id && data.roleName.any (· != "admin")))
    (httpError 400 "O'z rolingizni o'zgartira olmaysiz")
  let users ← flushUser loaded left
  assertAdminRemains users
  commitUser loaded left
  endSessionsIf (data.password.isSome || data.reset2fa == some true) loaded.id
  pure (.user left)

/-- `update_user`. -/
def updateUser (token : Option Token) (userId : Nat) (data : UserUpdate) : Handler Answer := do
  let actor ← requireRoles cfg [.admin] token
  let row ← send (.selectUser userId)
  let user ← requireUser row
  let hash ← hashIfSent prims data.password
  let role ← requireRole user data.roleName
  applyUpdate actor user { data.apply user hash with role } data

/-- `delete_user`. -/
def deleteUser (token : Option Token) (userId : Nat) : Handler Answer := do
  let actor ← requireRoles cfg [.admin] token
  require (userId != actor.id) (httpError 400 "O'zingizni o'chira olmaysiz")
  let row ← send (.selectUser userId)
  let user ← requireUser row
  let users ← flushUser user { user with isActive := false }
  assertAdminRemains users
  commitUser user { user with isActive := false }
  pure .noContent

/-! ## Sockets -/

/-- `_authenticate`, once the token decodes. -/
def authenticateSocket (t : Token) : Handler Answer :=
  if t.type == .access && t.sub != 0 then do
    let active ← isSessionActive t.sid
    pure (if active then .connected t.sub else .socketClosed)
  else pure .socketClosed

/-- `_authenticate`. It reads the idle window without sliding it. -/
def socket (token : Option Token) : Handler Answer :=
  match token with
  | none => pure .socketClosed
  | some t => do
    let ok ← send (.decode t)
    if ok then authenticateSocket t else pure .socketClosed

/-! ## Dispatch -/

/-- An endpoint that needs nothing but the user. -/
def authenticated (token : Option Token) : Handler Answer := do
  let user ← getCurrentUser cfg token
  pure (.user user)

/-- The program of a call. -/
def handle (call : AuthCall) : Handler Answer :=
  match call with
  | .login email password ip => login prims cfg email password ip
  | .loginSecondFactor mfaToken code ip => loginSecondFactor prims cfg mfaToken code ip
  | .refresh body cookie => refresh cfg body cookie
  | .logout body cookie => logout cfg body cookie
  | .authenticated token => authenticated cfg token
  | .changePassword token current new => changePassword prims cfg token current new
  | .forgotPassword email ip => forgotPassword prims cfg email ip
  | .resetPassword link new => resetPassword prims link new
  | .totpSetup token => totpSetup prims cfg token
  | .totpEnable token code => totpEnable prims cfg token code
  | .totpDisable token password code => totpDisable prims cfg token password code
  | .updateUser token userId data => updateUser prims cfg token userId data
  | .deleteUser token userId => deleteUser cfg token userId
  | .socket token => socket token

/-- A call served while no other is under way. -/
def serve (s : Server) (call : AuthCall) : Except Failure Answer × Server :=
  (handle prims cfg call).atomically s

end Royd.Auth
