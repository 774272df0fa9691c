/-
Royd.Auth.Server — what the authentication code talks to: Redis, the users
table, the clock and the source of randomness, and the commands it sends.

A handler is a program over `Command`; `exec` is what one command does.
Between two commands of a handler the commands of any other may come.
Instants are seconds.

A token is what is signed into it. A signature cannot be forged, so a token
decodes exactly if the server issued it and it has not expired. Random
values (`secrets.token_urlsafe`) never repeat; they are the numbers of one
counter.
-/
import Royd.Core.Python
import Royd.Lib.ExpiringStore
import Royd.Lib.Programs
import Royd.Models.Db

namespace Royd.Auth

open ExpiringStore Programs

/-! ## Redis -/

/-- The keys. A reset link is stored under the hash of its token, and a hash
names its token. -/
inductive Key where
  | loginFailUser (identity : String)
  | loginFailIp (ip : String)
  | refreshBlocked (jti : Nat)
  | refreshActive (userId jti : Nat)
  | sessionSeen (sid : Nat)
  | pwreset (token : Nat)
  | totpUsed (userId : Nat) (step : Int)
  deriving DecidableEq, Repr

/-- The value of a marker key, where the source stores `"1"`. -/
def mark : Nat := 1

/-- `match=f"refresh:active:{user_id}:*"`. -/
def Key.isRefreshOf (userId : Nat) : Key → Bool
  | .refreshActive id _ => id == userId
  | _ => false

/-! ## Tokens -/

/-- The `type` claim. -/
inductive TokenType where
  | access
  | refresh
  | mfa
  deriving DecidableEq, Repr

/-- The payload of a token. An access token's claims about the user's role
and name are read by nobody and left out. -/
structure Token where
  type : TokenType
  sub : Nat
  jti : Nat
  sid : Option Nat
  iat : Int
  exp : Int
  deriving DecidableEq, Repr

/-! ## The server -/

/-- A password reset link as it was queued for its user's mailbox. -/
structure ResetLink where
  userId : Nat
  token : Nat
  sentAt : Int
  deriving DecidableEq, Repr

/-- The state the handlers share. `issued` are the tokens that were signed,
`nextSecret` is the next random value. -/
structure Server where
  users : List User
  redis : Store Key Nat := []
  now : Int
  nextSecret : Nat := 0
  issued : List Token := []
  links : List ResetLink := []
  deriving DecidableEq, Repr

namespace Server

/-- `EXISTS`. -/
def has (s : Server) (k : Key) : Bool := ExpiringStore.contains s.redis s.now k

/-- `jwt.decode` succeeds. -/
def decodes (s : Server) (t : Token) : Bool := s.issued.contains t && decide (s.now < t.exp)

/-- Time passes. -/
def wait (s : Server) (seconds : Nat) : Server := { s with now := s.now + seconds }

/-- Redis after a write. -/
def setex (s : Server) (k : Key) (ttl : Int) (v : Nat) : Server :=
  { s with redis := ExpiringStore.setex s.redis s.now k ttl v }

/-- Redis after a deletion. -/
def delete (s : Server) (ks : List Key) : Server :=
  { s with redis := ExpiringStore.delete s.redis ks }

/-- `INCR key; EXPIRE key ttl`. -/
def incrExpire (ttl : Int) (s : Server) (k : Key) : Server :=
  s.setex k ttl ((ExpiringStore.get s.redis s.now k).getD 0 + 1)

/-- The token that is signed next. -/
def newToken (s : Server) (type : TokenType) (sub : Nat) (sid : Option Nat) (ttl : Int) : Token :=
  { type, sub, jti := s.nextSecret, sid, iat := s.now, exp := s.now + ttl }

/-- A token is signed. -/
def sign (s : Server) (t : Token) : Server :=
  { s with nextSecret := s.nextSecret + 1, issued := t :: s.issued }

end Server

/-- The columns of a user row that an `UPDATE` writes: those that were
changed since the row was loaded. -/
def writeColumns (stored loaded left : User) : User :=
  { stored with
    fullName := column loaded.fullName left.fullName stored.fullName
    email := column loaded.email left.email stored.email
    passwordHash := column loaded.passwordHash left.passwordHash stored.passwordHash
    role := column loaded.role left.role stored.role
    isActive := column loaded.isActive left.isActive stored.isActive
    totpSecret := column loaded.totpSecret left.totpSecret stored.totpSecret
    totpEnabled := column loaded.totpEnabled left.totpEnabled stored.totpEnabled
    employeeProfile := column loaded.employeeProfile left.employeeProfile stored.employeeProfile }

/-- `UPDATE users ... WHERE id = :id`. -/
def updateUsers (users : List User) (loaded left : User) : List User :=
  users.map fun u => if u.id = loaded.id then writeColumns u loaded left else u

/-- `users_email_key` refuses the changed row. -/
def emailTaken (users : List User) (loaded left : User) : Bool :=
  decide (left.email ≠ loaded.email) && left.email.isSome
    && users.any fun u => u.id != loaded.id && u.email == left.email

/-! ## Commands -/

/-- One exchange with Redis, the database, the clock or `secrets`. -/
inductive Command where
  /-- `jwt.decode`. -/
  | decode (t : Token)
  /-- `_create_token`. -/
  | mint (type : TokenType) (sub : Nat) (sid : Option Nat) (ttl : Int)
  /-- `secrets.token_urlsafe`. -/
  | secret
  /-- `time.time()`. -/
  | clock
  /-- `asyncio.sleep`. -/
  | sleep (seconds : Nat)
  | exists (k : Key)
  | get (k : Key)
  | mget (k k' : Key)
  | setex (k : Key) (ttl : Int) (v : Nat)
  /-- `SET ... NX EX`. -/
  | setNx (k : Key) (ttl : Int)
  | delete (ks : List Key)
  /-- A pipeline of `INCR` and `EXPIRE` for each key. -/
  | incrExpire (ks : List Key) (ttl : Int)
  /-- `scan_iter(match=...)`, read to its end. -/
  | scanRefresh (userId : Nat)
  /-- `db.get(User, id)`, or the same as a query. -/
  | selectUser (id : Nat)
  /-- The users that satisfy a query. -/
  | selectUsers (p : User → Bool)
  /-- The changes to one user are flushed and committed; `false` is an
  IntegrityError. -/
  | commitUser (loaded left : User)
  /-- A reset link is queued in the outbox and committed. -/
  | mailLink (userId token : Nat)

/-- What a command replies. -/
@[reducible] def Command.Reply : Command → Type
  | .decode _ => Bool
  | .mint .. => Token
  | .secret => Nat
  | .clock => Int
  | .sleep _ => Unit
  | .exists _ => Bool
  | .get _ => Option Nat
  | .mget .. => Option Nat × Option Nat
  | .setex .. => Unit
  | .setNx .. => Bool
  | .delete _ => Unit
  | .incrExpire .. => Unit
  | .scanRefresh _ => List Key
  | .selectUser _ => Option User
  | .selectUsers _ => List User
  | .commitUser .. => Bool
  | .mailLink .. => Unit

/-- What one command does. -/
def exec : (c : Command) → Server → c.Reply × Server
  | .decode t, s => (s.decodes t, s)
  | .mint type sub sid ttl, s =>
    (s.newToken type sub sid ttl, s.sign (s.newToken type sub sid ttl))
  | .secret, s => (s.nextSecret, { s with nextSecret := s.nextSecret + 1 })
  | .clock, s => (s.now, s)
  | .sleep seconds, s => ((), s.wait seconds)
  | .exists k, s => (s.has k, s)
  | .get k, s => (ExpiringStore.get s.redis s.now k, s)
  | .mget k k', s => ((ExpiringStore.get s.redis s.now k, ExpiringStore.get s.redis s.now k'), s)
  | .setex k ttl v, s => ((), s.setex k ttl v)
  | .setNx k ttl, s => if s.has k then (false, s) else (true, s.setex k ttl mark)
  | .delete ks, s => ((), s.delete ks)
  | .incrExpire ks ttl, s => ((), ks.foldl (Server.incrExpire ttl) s)
  | .scanRefresh userId, s => (scan s.redis s.now (Key.isRefreshOf userId), s)
  | .selectUser id, s => (s.users.find? (·.id == id), s)
  | .selectUsers p, s => (s.users.filter p, s)
  | .commitUser loaded left, s =>
    if emailTaken s.users loaded left then (false, s)
    else (true, { s with users := updateUsers s.users loaded left })
  | .mailLink userId token, s =>
    ((), { s with links := { userId, token, sentAt := s.now } :: s.links })

/-! ## Handlers -/

/-- A response header an error carries. -/
inductive Header where
  | wwwAuthenticate
  | retryAfter (seconds : Nat)
  /-- `Set-Cookie` that clears the refresh cookie. -/
  | clearRefreshCookie
  deriving DecidableEq, Repr

/-- What a handler raises, with the headers of the error response. -/
structure Failure where
  exc : Exc
  headers : List Header := []
  deriving DecidableEq, Repr

/-- `HTTPException`. -/
def httpError (status : Nat) (detail : String) (headers : List Header := []) : Failure :=
  { exc := .http status detail, headers }

/-- A handler: a program over the commands that may raise. -/
abbrev Handler (α : Type) := Prog Command Command.Reply Failure α

/-- Issue a command. -/
def send (c : Command) : Handler c.Reply := Prog.issue c

/-- `if not condition: raise error`. -/
def require (condition : Bool) (error : Failure) : Handler Unit :=
  if condition then pure () else .raise error

/-- A handler run while no other is under way. -/
def Handler.atomically {α : Type} (h : Handler α) (s : Server) : Except Failure α × Server :=
  Prog.run exec h s

end Royd.Auth
