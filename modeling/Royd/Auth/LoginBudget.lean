/-
Royd.Auth.LoginBudget — how many passwords can be tried before an account is
locked, and from one address.

Part one: any number of logins at once. The counters are read before the
password is verified and charged after it, so what bounds the guesses is not
the counter alone but the counter and the logins under way together. Nothing
in the code compares that sum with the limit: `guesses_bounded` assumes it,
and `rush_of_guesses` shows what happens without. A delay is time that passes
by `wait`, so a delayed login goes on whenever its turn comes.

Part two: logins in turn, from one address. A success deletes the counter of
the address with all the failures of other accounts in it.
-/
import Royd.Auth.Atomic
import Royd.Lib.Pools

namespace Royd.Auth

open ExpiringStore Programs Pools Runs

/-! ## Logins at once -/

/-- `LoginRequest`, with the address it comes from. -/
structure LoginCall where
  email : String
  password : String
  ip : String
  deriving DecidableEq, Repr

/-- What happens between the commands of the logins. -/
inductive Meanwhile where
  | wait (seconds : Nat)
  | writeUsers (users : List User)
  deriving DecidableEq, Repr

/-- Its effect on the server. -/
def meanwhile : Meanwhile → Server → Server
  | .wait seconds, s => s.wait seconds
  | .writeUsers users, s => { s with users }

/-- The logins under way, or through. -/
abbrev Logins := Pool LoginCall Command Command.Reply Failure Answer Server

variable (prims : Primitives) (cfg : Settings)

/-- The program of a login. -/
def loginProg (call : LoginCall) : Handler Answer := login prims cfg call.email call.password call.ip

/-- One move of the logins. -/
def loginMove : Logins → Move LoginCall Meanwhile → Logins :=
  next execAmong (loginProg prims cfg) meanwhile

/-! ## How far a login is -/

/-- Where a login stands. A failure knows whether a password was verified and
found wrong. -/
inductive Stage where
  | fresh
  /-- The counters let it through. -/
  | admitted
  /-- It has failed, and the failure is still to be recorded. -/
  | failing (wrongPassword : Bool)
  | recorded (wrongPassword : Bool)
  | signedIn
  /-- It answered 429, or 503. -/
  | refused
  deriving DecidableEq, Repr

/-- A password was verified and found wrong. -/
def Stage.wrongPassword : Stage → Bool
  | .failing wrong => wrong
  | .recorded wrong => wrong
  | _ => false

/-- Let through, and no failure recorded yet. -/
def Stage.underWay : Stage → Bool
  | .admitted => true
  | .failing _ => true
  | _ => false

/-- A failure was recorded. -/
def Stage.recorded? : Stage → Bool
  | .recorded _ => true
  | _ => false

/-- What `check_brute_force` makes of the counters. -/
def admits (counts : Option Nat × Option Nat) : Bool :=
  !counts.2.any (cfg.loginMaxAttemptsPerIp ≤ ·) && !counts.1.any (cfg.loginLockoutAttempts ≤ ·)

/-- What `authenticate_local` makes of the rows it finds. -/
def verdict (password : String) : List User → Stage
  | [] => .failing false
  | [user] =>
    if falsy user.passwordHash then .failing false
    else if !user.isActive then .failing false
    else if !verifyPassword prims password (user.passwordHash.getD "") then .failing true
    else .signedIn
  | _ => .refused

/-- The command changes no counter of an account. -/
def Spares (c : Command) : Prop := ∀ identity s later,
  get (execAmong c s).2.redis later (.loginFailUser identity) =
    get s.redis later (.loginFailUser identity)

/-- The counters of a login. -/
def LoginCall.counters (call : LoginCall) : List Key :=
  [.loginFailUser (prims.lower call.email), .loginFailIp call.ip]

/-- Let through by the counters, an address has an attempt left. -/
theorem lt_of_admits {counts : Option Nat × Option Nat} (hmax : 0 < cfg.loginMaxAttemptsPerIp)
    (h : admits cfg counts = true) : counts.2.getD 0 < cfg.loginMaxAttemptsPerIp := by
  unfold admits at h
  cases hip : counts.2 with
  | none => exact hmax
  | some n =>
    rw [hip] at h
    simp only [Option.any_some, Bool.and_eq_true, Bool.not_eq_true', decide_eq_false_iff_not] at h
    exact Nat.lt_of_not_le h.1

/-- What a login sends at each stage, and the stage its reply leads to. -/
def stages (call : LoginCall) : Monitor Command Command.Reply Stage where
  allows
    | .fresh, c => c = .mget (.loginFailUser (prims.lower call.email)) (.loginFailIp call.ip)
    | .admitted, c => (∃ seconds, c = .sleep seconds) ∨ ∃ p, c = .selectUsers p
    | .failing _, c => c = .incrExpire (call.counters prims) cfg.loginWindowSeconds
    | .signedIn, c => c = .delete (call.counters prims) ∨ Spares c
    | _, _ => False
  possible _ _ := True
  next
    | .fresh, .mget .., counts => if admits cfg counts then .admitted else .refused
    | .admitted, .selectUsers _, rows => verdict prims call.password rows
    | .failing wrong, .incrExpire .., _ => .recorded wrong
    | stage, _, _ => stage

/-- The stage of a login. -/
def stageOf (th : Thread LoginCall Command Command.Reply Failure Answer) : Stage :=
  Thread.after (stages prims cfg th.req) .fresh th.trace

/-! ## What is counted -/

section Counts

variable (identity : String) (th : Thread LoginCall Command Command.Reply Failure Answer)

/-- The login is against the account. -/
def against : Bool := prims.lower th.req.email == identity

/-- It verified a password, and that was wrong. -/
def guessed : Bool := against prims identity th && (stageOf prims cfg th).wrongPassword

/-- It was let through and has not recorded a failure. -/
def underWay : Bool := against prims identity th && (stageOf prims cfg th).underWay

/-- It has recorded a failure. -/
def charged : Bool := against prims identity th && (stageOf prims cfg th).recorded?

end Counts

/-- What a login reads first. -/
def Server.counts (s : Server) (identity ip : String) : Option Nat × Option Nat :=
  (get s.redis s.now (.loginFailUser identity), get s.redis s.now (.loginFailIp ip))

/-- A login that is about to be let through finds room for itself beside the
failures on the counter and the logins under way. -/
def HasRoom (identity : String) (w : Logins) : Move LoginCall Meanwhile → Prop
  | .step i => ∀ th ∈ w.threads[i]?, against prims identity th = true →
    stageOf prims cfg th = .fresh → admits cfg (w.shared.counts identity th.req.ip) = true →
    (w.shared.counts identity th.req.ip).1.getD 0 + tally (underWay prims cfg identity) w <
      cfg.loginLockoutAttempts
  | _ => True

/-- Less than a window has passed since `start`, and no login against the
account has found its password right. -/
structure InStretch (identity : String) (start : Int) (w : Logins) : Prop where
  time : w.shared.now < start + cfg.loginWindowSeconds
  failing : ∀ th ∈ w.threads, against prims identity th = true → stageOf prims cfg th ≠ .signedIn

instance (identity : String) (w : Logins) : DecidablePred (HasRoom prims cfg identity w) := fun m =>
  match m with
  | .start _ => .isTrue trivial
  | .step i => inferInstanceAs (Decidable (∀ th ∈ w.threads[i]?, _ → _ → _ → _))
  | .act _ => .isTrue trivial

instance (identity : String) (start : Int) (w : Logins) :
    Decidable (InStretch prims cfg identity start w) :=
  decidable_of_iff (_ ∧ _) ⟨fun h => ⟨h.1, h.2⟩, fun h => ⟨h.time, h.failing⟩⟩

/-! ## A login keeps to its stages -/

section Stages

variable {prims cfg} {call : LoginCall}

/-- A key that is written is not a counter, so no counter changes. -/
theorem spares_setex {k : Key} {ttl : Int} {v : Nat} (hk : ∀ identity, k ≠ .loginFailUser identity) :
    Spares (.setex k ttl v) := by
  intro identity s later
  exact get_setex_of_ne later (Ne.symm (hk identity))

theorem spares_secret : Spares .secret := fun _ _ _ => rfl

theorem spares_mint (type : TokenType) (sub : Nat) (sid : Option Nat) (ttl : Int) :
    Spares (.mint type sub sid ttl) := fun _ _ _ => rfl

attribute [local simp] send Prog.issue stages

/-- After its success a login touches its own counters only. -/
theorem stages_completeLogin (user : User) :
    Obeys (stages prims cfg call) (fun _ _ => True) .signedIn (completeLogin cfg user) := by
  simp [completeLogin, issueTokens, newSessionId, createAccessToken, createRefreshToken,
    registerRefreshJti, touchSession, spares_secret, spares_mint, spares_setex]

theorem stages_loginAs (result : Except String User) {stage : Stage}
    (herror : ∀ detail, result = .error detail → ∃ wrong, stage = .failing wrong)
    (hok : ∀ user, result = .ok user → stage = .signedIn) :
    Obeys (stages prims cfg call) (fun _ _ => True) stage
      (loginAs cfg (prims.lower call.email) call.ip result) := by
  cases result with
  | error detail =>
    obtain ⟨wrong, rfl⟩ := herror detail rfl
    simp [loginAs, recordLoginFailure, LoginCall.counters]
  | ok user =>
    rw [hok user rfl]
    simp only [loginAs, clearLoginFailures, send, Prog.issue_bind, obeys_call]
    refine ⟨.inl rfl, fun _ _ => ?_⟩
    split
    · simp [createMfaToken, spares_mint]
    · exact stages_completeLogin user

/-- Verification leads from `admitted` to what it makes of the rows. -/
theorem stages_authenticate :
    Obeys (stages prims cfg call) (fun _ _ => True) .admitted
      (authenticateLocal prims call.email call.password >>=
        loginAs cfg (prims.lower call.email) call.ip) := by
  simp only [authenticateLocal, send, obeys_bind, obeys_issue]
  refine ⟨.inr ⟨_, rfl⟩, fun rows _ => ?_⟩
  rcases rows with _ | ⟨user, _ | ⟨other, rest⟩⟩
  · exact stages_loginAs _ (fun _ _ => ⟨false, rfl⟩) (fun _ h => by cases h)
  · simp only [scalarOneOrNone, obeys_pure, stages, verdict]
    split_ifs
    · exact stages_loginAs _ (fun _ _ => ⟨false, rfl⟩) (fun _ h => by cases h)
    · exact stages_loginAs _ (fun _ _ => ⟨false, rfl⟩) (fun _ h => by cases h)
    · exact stages_loginAs _ (fun _ _ => ⟨true, rfl⟩) (fun _ h => by cases h)
    · exact stages_loginAs _ (fun _ h => by cases h) (fun _ _ => rfl)
  · trivial

theorem stages_login :
    Obeys (stages prims cfg call) (fun _ _ => True) .fresh (loginProg prims cfg call) := by
  simp only [loginProg, login, checkBruteForce, send, obeys_bind, obeys_issue]
  refine ⟨rfl, fun counts _ => ?_⟩
  have hadmitted : ∀ u : Unit, Obeys (stages prims cfg call) (fun _ _ => True) .admitted
      (authenticateLocal prims call.email call.password >>=
        loginAs cfg (prims.lower call.email) call.ip) := fun _ => stages_authenticate
  show Obeys (stages prims cfg call) _ (if admits cfg counts then Stage.admitted else .refused) _
  unfold admits
  cases hip : counts.2.any (cfg.loginMaxAttemptsPerIp ≤ ·) with
  | true => trivial
  | false =>
    cases hlock : counts.1.any (cfg.loginLockoutAttempts ≤ ·) with
    | true => trivial
    | false =>
      simp only [require, Bool.not_false, if_true, obeys_pure, Bool.and_self]
      unfold backoff
      split
      · simpa using hadmitted ()
      · split
        · simpa using hadmitted ()
        · simpa using hadmitted ()

end Stages

/-! ## What one step of a login does -/

/-- One command of a login: what it does to the server, and where it leads
the login. -/
inductive LoginStep (call : LoginCall) (s : Server) : Server → Stage → Stage → Prop
  | read : LoginStep call s s .fresh
      (if admits cfg (s.counts (prims.lower call.email) call.ip) then .admitted else .refused)
  | delayed : LoginStep call s s .admitted .admitted
  | verified (rows : List User) :
      LoginStep call s s .admitted (verdict prims call.password rows)
  | recorded (wrong : Bool) : LoginStep call s
      (execAmong (.incrExpire (call.counters prims) cfg.loginWindowSeconds) s).2
      (.failing wrong) (.recorded wrong)
  | cleared : LoginStep call s (execAmong (.delete (call.counters prims)) s).2 .signedIn .signedIn
  | spared (c : Command) (spares : Spares c) :
      LoginStep call s (execAmong c s).2 .signedIn .signedIn

section Step

variable {prims cfg}

theorem LoginStep.now {call : LoginCall} {s s' : Server} {stage stage' : Stage}
    (h : LoginStep prims cfg call s s' stage stage') : s'.now = s.now := by
  cases h with
  | recorded => exact execAmong_now _ _
  | cleared => exact execAmong_now _ _
  | spared => exact execAmong_now _ _
  | _ => rfl

theorem loginStep_of_allows {call : LoginCall} {stage : Stage} {c : Command} (s : Server)
    (h : (stages prims cfg call).allows stage c) :
    LoginStep prims cfg call s (execAmong c s).2 stage
      ((stages prims cfg call).next stage c (execAmong c s).1) := by
  cases stage with
  | fresh =>
    cases (show c = .mget _ _ from h)
    exact .read
  | admitted =>
    rcases h with ⟨seconds, rfl⟩ | ⟨p, rfl⟩
    · exact .delayed
    · exact .verified _
  | failing wrong =>
    cases (show c = .incrExpire _ _ from h)
    exact .recorded wrong
  | signedIn =>
    rcases h with rfl | hspares
    · exact .cleared
    · exact .spared c hspares
  | recorded wrong => exact h.elim
  | refused => exact h.elim

/-- A step does nothing, or one login goes on. -/
theorem loginMove_step {w : Logins}
    (h : Disciplined (stages prims cfg) (fun _ _ _ => True) .fresh w) (i : Nat) :
    loginMove prims cfg w (.step i) = w ∨
      ∃ before th th' after s', w.threads[i]? = some th ∧ w.threads = before ++ th :: after ∧
        th'.req = th.req ∧
        LoginStep prims cfg th.req w.shared s' (stageOf prims cfg th) (stageOf prims cfg th') ∧
        loginMove prims cfg w (.step i) = ⟨s', before ++ th' :: after⟩ := by
  rcases next_step execAmong (loginProg prims cfg) meanwhile w i with
    heq | ⟨before, th, after, c, k, hth, hthreads, hcall, heq⟩
  · exact .inl heq
  · have hallows := ((h th (List.mem_of_getElem? hth)).call hcall).1
    exact .inr ⟨before, th, th.goOn c (execAmong c w.shared).1 (k (execAmong c w.shared).1), after,
      _, hth, hthreads, rfl, loginStep_of_allows w.shared hallows, heq⟩

end Step

/-! ## The counter of an account -/

section Counter

variable {prims cfg} {call : LoginCall} {s : Server} {identity : String} {later : Int}

/-- A recorded failure is on the counter for a whole window. -/
theorem get_recorded (h : later ≤ s.now + cfg.loginWindowSeconds) :
    get (execAmong (.incrExpire (call.counters prims) cfg.loginWindowSeconds) s).2.redis later
        (.loginFailUser (prims.lower call.email)) =
      some ((get s.redis s.now (.loginFailUser (prims.lower call.email))).getD 0 + 1) := by
  show get ((call.counters prims).foldl (Server.incrExpire cfg.loginWindowSeconds) s).redis _ _ = _
  simp only [LoginCall.counters, List.foldl_cons, List.foldl_nil, Server.incrExpire, Server.setex]
  rw [get_setex_of_ne later (by simp), get_setex_self h]

/-- The counters of other accounts stay as they are. -/
theorem get_recorded_of_ne (h : prims.lower call.email ≠ identity) :
    get (execAmong (.incrExpire (call.counters prims) cfg.loginWindowSeconds) s).2.redis later
        (.loginFailUser identity) = get s.redis later (.loginFailUser identity) := by
  show get ((call.counters prims).foldl (Server.incrExpire cfg.loginWindowSeconds) s).redis _ _ = _
  simp only [LoginCall.counters, List.foldl_cons, List.foldl_nil, Server.incrExpire, Server.setex]
  rw [get_setex_of_ne later (by simp), get_setex_of_ne later (by simp [Ne.symm h])]

theorem get_cleared_of_ne (h : prims.lower call.email ≠ identity) :
    get (execAmong (.delete (call.counters prims)) s).2.redis later (.loginFailUser identity) =
      get s.redis later (.loginFailUser identity) :=
  get_delete_of_notMem (by simp [LoginCall.counters, Ne.symm h])

/-- A login changes the counter of its own account only. -/
theorem LoginStep.get_of_ne {s' : Server} {stage stage' : Stage}
    (hstep : LoginStep prims cfg call s s' stage stage') (h : prims.lower call.email ≠ identity) :
    get s'.redis later (.loginFailUser identity) = get s.redis later (.loginFailUser identity) := by
  cases hstep with
  | recorded => exact get_recorded_of_ne h
  | cleared => exact get_cleared_of_ne h
  | spared c hspares => exact hspares identity s later
  | _ => rfl

end Counter

/-! ## The budget -/

/-- The failures recorded since `start` and the logins under way keep within
the limit, and the counter knows of all that are recorded. -/
structure Budget (identity : String) (start : Int) (w : Logins) : Prop where
  disciplined : Disciplined (stages prims cfg) (fun _ _ _ => True) .fresh w
  started : start ≤ w.shared.now
  within : tally (charged prims cfg identity) w + tally (underWay prims cfg identity) w ≤
    cfg.loginLockoutAttempts
  counted : ∀ later, w.shared.now ≤ later → later ≤ start + cfg.loginWindowSeconds →
    tally (charged prims cfg identity) w ≤ (get w.shared.redis later (.loginFailUser identity)).getD 0

section Budget

variable {prims cfg} {identity : String} {start : Int} {w w' : Logins}

theorem disciplined_loginMove (h : Disciplined (stages prims cfg) (fun _ _ _ => True) .fresh w)
    (m : Move LoginCall Meanwhile) :
    Disciplined (stages prims cfg) (fun _ _ _ => True) .fresh (loginMove prims cfg w m) :=
  disciplined_next (fun _ => stages_login) (fun _ _ _ => trivial) h m

/-- No failure is recorded and the counter stays as it is. -/
theorem Budget.of_counter (h : Budget prims cfg identity start w)
    (hdisciplined : Disciplined (stages prims cfg) (fun _ _ _ => True) .fresh w')
    (hnow : w.shared.now ≤ w'.shared.now)
    (hcharged : tally (charged prims cfg identity) w' = tally (charged prims cfg identity) w)
    (hwithin : tally (charged prims cfg identity) w + tally (underWay prims cfg identity) w' ≤
      cfg.loginLockoutAttempts)
    (hget : ∀ later, get w'.shared.redis later (.loginFailUser identity) =
      get w.shared.redis later (.loginFailUser identity)) : Budget prims cfg identity start w' where
  disciplined := hdisciplined
  started := h.started.trans hnow
  within := hcharged ▸ hwithin
  counted := by
    intro later hlater hend
    rw [hcharged, hget]
    exact h.counted later (hnow.trans hlater) hend

variable (prims) in
theorem verdict_open (password : String) (rows : List User) :
    (∃ wrong, verdict prims password rows = .failing wrong) ∨
      verdict prims password rows = .signedIn ∨ verdict prims password rows = .refused := by
  unfold verdict
  split
  · exact .inl ⟨_, rfl⟩
  · split_ifs
    · exact .inl ⟨_, rfl⟩
    · exact .inl ⟨_, rfl⟩
    · exact .inl ⟨_, rfl⟩
    · exact .inr (.inl rfl)
  · exact .inr (.inr rfl)

/-- A login goes on. -/
theorem Budget.step {i : Nat} (h : Budget prims cfg identity start w)
    (hstretch : InStretch prims cfg identity start w)
    (hroom : HasRoom prims cfg identity w (.step i)) :
    Budget prims cfg identity start (loginMove prims cfg w (.step i)) := by
  have hdisciplined := disciplined_loginMove h.disciplined (.step i)
  rcases loginMove_step h.disciplined i with
    heq | ⟨before, th, th', after, s', hth, hthreads, hreq, hstep, heq⟩
  · rw [heq]
    exact h
  have hmem : th ∈ w.threads := List.mem_of_getElem? hth
  obtain ⟨s, threads⟩ := w
  dsimp only at hthreads hstep
  subst hthreads
  rw [heq] at hdisciplined ⊢
  have hcharged := tally_goOn (charged prims cfg identity) before after th s s' th'
  have hunder := tally_goOn (underWay prims cfg identity) before after th s s' th'
  have hwithin := h.within
  have hnow : s'.now = s.now := hstep.now
  simp only [charged, underWay, against, hreq] at hcharged hunder
  cases hagainst : prims.lower th.req.email == identity with
  | false =>
    -- A login against another account.
    have hne : prims.lower th.req.email ≠ identity := by simpa using hagainst
    simp only [hagainst, Bool.false_and, Bool.toNat_false, Nat.add_zero] at hcharged hunder
    exact h.of_counter hdisciplined hnow.ge hcharged (le_of_eq_of_le (congrArg _ hunder) hwithin)
      fun later => hstep.get_of_ne hne
  | true =>
    have hidentity : prims.lower th.req.email = identity := by simpa using hagainst
    have hready := hroom th hth hagainst
    have hfailing := hstretch.failing th hmem hagainst
    simp only [hagainst, Bool.true_and] at hcharged hunder
    generalize stageOf prims cfg th = stage at hready hfailing hcharged hunder hstep
    generalize stageOf prims cfg th' = stage' at hcharged hunder hstep
    have hcounted := h.counted s.now le_rfl hstretch.time.le
    have hstarted := h.started
    cases hstep with
    | read =>
      have hlet := hready rfl
      rw [hidentity] at hcharged hunder
      cases hadmits : admits cfg (s'.counts identity th.req.ip) with
      | false =>
        simp [hadmits, Stage.recorded?, Stage.underWay] at hcharged hunder
        exact h.of_counter hdisciplined le_rfl hcharged (by omega) fun _ => rfl
      | true =>
        -- It was let through, so there was room for it.
        have hfree := hlet hadmits
        dsimp only at hfree
        simp [hadmits, Stage.recorded?, Stage.underWay] at hcharged hunder
        change _ ≤ (s'.counts identity th.req.ip).1.getD 0 at hcounted
        exact h.of_counter hdisciplined le_rfl hcharged (by omega) fun _ => rfl
    | delayed => exact h.of_counter hdisciplined le_rfl hcharged (by omega) fun _ => rfl
    | verified rows =>
      have hopen : (verdict prims th.req.password rows).recorded? = false := by
        rcases verdict_open prims th.req.password rows with ⟨wrong, hv⟩ | hv | hv <;>
          rw [hv] <;> rfl
      have hle := Bool.toNat_le (verdict prims th.req.password rows).underWay
      rw [hopen] at hcharged
      have hadmitted : Stage.admitted.underWay = true := rfl
      rw [hadmitted, Bool.toNat_true] at hunder
      exact h.of_counter hdisciplined le_rfl hcharged (by omega) fun _ => rfl
    | recorded wrong =>
      simp only [Stage.recorded?, Stage.underWay, Bool.toNat_false, Bool.toNat_true,
        Nat.add_zero] at hcharged hunder
      refine ⟨hdisciplined, hstarted.trans hnow.ge, by omega, fun later _ hend => ?_⟩
      dsimp only at hcounted hstarted hend ⊢
      rw [hcharged, ← hidentity, get_recorded (by omega), Option.getD_some]
      rw [← hidentity] at hcounted
      exact Nat.succ_le_succ hcounted
    | cleared => exact absurd rfl hfailing
    | spared => exact absurd rfl hfailing

theorem Budget.move (h : Budget prims cfg identity start w) {m : Move LoginCall Meanwhile}
    (hm : HasRoom prims cfg identity w m ∧ InStretch prims cfg identity start w) :
    Budget prims cfg identity start (loginMove prims cfg w m) := by
  have hdisciplined := disciplined_loginMove h.disciplined m
  cases m with
  | start call =>
    have hcharged : charged prims cfg identity (fresh (loginProg prims cfg) call) = false := by
      simp [charged, stageOf, fresh, Thread.after, Stage.recorded?]
    have hunder : underWay prims cfg identity (fresh (loginProg prims cfg) call) = false := by
      simp [underWay, stageOf, fresh, Thread.after, Stage.underWay]
    refine h.of_counter hdisciplined le_rfl ?_ ?_ fun _ => rfl
    · rw [loginMove, tally_start, hcharged, Bool.toNat_false, Nat.add_zero]
    · rw [loginMove, tally_start, hunder, Bool.toNat_false, Nat.add_zero]
      exact h.within
  | step i => exact h.step hm.2 hm.1
  | act e =>
    refine h.of_counter hdisciplined ?_ rfl h.within ?_
    · cases e with
      | wait seconds => exact (Server.grows_wait w.shared seconds).time
      | writeUsers users => exact le_rfl
    · intro later
      cases e with
      | wait seconds => rfl
      | writeUsers users => rfl

/-- Before the first login nothing is spent. -/
theorem budget_init (s : Server) : Budget prims cfg identity s.now { shared := s } where
  disciplined := fun th hth => by cases hth
  started := le_rfl
  within := Nat.zero_le _
  counted := fun _ _ _ => Nat.zero_le _

/-- A wrong password is that of a login that is still to record it, or has. -/
theorem guessed_le (w : Logins) : tally (guessed prims cfg identity) w ≤
    tally (charged prims cfg identity) w + tally (underWay prims cfg identity) w := by
  have hsum : tally (fun th => charged prims cfg identity th || underWay prims cfg identity th) w =
      tally (charged prims cfg identity) w + tally (underWay prims cfg identity) w := by
    refine tally_add w fun th => ?_
    unfold charged underWay
    cases against prims identity th <;> cases stageOf prims cfg th <;> rfl
  rw [← hsum]
  refine List.countP_mono_left fun th _ hth => ?_
  unfold guessed at hth
  unfold charged underWay
  cases hagainst : against prims identity th with
  | false =>
    rw [hagainst] at hth
    cases hth
  | true =>
    rw [hagainst] at hth
    cases hstage : stageOf prims cfg th with
    | failing wrong => rfl
    | recorded wrong => rfl
    | _ =>
      rw [hstage] at hth
      cases hth

end Budget

/-- Any number of logins against one account, from any addresses, in less
than a window and none of them successful: if each that is let through finds
room for itself and the logins under way, no more wrong passwords are verified
than the account may fail. -/
theorem guesses_bounded (identity : String) (s : Server) (ms : List (Move LoginCall Meanwhile))
    (hroom : Along (loginMove prims cfg) (HasRoom prims cfg identity) { shared := s } ms)
    (hstretch : Along (loginMove prims cfg) (fun w _ => InStretch prims cfg identity s.now w)
      { shared := s } ms) :
    tally (guessed prims cfg identity) (run (loginMove prims cfg) { shared := s } ms) ≤
      cfg.loginLockoutAttempts := by
  have hbudget : Budget prims cfg identity s.now (run (loginMove prims cfg) { shared := s } ms) :=
    run_invariant_along (fun w m hw hm => hw.move hm) (budget_init s) (along_and hroom hstretch)
  exact (guessed_le _).trans hbudget.within

/-! ## At the front desk -/

/-- A guess at the registrator's password. -/
def guess (ip : String) : LoginCall := ⟨"desk@royd", "taxmin", ip⟩

/-- Two guesses, from two addresses, one after the other. -/
def guessesInTurn : List (Move LoginCall Meanwhile) :=
  [.start (guess "10.0.0.1"), .step 0, .step 0, .step 0, .act (.wait 5),
    .start (guess "10.0.0.2"), .step 1, .step 1, .step 1]

theorem guesses_bounded_inTurn :
    tally (guessed plainPrimitives {} "desk@royd")
        (run (loginMove plainPrimitives {}) { shared := frontDesk } guessesInTurn) = 2 ∧
      tally (guessed plainPrimitives {} "desk@royd")
          (run (loginMove plainPrimitives {}) { shared := frontDesk } guessesInTurn) ≤
        ({} : Settings).loginLockoutAttempts :=
  ⟨by decide +kernel, guesses_bounded plainPrimitives {} "desk@royd" frontDesk guessesInTurn
    (by decide +kernel) (by decide +kernel)⟩

/-- Eleven guesses at once: all read the counters before the first of them
records its failure. -/
def rush : List (Move LoginCall Meanwhile) :=
  List.replicate 11 (.start (guess "10.0.0.1")) ++ (List.range 11).map .step
    ++ (List.range 11).map .step

/-- All eleven passwords are verified, in no time and without a success, where
an account is locked after ten. -/
theorem rush_of_guesses :
    ({} : Settings).loginLockoutAttempts = 10 ∧
      (run (loginMove plainPrimitives {}) { shared := frontDesk } rush).shared.now =
        frontDesk.now ∧
      Along (loginMove plainPrimitives {})
        (fun w _ => InStretch plainPrimitives {} "desk@royd" frontDesk.now w)
        { shared := frontDesk } rush ∧
      tally (guessed plainPrimitives {} "desk@royd")
        (run (loginMove plainPrimitives {}) { shared := frontDesk } rush) = 11 := by
  decide +kernel

/-! ## Logins in turn, from one address -/

/-- A login, or a pause. -/
inductive Attempt where
  | login (email password : String)
  | pause (seconds : Nat)
  deriving DecidableEq, Repr

/-- The answer to an attempt, and the server after it. -/
def attempt (ip : String) (s : Server) : Attempt → Except Failure Answer × Server
  | .login email password => (login prims cfg email password ip).atomically s
  | .pause seconds => (.ok .noContent, s.wait seconds)

/-- The server after an attempt. -/
def attemptNext (ip : String) (s : Server) (a : Attempt) : Server := (attempt prims cfg ip s a).2

/-- The login reached the verification of the password and failed there: that
is what a 401 says. -/
def rejected : Except Failure Answer → Bool
  | .error ⟨.http 401 _, _⟩ => true
  | _ => false

/-- How many attempts were rejected. -/
def rejections (ip : String) : Server → List Attempt → Nat
  | _, [] => 0
  | s, a :: as =>
    (rejected (attempt prims cfg ip s a).1).toNat + rejections ip (attemptNext prims cfg ip s a) as

/-- The rows `authenticate_local` finds. -/
def Server.withEmail (s : Server) (email : String) : List User :=
  s.users.filter fun u => u.email == some email

/-- A login that is let through with the right password comes only when no
failure stands on the counter of the address. -/
def ClearsNothing (ip : String) (s : Server) : Attempt → Prop
  | .login email password =>
    admits cfg (s.counts (prims.lower email) ip) = true →
    verdict prims password (s.withEmail email) = .signedIn →
    get s.redis s.now (.loginFailIp ip) = none
  | .pause _ => True

section Attempts

variable {prims cfg} {s : Server} {ip : String}

theorem attempt_login (email password : String) : attempt prims cfg ip s (.login email password) =
    (login prims cfg email password ip).atomically s := rfl

theorem backoff_atomically (failures : Option Nat) :
    ∃ seconds, (backoff cfg failures).atomically s = (.ok (), s.wait seconds) := by
  have hzero : s.wait 0 = s := by simp [Server.wait]
  unfold backoff
  split
  · exact ⟨0, by rw [hzero]; rfl⟩
  · split
    · exact ⟨_, rfl⟩
    · exact ⟨0, by rw [hzero]; rfl⟩

variable (cfg s ip) in
/-- The counters decide who is let through. -/
theorem checkBruteForce_atomically (identity : String) :
    (admits cfg (s.counts identity ip) = true ∧ ∃ seconds,
        (checkBruteForce cfg identity ip).atomically s = (.ok (), s.wait seconds)) ∨
      (admits cfg (s.counts identity ip) = false ∧ ∃ detail headers,
        (checkBruteForce cfg identity ip).atomically s = (.error ⟨.http 429 detail, headers⟩, s)) := by
  have hread : (checkBruteForce cfg identity ip).atomically s =
      Handler.atomically (do
        require (!(s.counts identity ip).2.any (cfg.loginMaxAttemptsPerIp ≤ ·))
          (httpError 429 "Juda ko'p urinish. Keyinroq qayta urinib ko'ring."
            [.retryAfter cfg.loginWindowSeconds])
        require (!(s.counts identity ip).1.any (cfg.loginLockoutAttempts ≤ ·))
          (httpError 429 ("Akkaunt vaqtincha bloklandi: juda ko'p noto'g'ri urinish. "
            ++ "Keyinroq qayta urinib ko'ring.") [.retryAfter cfg.loginWindowSeconds])
        backoff cfg (s.counts identity ip).1) s := rfl
  rw [hread]
  unfold admits
  cases (s.counts identity ip).2.any (cfg.loginMaxAttemptsPerIp ≤ ·) with
  | true => exact .inr ⟨rfl, _, _, rfl⟩
  | false =>
    cases (s.counts identity ip).1.any (cfg.loginLockoutAttempts ≤ ·) with
    | true => exact .inr ⟨rfl, _, _, rfl⟩
    | false => exact .inl ⟨rfl, backoff_atomically _⟩

variable (prims s) in
/-- The verification reads the users and says what the verdict says. -/
theorem authenticateLocal_atomically (email password : String) :
    (∃ wrong detail, verdict prims password (s.withEmail email) = .failing wrong ∧
        (authenticateLocal prims email password).atomically s = (.ok (.error detail), s)) ∨
      (∃ user, verdict prims password (s.withEmail email) = .signedIn ∧
        (authenticateLocal prims email password).atomically s = (.ok (.ok user), s)) ∨
      (verdict prims password (s.withEmail email) = .refused ∧
        ∃ detail headers, (authenticateLocal prims email password).atomically s =
          (.error ⟨.http 503 detail, headers⟩, s)) := by
  have hread : (send (.selectUsers fun u => u.email == some email)).atomically s =
      (.ok (s.withEmail email), s) := rfl
  unfold authenticateLocal
  rw [Handler.atomically_bind, hread]
  dsimp only
  rcases s.withEmail email with _ | ⟨user, _ | ⟨other, rest⟩⟩
  · exact .inl ⟨_, _, rfl, rfl⟩
  · simp only [scalarOneOrNone, Prog.pure_bind, verdict]
    split_ifs
    · exact .inl ⟨_, _, rfl, rfl⟩
    · exact .inl ⟨_, _, rfl, rfl⟩
    · exact .inl ⟨_, _, rfl, rfl⟩
    · exact .inr (.inl ⟨_, rfl, rfl⟩)
  · exact .inr (.inr ⟨rfl, _, _, rfl⟩)

/-- The right password is answered with tokens, or with a token for the
second factor. -/
theorem loginAs_ok (identity : String) (user : User) :
    ∃ answer s', (loginAs cfg identity ip (.ok user)).atomically s = (.ok answer, s') := by
  unfold loginAs
  dsimp only
  split
  · exact ⟨_, _, rfl⟩
  · exact ⟨_, _, rfl⟩

variable (prims cfg s ip) in
/-- What an attempt can come to: turned away by the counters, rejected and
charged, signed in, or broken off by the database. -/
theorem login_atomically (email password : String) :
    (∃ detail headers, (login prims cfg email password ip).atomically s =
        (.error ⟨.http 429 detail, headers⟩, s)) ∨
      (admits cfg (s.counts (prims.lower email) ip) = true ∧ ∃ seconds detail,
        (login prims cfg email password ip).atomically s = (.error (httpError 401 detail),
          (exec (.incrExpire (LoginCall.counters prims ⟨email, password, ip⟩) cfg.loginWindowSeconds)
            (s.wait seconds)).2)) ∨
      (admits cfg (s.counts (prims.lower email) ip) = true ∧
        verdict prims password (s.withEmail email) = .signedIn ∧
        ∃ answer s', (login prims cfg email password ip).atomically s = (.ok answer, s')) ∨
      ∃ seconds detail headers, (login prims cfg email password ip).atomically s =
        (.error ⟨.http 503 detail, headers⟩, s.wait seconds) := by
  unfold login
  dsimp only
  rw [Handler.atomically_bind]
  rcases checkBruteForce_atomically cfg s ip (prims.lower email) with
    ⟨hadmits, seconds, hcheck⟩ | ⟨-, detail, headers, hcheck⟩
  · rw [hcheck]
    dsimp only
    rw [Handler.atomically_bind]
    rcases authenticateLocal_atomically prims (s.wait seconds) email password with
      ⟨wrong, detail, -, hverify⟩ | ⟨user, hverdict, hverify⟩ | ⟨-, detail, headers, hverify⟩
    · rw [hverify]
      exact .inr (.inl ⟨hadmits, seconds, detail, rfl⟩)
    · rw [hverify]
      exact .inr (.inr (.inl ⟨hadmits, hverdict, loginAs_ok _ user⟩))
    · rw [hverify]
      exact .inr (.inr (.inr ⟨seconds, detail, headers, rfl⟩))
  · rw [hcheck]
    exact .inl ⟨detail, headers, rfl⟩

/-- A rejected login is on the counter of the address for a whole window. -/
theorem get_recorded_ip {call : LoginCall} {later : Int}
    (h : later ≤ s.now + cfg.loginWindowSeconds) :
    get (exec (.incrExpire (call.counters prims) cfg.loginWindowSeconds) s).2.redis later
        (.loginFailIp call.ip) = some ((get s.redis s.now (.loginFailIp call.ip)).getD 0 + 1) := by
  show get ((call.counters prims).foldl (Server.incrExpire cfg.loginWindowSeconds) s).redis _ _ = _
  simp only [LoginCall.counters, List.foldl_cons, List.foldl_nil, Server.incrExpire, Server.setex]
  rw [get_setex_self h, get_setex_of_ne s.now (by simp)]

theorem attempt_grows (a : Attempt) : s.Grows (attemptNext prims cfg ip s a) := by
  cases a with
  | login email password => exact Handler.grows (p := login prims cfg email password ip) rfl
  | pause seconds => exact s.grows_wait seconds

theorem attempts_grow : ∀ (as : List Attempt) (s : Server),
    s.Grows (run (attemptNext prims cfg ip) s as)
  | [], _ => .refl _
  | a :: as, _ => (attempt_grows a).trans (attempts_grow as _)

/-- The failures counted so far stand on the counter of the address, and keep
within its limit. -/
structure OnCounter (cfg : Settings) (ip : String) (start : Int) (failures : Nat) (s : Server) :
    Prop where
  started : start ≤ s.now
  within : failures ≤ cfg.loginMaxAttemptsPerIp
  counted : ∀ later, s.now ≤ later → later ≤ start + cfg.loginWindowSeconds →
    failures ≤ (get s.redis later (.loginFailIp ip)).getD 0

theorem OnCounter.wait {start : Int} {failures : Nat} (h : OnCounter cfg ip start failures s)
    (seconds : Nat) : OnCounter cfg ip start failures (s.wait seconds) where
  started := h.started.trans (s.grows_wait seconds).time
  within := h.within
  counted := fun later hlater => h.counted later ((s.grows_wait seconds).time.trans hlater)

theorem OnCounter.next {start : Int} {failures : Nat} (h : OnCounter cfg ip start failures s)
    (hmax : 0 < cfg.loginMaxAttemptsPerIp) {a : Attempt} (hclears : ClearsNothing prims cfg ip s a)
    (htime : (attemptNext prims cfg ip s a).now < start + cfg.loginWindowSeconds) :
    OnCounter cfg ip start (failures + (rejected (attempt prims cfg ip s a).1).toNat)
      (attemptNext prims cfg ip s a) := by
  cases a with
  | pause seconds => exact h.wait seconds
  | login email password =>
    have hcounted := h.counted s.now le_rfl
      ((attempt_grows (.login email password)).time.trans htime.le)
    unfold attemptNext at htime ⊢
    rw [attempt_login] at htime ⊢
    rcases login_atomically prims cfg s ip email password with
      ⟨detail, headers, hlogin⟩ | ⟨hadmits, seconds, detail, hlogin⟩ |
        ⟨hadmits, hverdict, answer, s', hlogin⟩ | ⟨seconds, detail, headers, hlogin⟩
    · rw [hlogin]
      exact h
    · -- The address had an attempt left, and the failure takes it.
      rw [hlogin] at htime ⊢
      dsimp only at htime ⊢
      have hwait := h.wait seconds
      have hnow : (exec (.incrExpire (LoginCall.counters prims ⟨email, password, ip⟩)
          cfg.loginWindowSeconds) (s.wait seconds)).2.now = (s.wait seconds).now :=
        execAmong_now (.incrExpire _ _) _
      have hstarted := hwait.started
      refine ⟨hstarted.trans hnow.ge, ?_, fun later hlater hend => ?_⟩
      · have hlt : (get s.redis s.now (.loginFailIp ip)).getD 0 < cfg.loginMaxAttemptsPerIp :=
          lt_of_admits cfg hmax hadmits
        show failures + 1 ≤ _
        omega
      · have hbefore := hwait.counted (s.wait seconds).now le_rfl (by omega)
        show failures + 1 ≤ _
        rw [get_recorded_ip (by omega), Option.getD_some]
        exact Nat.succ_le_succ hbefore
    · -- A success, and nothing on the counter that it could clear.
      rw [hclears hadmits hverdict] at hcounted
      have hnone : failures = 0 := Nat.le_zero.mp hcounted
      rw [hlogin]
      subst hnone
      exact ⟨h.started.trans (Handler.grows hlogin).time, Nat.zero_le _, fun _ _ _ => Nat.zero_le _⟩
    · rw [hlogin]
      exact h.wait seconds

end Attempts

instance (ip : String) (s : Server) : DecidablePred (ClearsNothing prims cfg ip s) := fun a =>
  match a with
  | .login _ _ => inferInstanceAs (Decidable (_ → _ → _))
  | .pause _ => .isTrue trivial

/-- Logins in turn from one address, in less than a window: if an address has
attempts at all and no success wipes out its failures, no more are rejected
than it has attempts. -/
theorem rejections_bounded (ip : String) (s : Server) (as : List Attempt)
    (hmax : 0 < cfg.loginMaxAttemptsPerIp)
    (hclears : Along (attemptNext prims cfg ip) (ClearsNothing prims cfg ip) s as)
    (htime : (run (attemptNext prims cfg ip) s as).now < s.now + cfg.loginWindowSeconds) :
    rejections prims cfg ip s as ≤ cfg.loginMaxAttemptsPerIp := by
  have hrun : ∀ (as : List Attempt) (failures : Nat) (t : Server), OnCounter cfg ip s.now failures t →
      Along (attemptNext prims cfg ip) (ClearsNothing prims cfg ip) t as →
      (run (attemptNext prims cfg ip) t as).now < s.now + cfg.loginWindowSeconds →
      failures + rejections prims cfg ip t as ≤ cfg.loginMaxAttemptsPerIp := by
    intro as
    induction as with
    | nil => exact fun failures t h _ _ => h.within
    | cons a as ih =>
      intro failures t h hclears htime
      have hend := lt_of_le_of_lt (attempts_grow as _).time htime
      have hrest := ih _ _ (h.next hmax hclears.1 hend) hclears.2 htime
      rw [rejections, ← Nat.add_assoc]
      exact hrest
  have hstart : OnCounter cfg ip s.now 0 s :=
    ⟨le_rfl, Nat.zero_le _, fun _ _ _ => Nat.zero_le _⟩
  simpa using hrun as 0 s hstart hclears htime

/-- A guess, a pause and a guess at another account, from a fresh address. -/
def patientGuest : List Attempt :=
  [.login "nobody@royd" "taxmin", .pause 5, .login "desk@royd" "taxmin"]

theorem rejections_bounded_patient :
    rejections plainPrimitives {} "10.0.0.1" frontDesk patientGuest = 2 ∧
      rejections plainPrimitives {} "10.0.0.1" frontDesk patientGuest ≤
        ({} : Settings).loginMaxAttemptsPerIp :=
  ⟨by decide +kernel, rejections_bounded plainPrimitives {} "10.0.0.1" frontDesk patientGuest
    (by decide) (by decide +kernel) (by decide +kernel)⟩

/-- A floor with fifteen more registrators. -/
def floor : Server :=
  { frontDesk with
    users := frontDesk.users ++ (List.range 15).map fun n =>
      { id := n + 2, fullName := "Registrator", email := some (toString n ++ "@royd"),
        passwordHash := some "maxfiy", role := .registrator } }

/-- One guess at each of them. -/
def spray : List Attempt := (List.range 15).map fun n => .login (toString n ++ "@royd") "taxmin"

/-- The same again, with the last guess a minute later: a minute takes thirty
POSTs from one address. -/
def sprayAgain : List Attempt := spray.take 14 ++ .pause 60 :: spray.drop 14

/-- One good account in between wipes the slate: within the window thirty
passwords are tried from an address that has twenty attempts. -/
theorem spray_past_limit :
    ({} : Settings).loginMaxAttemptsPerIp = 20 ∧
      (run (attemptNext plainPrimitives {} "10.0.0.1") floor
        (spray ++ .login "desk@royd" "parol" :: sprayAgain)).now <
          floor.now + ({} : Settings).loginWindowSeconds ∧
      rejections plainPrimitives {} "10.0.0.1" floor
        (spray ++ .login "desk@royd" "parol" :: sprayAgain) = 30 := by
  decide +kernel

end Royd.Auth
