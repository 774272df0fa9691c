/-
Royd.Middleware.RateLimit — `middleware/rate_limit.py`, with Redis available.

A request is counted under a key of its kind, its identity and the minute. The
identity is the end of the `Authorization` header, whatever is in it, and the
caller's address only if the header is missing. So what the limit binds is not
the caller but the identity: a counter is the number of requests under its identity
(`counter_serve`), those of a minute pass as the counters of their identities leave
room for them (`served_eq`), and `rate_limit_binds_iff` says for which requests that
stays within the limit.
-/
import Mathlib
import Royd.Core.Python
import Royd.Lib.Buckets
import Royd.Lib.ExpiringStore
import Royd.Services.Students

namespace Royd.RateLimit

open ExpiringStore

/-! ## The middleware -/

/-- What the middleware reads of a request. -/
structure Incoming where
  method : String
  path : String
  authorization : Option String := none
  realIp : Option String := none
  clientHost : Option String := none
  deriving DecidableEq, Repr

/-- `_EXEMPT_PATHS`. -/
def exemptPaths : List String :=
  ["/healthz", "/readyz", "/api/docs", "/api/redoc", "/api/openapi.json"]

/-- `_WRITE_METHODS`. -/
def writeMethods : List String := ["POST", "PUT", "PATCH", "DELETE"]

namespace Incoming

variable (r : Incoming)

def isWrite : Bool := writeMethods.contains r.method

/-- Passed on without being counted. -/
def isExempt : Bool :=
  r.method == "OPTIONS" || exemptPaths.any fun p => p.toList.isPrefixOf r.path.toList

/-- `client_ip`. -/
def clientIp : String :=
  match r.realIp with
  | none => r.clientHost.getD "unknown"
  | some ip => if ip == "" then r.clientHost.getD "unknown" else strip ip

/-- `headers.get("authorization", "")[-32:] or client_ip(request)`. -/
def identity : String :=
  let header := (r.authorization.getD "").toList
  orCurrent (String.ofList (header.drop (header.length - 32))) r.clientIp

end Incoming

/-- `int(time.time() // 60)`. -/
def minuteOf (now : Nat) : Nat := now / 60

/-- `f"ratelimit:{kind}:{identity}:{bucket}"`. -/
def keyText (write : Bool) (identity : String) (minute : Nat) : String :=
  "ratelimit:" ++ (if write then "w" else "r") ++ ":" ++ identity ++ ":" ++ toString minute

/-- `rate_limit_per_minute`, a quarter of it for writes. -/
def limitOf (perMinute : Nat) (write : Bool) : Nat :=
  if write then max 1 (perMinute / 4) else perMinute

/-- What becomes of a request: it is passed on, with the limit and what remains of
it in the headers of the response, or refused with a `Retry-After`. -/
inductive Verdict where
  | passedOn (limits : Option (Nat × Nat))
  | tooMany (retryAfter : Nat)
  deriving DecidableEq, Repr

namespace Verdict

def isPassed : Verdict → Bool
  | passedOn _ => true
  | tooMany _ => false

end Verdict

abbrev Redis := Store String Nat

variable (perMinute : Nat)

/-- `dispatch`. -/
def dispatch (redis : Redis) (now : Nat) (r : Incoming) : Verdict × Redis :=
  if r.isExempt then (.passedOn none, redis)
  else
    let limit := limitOf perMinute r.isWrite
    let key := keyText r.isWrite r.identity (minuteOf now)
    let count := (get redis now key).getD 0 + 1
    let redis := setex redis now key 120 count
    if count > limit then (.tooMany (60 - now % 60), redis)
    else (.passedOn (some (limit, limit - count)), redis)

/-- Requests with the times they come at, in the order they reach Redis. -/
def serve : Redis → List (Nat × Incoming) → List Verdict × Redis
  | redis, [] => ([], redis)
  | redis, (now, r) :: rest =>
    let answer := dispatch perMinute redis now r
    let answers := serve answer.2 rest
    (answer.1 :: answers.1, answers.2)

/-- How many requests reach the application. -/
def passedOn (redis : Redis) (rs : List (Nat × Incoming)) : Nat :=
  (serve perMinute redis rs).1.countP Verdict.isPassed

/-- The count of a bucket in its minute. -/
def counter (redis : Redis) (write : Bool) (minute : Nat) (identity : String) : Nat :=
  (get redis (60 * minute) (keyText write identity minute)).getD 0

/-- The requests of one kind and one minute, to paths that are counted. -/
def Within (write : Bool) (minute : Nat) (rs : List (Nat × Incoming)) : Prop :=
  ∀ p ∈ rs, minuteOf p.1 = minute ∧ p.2.isWrite = write ∧ p.2.isExempt = false

instance (write : Bool) (minute : Nat) (rs : List (Nat × Incoming)) :
    Decidable (Within write minute rs) :=
  inferInstanceAs (Decidable (∀ p ∈ rs, _))

/-! ## Keys -/

/-- What comes after the last colon, and before it. -/
theorem append_colon_inj {a a' b b' : List Char} (hb : ':' ∉ b) (hb' : ':' ∉ b')
    (h : a ++ ':' :: b = a' ++ ':' :: b') : a = a' ∧ b = b' := by
  have hrev := congrArg List.reverse h
  simp only [List.reverse_append, List.reverse_cons, List.append_assoc, List.singleton_append]
    at hrev
  have hsame : b.reverse = b'.reverse := by
    have htake := congrArg (List.takeWhile (· ≠ ':')) hrev
    have hall : ∀ {l : List Char}, ':' ∉ l → ∀ c ∈ l.reverse, decide (c ≠ ':') = true := by
      intro l hl c hc
      rw [decide_eq_true_iff]
      rintro rfl
      exact hl (List.mem_reverse.mp hc)
    rw [List.takeWhile_append_of_pos (hall hb), List.takeWhile_append_of_pos (hall hb')] at htake
    simpa using htake
  rw [hsame] at hrev
  have hrest := List.append_cancel_left hrev
  exact ⟨List.reverse_inj.mp (List.cons.inj hrest).2, List.reverse_inj.mp hsame⟩

theorem colon_notMem_toDigits (n : Nat) : ':' ∉ Nat.toDigits 10 n := by
  intro hmem
  have hdigit := Nat.isDigit_of_mem_toDigits (by decide) (by decide) hmem
  exact absurd hdigit (by decide)

theorem keyText_toList (write : Bool) (identity : String) (minute : Nat) :
    (keyText write identity minute).toList =
      ("ratelimit:".toList ++ (if write then 'w' else 'r') :: ':' :: identity.toList) ++
        ':' :: Nat.toDigits 10 minute := by
  have hdigits : (toString minute).toList = Nat.toDigits 10 minute := by
    rw [Nat.toString_eq_ofList_toDigits, String.toList_ofList]
  unfold keyText
  simp only [String.toList_append, hdigits, List.append_assoc]
  cases write <;> rfl

/-- Two buckets share a key only if they are one. -/
theorem keyText_inj {write write' : Bool} {identity identity' : String} {minute minute' : Nat}
    (h : keyText write identity minute = keyText write' identity' minute') :
    write = write' ∧ identity = identity' ∧ minute = minute' := by
  have hlists := congrArg String.toList h
  simp only [keyText_toList] at hlists
  obtain ⟨hfront, hminutes⟩ :=
    append_colon_inj (colon_notMem_toDigits _) (colon_notMem_toDigits _) hlists
  have hprefix := List.append_cancel_left hfront
  have hkind : write = write' := by
    cases write <;> cases write' <;> simp_all
  subst hkind
  refine ⟨rfl, ?_, ?_⟩
  · have hidentity := (List.cons.inj hprefix).2
    exact String.toList_injective (List.cons.inj hidentity).2
  · calc
      minute = Nat.ofDigitChars 10 (Nat.toDigits 10 minute) 0 := Nat.ofDigitChars_ten_toDigits.symm
      _ = Nat.ofDigitChars 10 (Nat.toDigits 10 minute') 0 := by rw [hminutes]
      _ = minute' := Nat.ofDigitChars_ten_toDigits

/-! ## One call -/

/-- No counter runs out before its minute does. -/
def Lasting (redis : Redis) : Prop :=
  ∀ e ∈ redis, ∀ write identity now,
    e.key = keyText write identity (minuteOf now) → (now : Int) ≤ e.live

/-- Within the minute it does not matter when a counter is read. -/
theorem Lasting.get_eq {redis : Redis} (h : Lasting redis) {now now' : Nat}
    (hminute : minuteOf now = minuteOf now') (write : Bool) (identity : String) :
    get redis now (keyText write identity (minuteOf now)) =
      get redis now' (keyText write identity (minuteOf now)) := by
  unfold ExpiringStore.get
  congr 1
  apply List.find?_congr
  intro e he
  by_cases hkey : e.key = keyText write identity (minuteOf now)
  · have hnow := h e he write identity now hkey
    have hnow' := h e he write identity now' (hminute ▸ hkey)
    simp [hnow, hnow']
  · rw [beq_false_of_ne hkey, Bool.false_and, Bool.false_and]

theorem dispatch_lasting {redis : Redis} (h : Lasting redis) (now : Nat) (r : Incoming) :
    Lasting (dispatch perMinute redis now r).2 := by
  unfold dispatch
  by_cases hexempt : r.isExempt = true
  · rwa [if_pos hexempt]
  · rw [if_neg hexempt]
    -- The counter lives for two minutes.
    have hset : ∀ count,
        Lasting (setex redis now (keyText r.isWrite r.identity (minuteOf now)) 120 count) := by
      intro count e he write identity later hkey
      rcases List.mem_cons.mp he with rfl | hold
      · have hsame := (keyText_inj hkey).2.2
        unfold minuteOf at hsame
        show (later : Int) ≤ now + 120
        omega
      · exact h e (List.mem_filter.mp hold).1 write identity later hkey
    dsimp only
    split
    · exact hset _
    · exact hset _

theorem serve_lasting {redis : Redis} (h : Lasting redis) (rs : List (Nat × Incoming)) :
    Lasting (serve perMinute redis rs).2 := by
  induction rs generalizing redis with
  | nil => exact h
  | cons p rs ih => exact ih (dispatch_lasting perMinute h p.1 p.2)

theorem lasting_nil : Lasting [] := by
  intro e he
  cases he

/-- The requests that are counted in a bucket. -/
def countedIn (write : Bool) (minute : Nat) (identity : String) (p : Nat × Incoming) : Bool :=
  !p.2.isExempt && keyText p.2.isWrite p.2.identity (minuteOf p.1) == keyText write identity minute

theorem countedIn_iff {write : Bool} {minute : Nat} {identity : String} {p : Nat × Incoming} :
    countedIn write minute identity p = true ↔
      p.2.isExempt = false ∧ p.2.isWrite = write ∧ minuteOf p.1 = minute ∧
        p.2.identity = identity := by
  unfold countedIn
  rw [Bool.and_eq_true, Bool.not_eq_true', beq_iff_eq]
  constructor
  · rintro ⟨hcounted, hkey⟩
    obtain ⟨hwrite, hidentity, hminute⟩ := keyText_inj hkey
    exact ⟨hcounted, hwrite, hminute, hidentity⟩
  · rintro ⟨hcounted, rfl, rfl, rfl⟩
    exact ⟨hcounted, rfl⟩

/-- A request is counted in its bucket, and in no other. -/
theorem counter_dispatch {redis : Redis} (h : Lasting redis) (write : Bool) (minute : Nat)
    (identity : String) (p : Nat × Incoming) :
    counter (dispatch perMinute redis p.1 p.2).2 write minute identity =
      counter redis write minute identity + if countedIn write minute identity p then 1 else 0 := by
  obtain ⟨now, r⟩ := p
  by_cases hexempt : r.isExempt = true
  · have hout : countedIn write minute identity (now, r) = false := by simp [countedIn, hexempt]
    rw [hout, dispatch, if_pos hexempt]
    rfl
  · have hset : (dispatch perMinute redis now r).2 =
        setex redis now (keyText r.isWrite r.identity (minuteOf now)) 120
          ((get redis now (keyText r.isWrite r.identity (minuteOf now))).getD 0 + 1) := by
      unfold dispatch
      rw [if_neg hexempt]
      dsimp only
      split <;> rfl
    rw [hset, counter]
    by_cases hkey : keyText write identity minute = keyText r.isWrite r.identity (minuteOf now)
    · obtain ⟨rfl, rfl, rfl⟩ := keyText_inj hkey
      have hin : countedIn r.isWrite (minuteOf now) r.identity (now, r) = true := by
        simp [countedIn, hexempt]
      have hstart : minuteOf now = minuteOf (60 * minuteOf now) := by
        unfold minuteOf
        omega
      have hread := h.get_eq hstart r.isWrite r.identity
      rw [hin, get_setex_self (by unfold minuteOf; omega), hread]
      rfl
    · have hout : countedIn write minute identity (now, r) = false := by
        simp [countedIn, Ne.symm hkey]
      rw [hout, get_setex_of_ne _ hkey]
      rfl

/-- A counted request passes if its bucket has room. -/
theorem dispatch_passes {redis : Redis} (h : Lasting redis) {now : Nat} {r : Incoming}
    (hcounted : r.isExempt = false) :
    (dispatch perMinute redis now r).1.isPassed =
      decide (counter redis r.isWrite (minuteOf now) r.identity + 1 ≤
        limitOf perMinute r.isWrite) := by
  have hstart : minuteOf now = minuteOf (60 * minuteOf now) := by
    unfold minuteOf
    omega
  have hread := h.get_eq hstart r.isWrite r.identity
  unfold dispatch counter
  rw [if_neg (by simp [hcounted])]
  dsimp only
  rw [hread]
  split
  · rename_i hover
    exact (decide_eq_false (Nat.not_le.mpr hover)).symm
  · rename_i hroom
    exact (decide_eq_true (Nat.not_lt.mp hroom)).symm

/-! ## A minute -/

/-- A counter is the number of requests counted in its bucket. -/
theorem counter_serve {redis : Redis} (h : Lasting redis) (write : Bool) (minute : Nat)
    (identity : String) (rs : List (Nat × Incoming)) :
    counter (serve perMinute redis rs).2 write minute identity =
      counter redis write minute identity + rs.countP (countedIn write minute identity) := by
  induction rs generalizing redis with
  | nil => rfl
  | cons p rs ih =>
    have hrest := ih (dispatch_lasting perMinute h p.1 p.2)
    rw [counter_dispatch perMinute h] at hrest
    rw [serve, hrest, List.countP_cons, add_assoc, add_comm (List.countP _ rs)]

/-- The requests of a minute pass as the buckets of their identities have room. -/
theorem served_eq {redis : Redis} (h : Lasting redis) {write : Bool} {minute : Nat}
    {rs : List (Nat × Incoming)} (hwithin : Within write minute rs) :
    passedOn perMinute redis rs =
      Buckets.passed (limitOf perMinute write) (counter redis write minute)
        (rs.map fun p => p.2.identity) := by
  induction rs generalizing redis with
  | nil => rfl
  | cons p rs ih =>
    obtain ⟨⟨hminute, hwrite, hcounted⟩, hrest⟩ := List.forall_mem_cons.mp hwithin
    subst hminute hwrite
    have hcounter : counter (dispatch perMinute redis p.1 p.2).2 p.2.isWrite (minuteOf p.1) =
        Buckets.count (counter redis p.2.isWrite (minuteOf p.1)) p.2.identity := by
      funext identity
      rw [counter_dispatch perMinute h, Buckets.count, Function.update_apply]
      by_cases hsame : identity = p.2.identity
      · rw [if_pos hsame, if_pos (countedIn_iff.mpr ⟨hcounted, rfl, rfl, hsame.symm⟩), hsame]
      · rw [if_neg hsame, if_neg fun hin => hsame (countedIn_iff.mp hin).2.2.2.symm, add_zero]
    have hih := ih (dispatch_lasting perMinute h p.1 p.2) hrest
    rw [hcounter] at hih
    unfold passedOn at hih ⊢
    rw [serve, List.countP_cons, hih, dispatch_passes perMinute h hcounted, List.map_cons,
      Buckets.passed, add_comm]
    simp only [decide_eq_true_eq]

/-- What the earlier requests of the minute left of a bucket's limit. -/
def room (perMinute : Nat) (before : List (Nat × Incoming)) (write : Bool) (minute : Nat)
    (identity : String) : Nat :=
  limitOf perMinute write - before.countP (countedIn write minute identity)

/-- Whoever sends the requests of a minute, they stay within the limit exactly if
their identities have no more room than that together. If no earlier request was
counted under these, exactly if there is one identity or there are no more requests
than the limit. -/
theorem rate_limit_binds_iff (before : List (Nat × Incoming)) (write : Bool) (minute : Nat)
    (rs : List (Nat × Incoming)) (hwithin : Within write minute rs) :
    (passedOn perMinute (serve perMinute [] before).2 rs ≤ limitOf perMinute write ↔
      ∑ identity ∈ (rs.map fun p => p.2.identity).toFinset,
        min (rs.countP fun p => p.2.identity == identity)
          (room perMinute before write minute identity) ≤ limitOf perMinute write) ∧
    ((∀ p ∈ rs, ∀ q ∈ before, countedIn write minute p.2.identity q = false) →
      (passedOn perMinute (serve perMinute [] before).2 rs ≤ limitOf perMinute write ↔
        limitOf perMinute write = 0 ∨ (∀ p ∈ rs, ∀ q ∈ rs, p.2.identity = q.2.identity) ∨
          rs.length ≤ limitOf perMinute write)) := by
  have hlasting := serve_lasting perMinute lasting_nil before
  have hcounter : ∀ identity, counter (serve perMinute [] before).2 write minute identity =
      before.countP (countedIn write minute identity) := by
    intro identity
    rw [counter_serve perMinute lasting_nil]
    exact Nat.zero_add _
  rw [served_eq perMinute hlasting hwithin]
  constructor
  · rw [Buckets.passed_eq_sum]
    have hsum : ∀ identity,
        Buckets.admitted (limitOf perMinute write)
            (counter (serve perMinute [] before).2 write minute)
            (rs.map fun p => p.2.identity) identity =
          min (rs.countP fun p => p.2.identity == identity)
            (room perMinute before write minute identity) := by
      intro identity
      rw [Buckets.admitted, hcounter, room, List.count, List.countP_map]
      rfl
    simp only [hsum]
  · intro hfresh
    have hempty : ∀ identity ∈ rs.map fun p => p.2.identity,
        counter (serve perMinute [] before).2 write minute identity = 0 := by
      intro identity hmem
      obtain ⟨p, hp, rfl⟩ := List.mem_map.mp hmem
      rw [hcounter, List.countP_eq_zero]
      intro q hq
      rw [hfresh p hp q hq]
      exact Bool.false_ne_true
    rw [Buckets.passed_le_iff hempty, List.length_map, List.forall_mem_map]
    simp only [List.forall_mem_map]

/-- A request with a token in its header, and one without. -/
theorem rate_limit_binds_iff_mixed :
    let rs : List (Nat × Incoming) :=
      [(61, { method := "GET", path := "/api/v1/requests", authorization := some "Bearer a" }),
        (62, { method := "GET", path := "/api/v1/requests" })]
    passedOn 1 (serve 1 [] []).2 rs ≤ limitOf 1 false ↔
      limitOf 1 false = 0 ∨ (∀ p ∈ rs, ∀ q ∈ rs, p.2.identity = q.2.identity) ∨
        rs.length ≤ limitOf 1 false :=
  (rate_limit_binds_iff 1 [] false 1 _ (by decide)).2 (by decide)

/-- Thirty-one writes of one subject under two of its tokens, and thirty-one of one
address under two made-up headers: in both cases all are passed on, of a limit of
thirty. -/
theorem rotated_header_passes :
    (¬∀ (subject : Option String → Option Nat) (perMinute : Nat) (before : List (Nat × Incoming))
        (write : Bool) (minute : Nat) (rs : List (Nat × Incoming)) (user : Nat),
      Within write minute rs → (∀ p ∈ rs, subject p.2.authorization = some user) →
        passedOn perMinute (serve perMinute [] before).2 rs ≤ limitOf perMinute write) ∧
    ¬∀ (perMinute : Nat) (before : List (Nat × Incoming)) (write : Bool) (minute : Nat)
        (rs : List (Nat × Incoming)) (ip : String),
      Within write minute rs → (∀ p ∈ rs, p.2.clientIp = ip) →
        passedOn perMinute (serve perMinute [] before).2 rs ≤ limitOf perMinute write := by
  let post (header : String) : Nat × Incoming :=
    (60, { method := "POST", path := "/api/v1/requests", authorization := some header,
           realIp := some "10.0.0.7" })
  have hpassed : passedOn 120 (serve 120 [] []).2
      (List.replicate 30 (post "Bearer first") ++ [post "Bearer second"]) = 31 := by decide +kernel
  have hwithin : Within true 1
      (List.replicate 30 (post "Bearer first") ++ [post "Bearer second"]) := by decide +kernel
  constructor
  · intro hall
    have hle := hall (fun header => if header.isSome then some 1 else none) 120 [] true 1 _ 1 hwithin
      (by decide +kernel)
    rw [hpassed] at hle
    exact absurd hle (by decide)
  · intro hall
    have hle := hall 120 [] true 1 _ "10.0.0.7" hwithin (by decide +kernel)
    rw [hpassed] at hle
    exact absurd hle (by decide)

end Royd.RateLimit
