/-
Royd.Auth.OneTimeCodes — a one-time code is accepted once.

A code of time step `s` is good from `30 (s - 1)` on and until `30 (s + 2)`:
the matcher takes the previous and the next step too. Whoever accepts it
marks it as used, for 120 seconds. A call that marks it later than that would
have read the clock 30 seconds before, or earlier, and calls are faster: the
last moment at which a code can be marked comes before the first mark of it
is gone.

The calls are those that consume a code, any number of them at once. All
else that the system does in between is an `Elsewhere`.
-/
import Royd.Auth.Footprints
import Royd.Auth.Wf
import Royd.Lib.Pools

namespace Royd.Auth

open ExpiringStore Programs Pools Runs

/-! ## The calls -/

/-- The calls that consume a code. -/
inductive CodeCall where
  | loginSecondFactor (mfaToken : Token) (code ip : String)
  | totpEnable (token : Option Token) (code : String)
  | totpDisable (token : Option Token) (password code : String)
  deriving DecidableEq, Repr

/-- What the rest of the system does between two commands: time does not go
back, and nobody else touches a mark. -/
structure Elsewhere where
  effect : Server → Server
  time : ∀ s, s.now ≤ (effect s).now
  marks : ∀ s later userId step, get (effect s).redis later (.totpUsed userId step) =
    get s.redis later (.totpUsed userId step)

/-- The calls under way, or through. -/
abbrev CodeCalls := Pool CodeCall Command Command.Reply Failure Answer Server

/-- One of them. -/
abbrev CodeThread := Thread CodeCall Command Command.Reply Failure Answer

variable (prims : Primitives) (cfg : Settings)

/-- The program of a call. -/
def codeProg : CodeCall → Handler Answer
  | .loginSecondFactor mfaToken code ip => loginSecondFactor prims cfg mfaToken code ip
  | .totpEnable token code => totpEnable prims cfg token code
  | .totpDisable token password code => totpDisable prims cfg token password code

/-- One move of the system. -/
def codeMove : CodeCalls → Move CodeCall Elsewhere → CodeCalls :=
  next execAmong (codeProg prims cfg) Elsewhere.effect

/-! ## What a call has done -/

/-- When the call read the clock, and the code it burnt. -/
structure Burning where
  reading : Option Int := none
  burnt : Option (Nat × Int) := none
  deriving DecidableEq, Repr

/-- At `t` a code of the step matches. -/
def InWindow (t step : Int) : Prop :=
  stepSeconds * (step - driftSteps) ≤ t ∧ t < stepSeconds * (step + driftSteps + 1)

/-- The keys of marks. -/
def Key.isMark : Key → Bool
  | .totpUsed .. => true
  | _ => false

/-- A call marks at most one code, one that matched at the time it read, and
touches no mark otherwise. -/
def codes : Monitor Command Command.Reply Burning where
  allows
    | q, .setNx k ttl => q.burnt = none ∧ ttl = 120 ∧
      ∃ t userId step, q.reading = some t ∧ k = .totpUsed userId step ∧ InWindow t step
    | _, .setex k .. => k.isMark = false
    | _, .delete ks => ∀ k ∈ ks, k.isMark = false
    | _, .incrExpire ks _ => ∀ k ∈ ks, k.isMark = false
    | _, _ => True
  possible _ _ := True
  next
    | q, .clock, t => { q with reading := some t }
    | q, .setNx (.totpUsed userId step) _, ok => if ok then { q with burnt := some (userId, step) } else q
    | q, _, _ => q

/-- What the call has done so far. -/
def burning (th : CodeThread) : Burning := Thread.after codes {} th.trace

/-- The call was accepted on the code of this step. -/
def accepted (userId : Nat) (step : Int) (th : CodeThread) : Bool :=
  (burning th).burnt == some (userId, step)

/-- The next command marks a code. -/
def marks (th : CodeThread) : Bool :=
  match th.next? with
  | some (.setNx ..) => true
  | _ => false

/-- Fewer than 30 seconds pass between the match and the mark, so the clock
shows at most 30 more. -/
def Prompt (w : CodeCalls) : Move CodeCall Elsewhere → Prop
  | .step i => ∀ th ∈ w.threads[i]?, marks th = true →
    ∀ t ∈ (burning th).reading, w.shared.now ≤ t + 30
  | _ => True

instance (w : CodeCalls) : DecidablePred (Prompt w) := fun m =>
  match m with
  | .start _ => .isTrue trivial
  | .step i => inferInstanceAs (Decidable (∀ th ∈ w.threads[i]?, _ → ∀ t ∈ (burning th).reading, _))
  | .act _ => .isTrue trivial

/-! ## Functions that mark no code -/

variable {prims cfg} {α β : Type}

attribute [local simp] send Prog.issue codes Key.isMark

/-- Whatever the function returns, the call has marked nothing by it. -/
def Unmarking (p : Handler α) : Prop :=
  ∀ (q : Burning) (post : Burning → α → Prop), (∀ a, post q a) → Obeys codes post q p

/-- A function of whose commands none is about a code. -/
theorem unmarking_of_sends {p : Handler α} (hp : Sends codes.Blind p) : Unmarking p :=
  fun _ _ h => hp.obeys h

theorem unmarking_require (b : Bool) (e : Failure) : Unmarking (require b e) :=
  unmarking_of_sends (sends_require b e)

theorem unmarking_requireActive (row : Option User) (e : Failure) :
    Unmarking (requireActive row e) :=
  unmarking_of_sends (sends_requireActive row e)

theorem unmarking_selectUser (id : Nat) : Unmarking (send (.selectUser id)) :=
  unmarking_of_sends (sends_send fun _ => ⟨trivial, fun _ => rfl⟩)

theorem unmarking_commitUser (loaded left : User) : Unmarking (commitUser loaded left) :=
  unmarking_of_sends (sends_commitUser fun _ => ⟨trivial, fun _ => rfl⟩)

theorem unmarking_decodeToken (t : Token) : Unmarking (decodeToken t) :=
  unmarking_of_sends (sends_decodeToken fun _ => ⟨trivial, fun _ => rfl⟩)

theorem unmarking_getCurrentUser (token : Option Token) : Unmarking (getCurrentUser cfg token) :=
  unmarking_of_sends (sends_getCurrentUser (fun _ _ => ⟨trivial, fun _ => rfl⟩)
    (fun _ _ => ⟨trivial, fun _ => rfl⟩) (fun _ _ => ⟨trivial, fun _ => rfl⟩)
    (fun _ _ _ _ => ⟨rfl, fun _ => rfl⟩) token)

theorem unmarking_checkBruteForce (identity ip : String) :
    Unmarking (checkBruteForce cfg identity ip) :=
  unmarking_of_sends (sends_checkBruteForce (fun _ => ⟨trivial, fun _ => rfl⟩)
    fun _ _ => ⟨trivial, fun _ => rfl⟩)

theorem unmarking_recordLoginFailure (identity ip : String) :
    Unmarking (recordLoginFailure cfg identity ip) :=
  unmarking_of_sends (sends_send fun _ => ⟨by simp, fun _ => rfl⟩)

theorem unmarking_clearLoginFailures (identity ip : String) :
    Unmarking (clearLoginFailures identity ip) :=
  unmarking_of_sends (sends_send fun _ => ⟨by simp, fun _ => rfl⟩)

theorem unmarking_completeLogin (user : User) : Unmarking (completeLogin cfg user) := by
  intro q post h
  simp [completeLogin, issueTokens, newSessionId, createAccessToken, createRefreshToken,
    registerRefreshJti, touchSession, h]

/-! ## The calls mark what they match -/

/-- A step that matches has the present in its window. -/
theorem inWindow_of_matchingStep {secret code : String} {t step : Int}
    (h : matchingStep prims secret code t = .ok (some step)) : InWindow t step := by
  unfold matchingStep at h
  dsimp only at h
  split at h
  · cases h
  · split at h
    · cases h
    · have hmem := List.mem_of_find?_eq_some (Except.ok.inj h)
      simp only [List.mem_cons, List.not_mem_nil, or_false, stepSeconds, driftSteps] at hmem
      unfold InWindow stepSeconds driftSteps
      omega

/-- A code that is accepted was marked, and one that is not was not. -/
theorem codes_consumeTotp {q : Burning} {post : Burning → Bool → Prop} (hq : q.burnt = none)
    (haccepted : ∀ q', q'.burnt.isSome = true → post q' true)
    (hrefused : ∀ q', q'.burnt = none → post q' false) (user : User) (code : String) :
    Obeys codes post q (consumeTotp prims user code) := by
  unfold consumeTotp
  split
  · exact hrefused q hq
  · simp only [send, Prog.issue_bind, obeys_call]
    refine ⟨trivial, fun t _ => ?_⟩
    unfold burnStep
    split
    · trivial
    · exact hrefused _ hq
    · rename_i step hstep
      refine ⟨⟨hq, rfl, t, user.id, step, rfl, rfl, inWindow_of_matchingStep hstep⟩, fun ok _ => ?_⟩
      cases ok with
      | true => exact haccepted _ rfl
      | false => exact hrefused _ hq

/-- A call that succeeds has marked a code. -/
theorem codes_codeProg (call : CodeCall) :
    Obeys codes (fun q _ => q.burnt.isSome = true) {} (codeProg prims cfg call) := by
  cases call with
  | loginSecondFactor mfaToken code ip =>
    unfold codeProg loginSecondFactor
    simp only [obeys_bind]
    refine unmarking_decodeToken _ _ _ fun _ => unmarking_require _ _ _ _ fun _ =>
      unmarking_selectUser _ _ _ fun _ => unmarking_requireActive _ _ _ _ fun user =>
      unmarking_require _ _ _ _ fun _ => unmarking_checkBruteForce _ _ _ _ fun _ => ?_
    refine codes_consumeTotp rfl (fun q hq => ?_) (fun q hq => ?_) user code
    · exact unmarking_clearLoginFailures _ _ _ _ fun _ => unmarking_completeLogin _ _ _ fun _ => hq
    · unfold requireCode
      simp only [Bool.false_eq_true, if_false, obeys_bind]
      exact unmarking_recordLoginFailure _ _ _ _ fun _ => trivial
  | totpEnable token code =>
    unfold codeProg totpEnable
    simp only [obeys_bind]
    refine unmarking_getCurrentUser _ _ _ fun user => unmarking_require _ _ _ _ fun _ => ?_
    refine codes_consumeTotp rfl (fun q hq => ?_) (fun q hq => trivial) user code
    exact unmarking_require _ _ _ _ fun _ => unmarking_commitUser _ _ _ _ fun _ => hq
  | totpDisable token password code =>
    unfold codeProg totpDisable
    simp only [obeys_bind]
    refine unmarking_getCurrentUser _ _ _ fun user => unmarking_require _ _ _ _ fun _ =>
      unmarking_require _ _ _ _ fun _ => ?_
    refine codes_consumeTotp rfl (fun q hq => ?_) (fun q hq => trivial) user code
    exact unmarking_require _ _ _ _ fun _ => unmarking_commitUser _ _ _ _ fun _ => hq

/-! ## What one step does -/

theorem get_incrExpire_of_notMem {ttl : Int} {k : Key} {later : Int} : ∀ {ks : List Key} {s : Server},
    k ∉ ks → get (ks.foldl (Server.incrExpire ttl) s).redis later k = get s.redis later k
  | [], _, _ => rfl
  | k' :: ks, s, h => by
    have hne : k ≠ k' := fun heq => h (heq ▸ List.mem_cons_self)
    rw [List.foldl_cons, get_incrExpire_of_notMem fun hmem => h (List.mem_cons_of_mem _ hmem)]
    exact get_setex_of_ne later hne

/-- One command of a call: what it does to the marks, and to what the call
has done. `marking` is that the command was to mark a code. -/
inductive CodeStep (marking : Bool) (s : Server) (q : Burning) : Server → Burning → Prop
  | spared {s' : Server} {q' : Burning} (now : s'.now = s.now)
      (kept : ∀ later userId step, get s'.redis later (.totpUsed userId step) =
        get s.redis later (.totpUsed userId step))
      (burnt : q'.burnt = q.burnt) (reading : q'.reading = q.reading ∨ q'.reading = some s.now) :
      CodeStep marking s q s' q'
  | marked (t : Int) (userId : Nat) (step : Int) (isMarking : marking = true)
      (reading : q.reading = some t) (window : InWindow t step) (unburnt : q.burnt = none)
      (unmarked : s.has (.totpUsed userId step) = false) :
      CodeStep marking s q (s.setex (.totpUsed userId step) 120 mark)
        { q with burnt := some (userId, step) }

/-- The clock stands still during a command. -/
theorem CodeStep.now {marking : Bool} {s s' : Server} {q q' : Burning}
    (h : CodeStep marking s q s' q') : s'.now = s.now := by
  cases h with
  | spared now kept burnt reading => exact now
  | marked t userId step isMarking reading window unburnt unmarked => rfl

/-- What a call has read of the clock is not in the future. -/
theorem CodeStep.reading_le {marking : Bool} {s s' : Server} {q q' : Burning}
    (h : CodeStep marking s q s' q') (hq : ∀ t ∈ q.reading, t ≤ s.now) :
    ∀ t ∈ q'.reading, t ≤ s'.now := by
  intro t ht
  rw [h.now]
  cases h with
  | spared now kept burnt reading =>
    rcases reading with hsame | hread
    · exact hq t (hsame ▸ ht)
    · rw [hread] at ht
      cases ht
      exact le_rfl
  | marked t' userId step isMarking reading window unburnt unmarked => exact hq t ht

theorem codeStep_of_allows {marking : Bool} {q : Burning} {c : Command} (s : Server)
    (h : codes.allows q c) (hmarking : ∀ k ttl, c = .setNx k ttl → marking = true) :
    CodeStep marking s q (execAmong c s).2 (codes.next q c (execAmong c s).1) := by
  have hnow := execAmong_now c s
  cases c with
  | setNx k ttl =>
    obtain ⟨hunburnt, rfl, t, userId, step, hreading, rfl, hwindow⟩ := h
    have hexec : execAmong (.setNx (.totpUsed userId step) 120) s =
        if s.has (.totpUsed userId step) then (false, s)
        else (true, s.setex (.totpUsed userId step) 120 mark) := rfl
    rw [hexec]
    cases hhas : s.has (.totpUsed userId step) with
    | true => exact .spared rfl (fun _ _ _ => rfl) rfl (.inl rfl)
    | false => exact .marked t userId step (hmarking _ _ rfl) hreading hwindow hunburnt hhas
  | setex k ttl v =>
    refine .spared hnow (fun later userId step => get_setex_of_ne later ?_) rfl (.inl rfl)
    rintro rfl
    cases (show true = false from h)
  | delete ks =>
    refine .spared hnow (fun later userId step => get_delete_of_notMem fun hmem => ?_) rfl (.inl rfl)
    cases (show true = false from h _ hmem)
  | incrExpire ks ttl =>
    refine .spared hnow (fun later userId step => get_incrExpire_of_notMem fun hmem => ?_) rfl (.inl rfl)
    cases (show true = false from h _ hmem)
  | commitUser loaded left =>
    refine .spared hnow (fun later userId step => ?_) rfl (.inl rfl)
    show get (exec (.commitUser loaded left) s).2.redis _ _ = _
    simp only [exec]
    split <;> rfl
  | clock => exact .spared hnow (fun _ _ _ => rfl) rfl (.inr rfl)
  | _ => exact .spared hnow (fun _ _ _ => rfl) rfl (.inl rfl)

/-- A step does nothing, or one call goes on. -/
theorem codeMove_step {w : CodeCalls}
    (h : Disciplined (fun _ => codes) (fun _ q _ => q.burnt.isSome = true) {} w) (i : Nat) :
    codeMove prims cfg w (.step i) = w ∨
      ∃ before th th' after s', w.threads[i]? = some th ∧ w.threads = before ++ th :: after ∧
        CodeStep (marks th) w.shared (burning th) s' (burning th') ∧
        codeMove prims cfg w (.step i) = ⟨s', before ++ th' :: after⟩ := by
  rcases next_step execAmong (codeProg prims cfg) Elsewhere.effect w i with
    heq | ⟨before, th, after, c, k, hth, hthreads, hcall, heq⟩
  · exact .inl heq
  · have hallows := ((h th (List.mem_of_getElem? hth)).call hcall).1
    refine .inr ⟨before, th, th.goOn c (execAmong c w.shared).1 (k (execAmong c w.shared).1), after,
      _, hth, hthreads, codeStep_of_allows w.shared hallows ?_, heq⟩
    rintro key ttl rfl
    simp [marks, Thread.next?, hcall]

/-! ## The mark of a code -/

/-- At most one call was accepted on the code. If one was, the mark is there
for as long as the code can still be marked. -/
structure Once (userId : Nat) (step : Int) (w : CodeCalls) : Prop where
  disciplined : Disciplined (fun _ => codes) (fun _ q _ => q.burnt.isSome = true) {} w
  readings : ∀ th ∈ w.threads, ∀ t ∈ (burning th).reading, t ≤ w.shared.now
  once : tally (accepted userId step) w ≤ 1
  marked : tally (accepted userId step) w = 1 → ∀ later, w.shared.now ≤ later →
    later < stepSeconds * (step + 3) → (get w.shared.redis later (.totpUsed userId step)).isSome = true

theorem Once.step {userId : Nat} {step : Int} {w : CodeCalls} {i : Nat} (h : Once userId step w)
    (hprompt : Prompt w (.step i)) : Once userId step (codeMove prims cfg w (.step i)) := by
  have hdisciplined : Disciplined (fun _ => codes) (fun _ q _ => q.burnt.isSome = true) {}
      (codeMove prims cfg w (.step i)) :=
    disciplined_next (fun _ => codes_codeProg _) (fun _ _ _ => trivial) h.disciplined _
  rcases codeMove_step h.disciplined i with
    heq | ⟨before, th, th', after, s', hth, hthreads, hstep, heq⟩
  · rw [heq]
    exact h
  obtain ⟨s, threads⟩ := w
  dsimp only at hthreads hstep
  subst hthreads
  rw [heq] at hdisciplined ⊢
  have hreadings := h.readings
  have honce := h.once
  have hmarked := h.marked
  have hown := hreadings th (by simp)
  have hclock := hprompt th hth
  have hcount := tally_goOn (accepted userId step) before after th s s' th'
  dsimp only at hreadings hown hclock hmarked
  simp only [accepted] at hcount
  have hreadings' : ∀ other ∈ before ++ th' :: after, ∀ t ∈ (burning other).reading, t ≤ s'.now := by
    intro other hother t ht
    rcases Tables.mem_exchange hother with rfl | hother
    · exact hstep.reading_le hown t ht
    · rw [hstep.now]
      exact hreadings other hother t ht
  generalize hold : burning th = q at hstep hown hclock hcount
  generalize hnew : burning th' = q' at hstep hcount
  cases hstep with
  | spared now kept burnt reading =>
    rw [burnt] at hcount
    have hsame := Nat.add_right_cancel hcount
    refine ⟨hdisciplined, hreadings', le_of_eq_of_le hsame honce, ?_⟩
    intro hone later hlater hend
    dsimp only at hlater ⊢
    rw [kept]
    exact hmarked (hsame.symm.trans hone) later (now ▸ hlater) hend
  | marked t userId' step' isMarking reading window unburnt unmarked =>
    rw [unburnt] at hcount
    by_cases hkey : userId' = userId ∧ step' = step
    · obtain ⟨rfl, rfl⟩ := hkey
      -- The code is marked while it, or the mark of whoever was first, lasts.
      have hearly := window.1
      have hlate := window.2
      have hpast := hown t reading
      have hsoon := hclock isMarking t reading
      unfold stepSeconds driftSteps at hearly hlate
      have hzero : tally (accepted userId' step') ⟨s, before ++ th :: after⟩ = 0 := by
        by_contra hne
        have hpresent := hmarked (by omega) s.now le_rfl (by unfold stepSeconds; omega)
        unfold Server.has contains at unmarked
        rw [unmarked] at hpresent
        cases hpresent
      have hnone : ((none : Option (Nat × Int)) == some (userId', step')) = false := rfl
      rw [hzero, hnone] at hcount
      refine ⟨hdisciplined, hreadings', ?_, fun _ later hlater hend => ?_⟩
      · simp at hcount
        exact hcount.le
      · unfold stepSeconds at hend
        dsimp only
        rw [Server.setex, get_setex_self (by omega)]
        rfl
    · have hother : ((some (userId', step') : Option (Nat × Int)) == some (userId, step)) = false := by
        simpa using hkey
      have hnone : ((none : Option (Nat × Int)) == some (userId, step)) = false := rfl
      rw [hother, hnone] at hcount
      have hsame := Nat.add_right_cancel hcount
      refine ⟨hdisciplined, hreadings', le_of_eq_of_le hsame honce, fun hone later hlater hend => ?_⟩
      dsimp only at hlater ⊢
      rw [Server.setex, get_setex_of_ne later (by simp; omega)]
      exact hmarked (hsame.symm.trans hone) later hlater hend

theorem Once.move {userId : Nat} {step : Int} {w : CodeCalls} (h : Once userId step w)
    {m : Move CodeCall Elsewhere} (hprompt : Prompt w m) :
    Once userId step (codeMove prims cfg w m) := by
  cases m with
  | start call =>
    have hfresh : accepted userId step (fresh (codeProg prims cfg) call) = false := rfl
    have hsame : tally (accepted userId step) (codeMove prims cfg w (.start call)) =
        tally (accepted userId step) w := by
      rw [codeMove, tally_start, hfresh, Bool.toNat_false, Nat.add_zero]
    refine ⟨disciplined_next (fun _ => codes_codeProg _) (fun _ _ _ => trivial) h.disciplined _,
      ?_, hsame ▸ h.once, hsame ▸ h.marked⟩
    intro th hth t ht
    rcases List.mem_append.mp hth with hth | hth
    · exact h.readings th hth t ht
    · rw [List.mem_singleton.mp hth] at ht
      cases ht
  | step i => exact h.step hprompt
  | act e =>
    refine ⟨h.disciplined, fun th hth t ht => (h.readings th hth t ht).trans (e.time _), h.once, ?_⟩
    intro hone later hlater hend
    show (get (e.effect w.shared).redis later _).isSome = true
    rw [e.marks]
    exact h.marked hone later ((e.time _).trans hlater) hend

/-- A one-time code is accepted once: whatever calls run at once, and however
long ago the mark of a code has expired, at most one call is accepted on the
code of a step; and no call succeeds without being accepted on one. -/
theorem code_accepted_once (s : Server) (ms : List (Move CodeCall Elsewhere))
    (hprompt : Along (codeMove prims cfg) Prompt { shared := s } ms) :
    (∀ userId step,
      tally (accepted userId step) (run (codeMove prims cfg) { shared := s } ms) ≤ 1) ∧
    ∀ th ∈ (run (codeMove prims cfg) { shared := s } ms).threads, ∀ answer, th.prog = .pure answer →
      ∃ userId step, accepted userId step th = true := by
  have hrun : ∀ userId step, Once userId step (run (codeMove prims cfg) { shared := s } ms) := by
    intro userId step
    have hinit : Once userId step { shared := s } :=
      ⟨fun th hth => (by cases hth), fun th hth => (by cases hth), Nat.zero_le _,
        fun hone => by cases hone⟩
    exact run_invariant_along (fun w m hw hm => hw.move hm) hinit hprompt
  refine ⟨fun userId step => (hrun userId step).once, fun th hth answer hdone => ?_⟩
  have hobeys := (hrun 0 0).disciplined th hth
  unfold Thread.Obeys at hobeys
  rw [hdone] at hobeys
  obtain ⟨⟨userId, step⟩, hburnt⟩ := Option.isSome_iff_exists.mp hobeys
  have hburning : (burning th).burnt = some (userId, step) := hburnt
  exact ⟨userId, step, by rw [accepted, hburning]; exact beq_self_eq_true _⟩

/-! ## At the front desk -/

/-- Time passes. -/
def passing (seconds : Nat) : Elsewhere where
  effect := (·.wait seconds)
  time := fun s => (s.grows_wait seconds).time
  marks := fun _ _ _ _ => rfl

/-- The registrator, with a second factor and a token that asks for it. -/
def guardedDesk : Server :=
  { users :=
      [{ id := 1, fullName := "Registrator", email := some "desk@royd", passwordHash := some "parol",
         role := .registrator, totpSecret := some "SECRET", totpEnabled := true }]
    now := 0
    issued := [{ type := .mfa, sub := 1, jti := 0, sid := none, iat := 0, exp := 300 }] }

/-- The code, shown with that token. -/
def showCode : CodeCall :=
  .loginSecondFactor { type := .mfa, sub := 1, jti := 0, sid := none, iat := 0, exp := 300 } "000007"
    "10.0.0.1"

/-- As `plainPrimitives`, but the code of a step is the step. -/
def countingPrimitives : Primitives :=
  { plainPrimitives with codeAt := fun _ step => if step = 1 then "000007" else "000000" }

/-- The code of step 1 is shown twice at once, by calls that read the clock
before either marks it, and again when its mark has expired. -/
def codeThrice : List (Move CodeCall Elsewhere) :=
  [.start showCode, .start showCode, .step 0, .step 1, .step 0, .step 1, .step 0, .step 1,
    .step 0, .step 1, .act (passing 10), .step 0, .step 1] ++ List.replicate 6 (.step 0) ++
    [.step 1, .act (passing 130), .start showCode] ++ List.replicate 5 (.step 2)

theorem code_accepted_once_thrice :
    (run (codeMove countingPrimitives {}) { shared := guardedDesk } codeThrice).threads.map
        (accepted 1 1) = [true, false, false] ∧
      (∀ userId step, tally (accepted userId step)
        (run (codeMove countingPrimitives {}) { shared := guardedDesk } codeThrice) ≤ 1) ∧
      ∀ th ∈ (run (codeMove countingPrimitives {}) { shared := guardedDesk } codeThrice).threads,
        ∀ answer, th.prog = .pure answer → ∃ userId step, accepted userId step th = true :=
  ⟨by decide +kernel, code_accepted_once guardedDesk codeThrice (by decide +kernel)⟩

end Royd.Auth
