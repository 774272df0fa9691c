/-
Royd.Realtime.NotificationSocket — `useNotificationSocket.ts`: the connection
loops of one browser tab.

Each run of the effect opens a socket and, when that socket closes, opens the
next one after a delay. The `closedByUs` flag that should end a loop is shared
by all runs: the cleanup of a run sets it and the run that follows clears it
again, both before the browser can report that the old socket has closed. So a
new access token ends the loop of the token before it only if that loop was
waiting for its timer; otherwise the loop goes on, with the old token
(`loops_of_a_session`).

React runs a cleanup and the effect after it in one go, and `close()` reports
back later, so a change of the token is one event here and a close another.
-/
import Royd.Lib.Runs
import Royd.Lib.Tables
import Mathlib.Algebra.Group.Nat.Defs

namespace Royd.Realtime.Hook

open Runs

/-! ## The hook -/

/-- `ws.readyState`; `closed` once `onclose` has run. -/
inductive Phase where
  | connecting
  | open
  | closing
  | closed
  deriving DecidableEq, Repr

/-- A `WebSocket`, the run of the effect that opened it and the token it was
authenticated with. -/
structure Socket where
  run : Nat
  phase : Phase := .connecting
  auth : Option String := none
  deriving DecidableEq, Repr

/-- The variables of one run of the effect. `stopped` tells whether its
cleanup took a pending `reconnectTimer` away. -/
structure EffectRun where
  token : String
  reconnectTimer : Option Nat := none
  pinging : Bool := false
  stopped : Bool := false
  deriving DecidableEq, Repr

/-- A `setTimeout(connect, delay)` that has not fired. -/
structure Timer where
  id : Nat
  run : Nat
  delay : Nat
  deriving DecidableEq, Repr

/-- The hook in a tab: the refs, the runs of the effect that had a token, and
what the browser holds for them. `signedIn` tells whether the last run had
one. -/
structure Tab where
  signedIn : Bool := false
  runs : List EffectRun := []
  sockets : List Socket := []
  timers : List Timer := []
  nextTimer : Nat := 0
  socketRef : Option Nat := none
  attempts : Nat := 0
  closedByUs : Bool := false
  deriving DecidableEq, Repr

/-- `MAX_RECONNECT_DELAY_MS`. -/
def maxReconnectDelayMs : Nat := 30000

/-- `connect` of a run of the effect. -/
def connect (t : Tab) (run : Nat) : Tab :=
  if t.closedByUs then t
  else { t with sockets := t.sockets ++ [{ run }], socketRef := some t.sockets.length }

/-- `ws.close()`. -/
def Socket.close (s : Socket) : Socket :=
  if s.phase = .closed then s else { s with phase := .closing }

/-- `clearTimeout(reconnectTimer)` found a timer to clear. -/
def Tab.waits (t : Tab) (run : Nat) : Bool :=
  t.timers.any fun timer => (t.runs[run]?.bind (·.reconnectTimer)) == some timer.id

/-- The function the effect returned. -/
def cleanup (t : Tab) (run : Nat) : Tab :=
  { t with
    closedByUs := true
    timers := t.timers.filter fun timer =>
      (t.runs[run]?.bind (·.reconnectTimer)) != some timer.id
    runs := t.runs.modify run fun r => { r with pinging := false, stopped := t.waits run }
    sockets := match t.socketRef with
      | some i => t.sockets.modify i Socket.close
      | none => t.sockets
    socketRef := none }

/-- The effect of a render with this access token. -/
def effect (t : Tab) (accessToken : Option String) : Tab :=
  match accessToken with
  | none => { t with signedIn := false }
  | some token =>
    connect { t with signedIn := true, runs := t.runs ++ [{ token }], closedByUs := false }
      t.runs.length

/-- `ws.onopen`: the token goes in the first message. -/
def opened (t : Tab) (i : Nat) (s : Socket) : Tab :=
  { t with
    sockets := t.sockets.set i { s with phase := .open, auth := t.runs[s.run]?.map (·.token) }
    runs := t.runs.modify s.run fun r => { r with pinging := true }
    attempts := 0 }

/-- `ws.onclose`. -/
def closed (t : Tab) (i : Nat) (s : Socket) : Tab :=
  let t := { t with
    sockets := t.sockets.set i { s with phase := .closed }
    runs := t.runs.modify s.run fun r => { r with pinging := false } }
  if t.closedByUs then t
  else { t with
    attempts := t.attempts + 1
    timers := t.timers ++
      [{ id := t.nextTimer, run := s.run, delay := min (1000 * 2 ^ t.attempts) maxReconnectDelayMs }]
    runs := t.runs.modify s.run fun r => { r with reconnectTimer := some t.nextTimer }
    nextTimer := t.nextTimer + 1 }

/-- What can happen in the tab: another access token, or what the browser
reports of a socket or a timer. -/
inductive Event where
  | token (accessToken : Option String)
  | opened (i : Nat)
  | failed (i : Nat)
  | closed (i : Nat)
  | fired (id : Nat)
  deriving DecidableEq, Repr

/-- One event in a tab. -/
def step (t : Tab) : Event → Tab
  | .token accessToken =>
    effect (if t.signedIn then cleanup t (t.runs.length - 1) else t) accessToken
  | .opened i =>
    match t.sockets[i]? with
    | some s => if s.phase = .connecting then opened t i s else t
    | none => t
  | .failed i =>
    match t.sockets[i]? with
    | some s => { t with sockets := t.sockets.set i s.close }
    | none => t
  | .closed i =>
    match t.sockets[i]? with
    | some s => if s.phase = .closed then t else closed t i s
    | none => t
  | .fired id =>
    match t.timers.find? (·.id == id) with
    | some timer => connect { t with timers := t.timers.filter (·.id != id) } timer.run
    | none => t

/-- A tab before its first access token. -/
def fresh : Tab := {}

/-! ## Loops -/

/-- The connection loops of a run that are still going: each is at a socket
that has not closed or at a timer. -/
def Tab.loopsOf (t : Tab) (run : Nat) : Nat :=
  t.sockets.countP (fun s => s.run == run && s.phase != .closed) + t.timers.countP (·.run == run)

section Steps

variable {t : Tab}

theorem loopsOf_connect (hopen : t.closedByUs = false) (run i : Nat) :
    (connect t run).loopsOf i = t.loopsOf i + if run = i then 1 else 0 := by
  unfold connect Tab.loopsOf
  rw [hopen]
  simp only [Bool.false_eq_true, if_false, List.countP_append, List.countP_singleton]
  by_cases heq : run = i
  · simp [heq]
    omega
  · simp [heq]

/-- `close()` is not yet `onclose`. -/
theorem loopsOf_close (sockets : List Socket) (j i : Nat) :
    (sockets.modify j Socket.close).countP (fun s => s.run == i && s.phase != .closed) =
      sockets.countP (fun s => s.run == i && s.phase != .closed) := by
  refine Tables.countP_modify (fun s => ?_) sockets j
  unfold Socket.close
  split
  · rfl
  · rename_i hphase
    have hopen : (s.phase != .closed) = true := by simpa using hphase
    have hclosing : (Phase.closing != .closed) = true := by decide
    dsimp only
    rw [hopen, hclosing]

/-- What a tab is like from one access token to the next. -/
structure Session (t : Tab) : Prop where
  signedIn : t.signedIn = true
  reopened : t.closedByUs = false
  started : 0 < t.runs.length
  current : ∀ r, t.runs[t.runs.length - 1]? = some r → r.stopped = false
  loops : ∀ i r, t.runs[i]? = some r → t.loopsOf i = if r.stopped then 0 else 1
  sockets : ∀ s ∈ t.sockets, s.run < t.runs.length
  timerIds : (t.timers.map (·.id)).Nodup
  timersBelow : ∀ timer ∈ t.timers, timer.id < t.nextTimer
  timers : ∀ timer ∈ t.timers, ∃ r, t.runs[timer.run]? = some r ∧ r.reconnectTimer = some timer.id
  own : ∀ i r id, t.runs[i]? = some r → r.reconnectTimer = some id →
    id < t.nextTimer ∧ ∀ timer ∈ t.timers, timer.id = id → timer.run = i

/-- A run whose variables changed, but not its `reconnectTimer` or what is
known of its cleanup. -/
theorem getElem?_modify_some {runs : List EffectRun} {j i : Nat} {f : EffectRun → EffectRun}
    {r : EffectRun} (h : (runs.modify j f)[i]? = some r) :
    ∃ r₀, runs[i]? = some r₀ ∧ r = if j = i then f r₀ else r₀ := by
  rw [List.getElem?_modify] at h
  obtain ⟨r₀, hr₀, rfl⟩ := Option.map_eq_some_iff.mp h
  exact ⟨r₀, hr₀, rfl⟩

theorem getElem?_modify_of_some {runs : List EffectRun} {j i : Nat} {f : EffectRun → EffectRun}
    {r₀ : EffectRun} (h : runs[i]? = some r₀) :
    (runs.modify j f)[i]? = some (if j = i then f r₀ else r₀) := by
  rw [List.getElem?_modify, h]
  rfl

/-- A step that keeps the timers and opens or closes no loop. -/
theorem Session.same {t' : Tab} (h : Session t) (hsigned : t'.signedIn = t.signedIn)
    (hflag : t'.closedByUs = t.closedByUs) (htimers : t'.timers = t.timers)
    (hnext : t'.nextTimer = t.nextTimer) (hlength : t'.runs.length = t.runs.length)
    (hruns : ∀ (i : Nat) (r : EffectRun), t'.runs[i]? = some r →
      ∃ r₀ : EffectRun, t.runs[i]? = some r₀ ∧ r.reconnectTimer = r₀.reconnectTimer ∧ r.stopped = r₀.stopped)
    (hloops : ∀ i, t'.loopsOf i = t.loopsOf i) (hsockets : ∀ s ∈ t'.sockets, s.run < t.runs.length) :
    Session t' where
  signedIn := hsigned.trans h.signedIn
  reopened := hflag.trans h.reopened
  started := hlength ▸ h.started
  current := fun r hr => by
    rw [hlength] at hr
    obtain ⟨r₀, hr₀, -, hstopped⟩ := hruns _ r hr
    exact hstopped.trans (h.current r₀ hr₀)
  loops := fun i r hr => by
    obtain ⟨r₀, hr₀, -, hstopped⟩ := hruns i r hr
    rw [hloops, hstopped]
    exact h.loops i r₀ hr₀
  sockets := fun s hs => hlength ▸ hsockets s hs
  timerIds := htimers ▸ h.timerIds
  timersBelow := fun timer hmem => by
    rw [htimers] at hmem
    rw [hnext]
    exact h.timersBelow timer hmem
  timers := fun timer hmem => by
    rw [htimers] at hmem
    obtain ⟨r₀, hr₀, hid⟩ := h.timers timer hmem
    have hlt : timer.run < t'.runs.length := by
      rw [hlength]
      exact (List.getElem?_eq_some_iff.mp hr₀).1
    obtain ⟨r₁, hr₁, heq, -⟩ := hruns timer.run _ (List.getElem?_eq_getElem hlt)
    cases hr₀.symm.trans hr₁
    exact ⟨_, List.getElem?_eq_getElem hlt, heq.trans hid⟩
  own := fun i r id hr hid => by
    obtain ⟨r₀, hr₀, heq, -⟩ := hruns i r hr
    rw [hnext, htimers]
    exact h.own i r₀ id hr₀ (heq ▸ hid)

/-- The first token, or another one after the cleanup of the run before. -/
theorem Session.begun {t : Tab} (token : String)
    (hstopped : ∀ i r, t.runs[i]? = some r → t.loopsOf i = if r.stopped then 0 else 1)
    (hsockets : ∀ s ∈ t.sockets, s.run < t.runs.length)
    (htimerIds : (t.timers.map (·.id)).Nodup)
    (htimersBelow : ∀ timer ∈ t.timers, timer.id < t.nextTimer)
    (htimers : ∀ timer ∈ t.timers,
      ∃ r, t.runs[timer.run]? = some r ∧ r.reconnectTimer = some timer.id)
    (hown : ∀ i r id, t.runs[i]? = some r → r.reconnectTimer = some id →
      id < t.nextTimer ∧ ∀ timer ∈ t.timers, timer.id = id → timer.run = i) :
    Session (effect t (some token)) := by
  have hnew : t.loopsOf t.runs.length = 0 := by
    unfold Tab.loopsOf
    rw [List.countP_eq_zero.mpr, List.countP_eq_zero.mpr]
    · intro timer hmem heq
      obtain ⟨r, hr, -⟩ := htimers timer hmem
      have hlt := (List.getElem?_eq_some_iff.mp hr).1
      rw [beq_iff_eq.mp heq] at hlt
      exact Nat.lt_irrefl _ hlt
    · intro s hs heq
      simp only [Bool.and_eq_true, beq_iff_eq] at heq
      exact Nat.lt_irrefl _ (heq.1 ▸ hsockets s hs)
  have hget : ∀ (i : Nat) (r : EffectRun), (t.runs ++ [{ token := token }])[i]? = some r →
      t.runs[i]? = some r ∨ (i = t.runs.length ∧ r = { token := token }) := by
    intro i r hr
    rcases Nat.lt_trichotomy i t.runs.length with hlt | rfl | hgt
    · rw [List.getElem?_append_left hlt] at hr
      exact .inl hr
    · rw [List.getElem?_concat_length] at hr
      exact .inr ⟨rfl, (Option.some.inj hr).symm⟩
    · rw [List.getElem?_eq_none (by simp; omega)] at hr
      cases hr
  have hloops : ∀ i, (effect t (some token)).loopsOf i =
      t.loopsOf i + if t.runs.length = i then 1 else 0 := fun i =>
    loopsOf_connect (t := { t with
      signedIn := true, runs := t.runs ++ [{ token }], closedByUs := false }) rfl _ i
  constructor
  · rfl
  · rfl
  · show 0 < (t.runs ++ [_]).length
    simp
  · intro r hr
    have hlast : (t.runs ++ [{ token := token }])[t.runs.length]? = some r := by
      have : (effect t (some token)).runs.length - 1 = t.runs.length := by
        show (t.runs ++ [_]).length - 1 = _
        simp
      rwa [this] at hr
    rw [List.getElem?_concat_length] at hlast
    rw [← Option.some.inj hlast]
  · intro i r hr
    rw [hloops]
    rcases hget i r hr with hr | ⟨rfl, rfl⟩
    · rw [hstopped i r hr, if_neg (Nat.ne_of_gt (List.getElem?_eq_some_iff.mp hr).1), Nat.add_zero]
    · rw [hnew, if_pos rfl]
      rfl
  · intro s hs
    show s.run < (t.runs ++ [_]).length
    rw [List.length_append]
    rcases List.mem_append.mp hs with hs | hs
    · exact Nat.lt_add_right _ (hsockets s hs)
    · rw [List.mem_singleton.mp hs]
      exact Nat.lt_succ_self _
  · exact htimerIds
  · exact htimersBelow
  · intro timer hmem
    obtain ⟨r, hr, hid⟩ := htimers timer hmem
    refine ⟨r, ?_, hid⟩
    show (t.runs ++ [_])[timer.run]? = _
    rw [List.getElem?_append_left (List.getElem?_eq_some_iff.mp hr).1]
    exact hr
  · intro i r id hr hid
    rcases hget i r hr with hr | ⟨rfl, rfl⟩
    · exact hown i r id hr hid
    · cases hid

/-- A cleanup ends the loop of its run if that was waiting, and no other. -/
theorem loopsOf_cleanup (h : Session t) {run : Nat} {r : EffectRun} (hrun : t.runs[run]? = some r)
    (i : Nat) :
    (cleanup t run).loopsOf i = t.loopsOf i - if run = i ∧ t.waits run = true then 1 else 0 := by
  have hsockets : (cleanup t run).sockets.countP (fun s => s.run == i && s.phase != .closed) =
      t.sockets.countP (fun s => s.run == i && s.phase != .closed) := by
    unfold cleanup
    dsimp only
    split
    · exact loopsOf_close ..
    · rfl
  have hcleanup : (cleanup t run).loopsOf i =
      t.sockets.countP (fun s => s.run == i && s.phase != .closed) +
        (t.timers.filter fun timer => r.reconnectTimer != some timer.id).countP (·.run == i) := by
    unfold Tab.loopsOf
    rw [hsockets]
    unfold cleanup
    rw [hrun]
    rfl
  have hwaits : t.waits run = t.timers.any fun timer => r.reconnectTimer == some timer.id := by
    unfold Tab.waits
    rw [hrun]
    rfl
  rw [hcleanup, hwaits]
  unfold Tab.loopsOf
  by_cases hw : ∃ timer ∈ t.timers, r.reconnectTimer = some timer.id
  · obtain ⟨timer, hmem, hid⟩ := hw
    have howner : timer.run = run := (h.own run r timer.id hrun hid).2 timer hmem rfl
    obtain ⟨xs, ys, htimers, hfilter⟩ := Tables.split_key h.timerIds hmem
    have hfilter' : (t.timers.filter fun other => r.reconnectTimer != some other.id) = xs ++ ys := by
      rw [← hfilter]
      refine List.filter_congr fun other _ => ?_
      rw [hid, Bool.eq_iff_iff, bne_iff_ne, bne_iff_ne, ne_comm]
      simp
    have hany : (t.timers.any fun other => r.reconnectTimer == some other.id) = true :=
      List.any_eq_true.mpr ⟨timer, hmem, by simpa using hid⟩
    rw [hfilter', hany, htimers]
    simp only [List.countP_append, List.countP_cons, howner, beq_iff_eq, and_true]
    split <;> omega
  · have hnone : ∀ timer ∈ t.timers, r.reconnectTimer ≠ some timer.id := fun timer hmem heq =>
      hw ⟨timer, hmem, heq⟩
    have hany : (t.timers.any fun timer => r.reconnectTimer == some timer.id) = false := by
      rw [List.any_eq_false]
      intro timer hmem
      simpa using hnone timer hmem
    have hfilter : (t.timers.filter fun timer => r.reconnectTimer != some timer.id) = t.timers :=
      List.filter_eq_self.mpr fun timer hmem => by simpa using hnone timer hmem
    rw [hfilter, hany]
    simp

/-- Another access token: the run before is cleaned up, a new one starts. -/
theorem Session.token (h : Session t) (token : String) :
    Session (step t (.token (some token))) := by
  have hlast : t.runs.length - 1 < t.runs.length := Nat.sub_lt h.started Nat.one_pos
  have hrun := List.getElem?_eq_getElem hlast
  generalize t.runs[t.runs.length - 1] = last at hrun
  unfold step
  rw [h.signedIn, if_pos rfl]
  apply Session.begun
  · intro i r hr
    obtain ⟨r₀, hr₀, rfl⟩ := getElem?_modify_some hr
    rw [loopsOf_cleanup h hrun]
    by_cases heq : t.runs.length - 1 = i
    · subst heq
      cases hrun.symm.trans hr₀
      rw [h.loops _ _ hrun, h.current _ hrun, if_pos rfl]
      cases t.waits (t.runs.length - 1) <;> simp
    · rw [if_neg heq, if_neg fun hand => heq hand.1, Nat.sub_zero]
      exact h.loops i r₀ hr₀
  · intro s hs
    have hrun' : ∃ s₀ ∈ t.sockets, s₀.run = s.run := by
      unfold cleanup at hs
      dsimp only at hs
      split at hs
      · obtain ⟨j, hj⟩ := List.mem_iff_getElem?.mp hs
        rw [List.getElem?_modify] at hj
        obtain ⟨s₀, hs₀, rfl⟩ := Option.map_eq_some_iff.mp hj
        refine ⟨s₀, List.mem_of_getElem? hs₀, ?_⟩
        split
        · unfold Socket.close
          split <;> rfl
        · rfl
      · exact ⟨s, hs, rfl⟩
    obtain ⟨s₀, hs₀, heq⟩ := hrun'
    show s.run < (t.runs.modify _ _).length
    rw [List.length_modify, ← heq]
    exact h.sockets s₀ hs₀
  · exact h.timerIds.sublist (List.filter_sublist.map _)
  · exact fun timer hmem => h.timersBelow timer (List.mem_filter.mp hmem).1
  · intro timer hmem
    obtain ⟨r, hr, hid⟩ := h.timers timer (List.mem_filter.mp hmem).1
    refine ⟨_, getElem?_modify_of_some hr, ?_⟩
    split <;> exact hid
  · intro i r id hr hid
    obtain ⟨r₀, hr₀, rfl⟩ := getElem?_modify_some hr
    have hid₀ : r₀.reconnectTimer = some id := by
      split at hid <;> exact hid
    obtain ⟨hbelow, hown⟩ := h.own i r₀ id hr₀ hid₀
    exact ⟨hbelow, fun timer hmem => hown timer (List.mem_filter.mp hmem).1⟩

/-- A socket whose phase changes, but not to or from `closed`. -/
theorem countP_set_socket {sockets : List Socket} {j : Nat} {s : Socket} (hs : sockets[j]? = some s)
    (s' : Socket) (hrun : s'.run = s.run) (hphase : (s'.phase != .closed) = (s.phase != .closed)) (i : Nat) :
    (sockets.set j s').countP (fun s => s.run == i && s.phase != .closed) =
      sockets.countP (fun s => s.run == i && s.phase != .closed) := by
  obtain ⟨xs, ys, hsplit, hset, -⟩ := Tables.split_at hs
  rw [hset, hsplit]
  simp only [List.countP_append, List.countP_cons, hrun, hphase]

theorem run_lt_of_mem_set (h : Session t) {j : Nat} {s s' : Socket} (hs : t.sockets[j]? = some s)
    (hrun : s'.run = s.run) : ∀ s₀ ∈ t.sockets.set j s', s₀.run < t.runs.length := by
  intro s₀ hs₀
  rcases List.mem_or_eq_of_mem_set hs₀ with hs₀ | rfl
  · exact h.sockets s₀ hs₀
  · exact hrun ▸ h.sockets s (List.mem_of_getElem? hs)

theorem Session.opened (h : Session t) (i : Nat) : Session (step t (.opened i)) := by
  dsimp only [step]
  split
  · rename_i s hs
    split
    · rename_i hphase
      refine h.same rfl rfl rfl rfl (List.length_modify ..) (fun j r hr => ?_) (fun j => ?_)
        (run_lt_of_mem_set h hs rfl)
      · obtain ⟨r₀, hr₀, rfl⟩ := getElem?_modify_some hr
        refine ⟨r₀, hr₀, ?_, ?_⟩ <;> split <;> rfl
      · exact congrArg (· + _) (countP_set_socket hs { s with
          phase := .open, auth := t.runs[s.run]?.map (·.token) } rfl (by rw [hphase]; rfl) j)
    · exact h
  · exact h

theorem Session.failed (h : Session t) (i : Nat) : Session (step t (.failed i)) := by
  dsimp only [step]
  split
  · rename_i s hs
    have hrun : s.close.run = s.run := by
      unfold Socket.close
      split <;> rfl
    refine h.same rfl rfl rfl rfl rfl (fun j r hr => ⟨r, hr, rfl, rfl⟩) (fun j => ?_)
      (run_lt_of_mem_set h hs hrun)
    refine congrArg (· + _) (countP_set_socket hs _ hrun ?_ j)
    unfold Socket.close
    split
    · rfl
    · rename_i hphase
      have hopen : (s.phase != .closed) = true := by simpa using hphase
      rw [hopen]
      rfl
  · exact h

/-- A run with a socket that has not closed is waiting for no timer. -/
theorem Session.no_timer (h : Session t) {j : Nat} {s : Socket} (hs : t.sockets[j]? = some s)
    (hphase : s.phase ≠ .closed) : ∀ timer ∈ t.timers, timer.run ≠ s.run := by
  have hmem := List.mem_of_getElem? hs
  have hrun := List.getElem?_eq_getElem (h.sockets s hmem)
  have hloops := h.loops s.run _ hrun
  have hle : t.loopsOf s.run ≤ 1 := by
    rw [hloops]
    split <;> omega
  have hsocket : 0 < t.sockets.countP fun s' => s'.run == s.run && s'.phase != .closed :=
    List.countP_pos_iff.mpr ⟨s, hmem, by simpa using hphase⟩
  unfold Tab.loopsOf at hle
  have hnone : t.timers.countP (·.run == s.run) = 0 := by omega
  intro timer htimer heq
  exact List.countP_eq_zero.mp hnone timer htimer (by simpa using heq)

theorem loopsOf_closed (h : Session t) {j : Nat} {s : Socket} (hs : t.sockets[j]? = some s)
    (hphase : s.phase ≠ .closed) (i : Nat) : (closed t j s).loopsOf i = t.loopsOf i := by
  obtain ⟨xs, ys, hsplit, hset, -⟩ := Tables.split_at hs
  have hopen : (s.phase != .closed) = true := by simpa using hphase
  unfold closed Tab.loopsOf
  dsimp only
  rw [h.reopened, if_neg Bool.false_ne_true]
  dsimp only
  rw [hset, hsplit]
  simp only [List.countP_append, List.countP_cons, List.countP_nil, hopen, bne_self_eq_false,
    Bool.and_false, Bool.and_true, Bool.false_eq_true, if_false]
  omega

/-- A run after one of its sockets closed. -/
theorem runs_closed (h : Session t) {j i : Nat} {s : Socket} {r : EffectRun}
    (hr : (closed t j s).runs[i]? = some r) :
    ∃ r₀, t.runs[i]? = some r₀ ∧ r.stopped = r₀.stopped ∧
      r.reconnectTimer = if s.run = i then some t.nextTimer else r₀.reconnectTimer := by
  unfold closed at hr
  dsimp only at hr
  rw [h.reopened, if_neg Bool.false_ne_true] at hr
  obtain ⟨r₁, hr₁, rfl⟩ := getElem?_modify_some hr
  obtain ⟨r₀, hr₀, rfl⟩ := getElem?_modify_some hr₁
  refine ⟨r₀, hr₀, ?_, ?_⟩
  · split <;> rfl
  · split <;> rfl

/-- A socket that closes leaves its loop at a timer. -/
theorem Session.closed (h : Session t) (i : Nat) : Session (step t (.closed i)) := by
  dsimp only [step]
  split
  · rename_i s hs
    split
    · exact h
    · rename_i hphase
      have hlt := h.sockets s (List.mem_of_getElem? hs)
      have hfields : (Hook.closed t i s).timers = t.timers ++ [{
            id := t.nextTimer, run := s.run
            delay := min (1000 * 2 ^ t.attempts) maxReconnectDelayMs }] ∧
          (Hook.closed t i s).nextTimer = t.nextTimer + 1 ∧
          (Hook.closed t i s).runs.length = t.runs.length ∧
          (Hook.closed t i s).sockets = t.sockets.set i { s with phase := .closed } ∧
          (Hook.closed t i s).signedIn = true ∧ (Hook.closed t i s).closedByUs = false := by
        unfold Hook.closed
        dsimp only
        rw [h.reopened, if_neg Bool.false_ne_true]
        exact ⟨rfl, rfl, by simp, rfl, h.signedIn, rfl⟩
      obtain ⟨htimers, hnext, hlength, hsockets, hsigned, hflag⟩ := hfields
      constructor
      · exact hsigned
      · exact hflag
      · rw [hlength]
        exact h.started
      · intro r hr
        rw [hlength] at hr
        obtain ⟨r₀, hr₀, hstopped, -⟩ := runs_closed h hr
        exact hstopped.trans (h.current r₀ hr₀)
      · intro j r hr
        obtain ⟨r₀, hr₀, hstopped, -⟩ := runs_closed h hr
        rw [loopsOf_closed h hs hphase, hstopped]
        exact h.loops j r₀ hr₀
      · intro s' hs'
        rw [hsockets] at hs'
        rw [hlength]
        exact run_lt_of_mem_set h hs (by rfl) s' hs'
      · rw [htimers]
        refine Tables.nodup_concat h.timerIds fun timer hmem => ?_
        exact Nat.ne_of_lt (h.timersBelow timer hmem)
      · intro timer hmem
        rw [htimers] at hmem
        rw [hnext]
        rcases List.mem_append.mp hmem with hmem | hmem
        · exact Nat.lt_succ_of_lt (h.timersBelow timer hmem)
        · rw [List.mem_singleton.mp hmem]
          exact Nat.lt_succ_self _
      · intro timer hmem
        rw [htimers] at hmem
        have hrun : timer.run < (Hook.closed t i s).runs.length := by
          rw [hlength]
          rcases List.mem_append.mp hmem with hmem | hmem
          · obtain ⟨r₀, hr₀, -⟩ := h.timers timer hmem
            exact (List.getElem?_eq_some_iff.mp hr₀).1
          · rw [List.mem_singleton.mp hmem]
            exact hlt
        refine ⟨_, List.getElem?_eq_getElem hrun, ?_⟩
        obtain ⟨r₀, hr₀, -, hid⟩ := runs_closed h (List.getElem?_eq_getElem hrun)
        rw [hid]
        rcases List.mem_append.mp hmem with hmem | hmem
        · obtain ⟨r₁, hr₁, hid₁⟩ := h.timers timer hmem
          cases hr₀.symm.trans hr₁
          rw [if_neg (Ne.symm (h.no_timer hs hphase timer hmem))]
          exact hid₁
        · rw [List.mem_singleton.mp hmem, if_pos rfl]
      · intro j r id hr hid
        obtain ⟨r₀, hr₀, -, hid₀⟩ := runs_closed h hr
        rw [hid₀] at hid
        rw [hnext, htimers]
        split at hid
        · rename_i heq
          cases hid
          refine ⟨Nat.lt_succ_self _, fun timer hmem htimer => ?_⟩
          rcases List.mem_append.mp hmem with hmem | hmem
          · exact absurd htimer (Nat.ne_of_lt (h.timersBelow timer hmem))
          · rw [List.mem_singleton.mp hmem]
            exact heq
        · obtain ⟨hbelow, hown⟩ := h.own j r₀ id hr₀ hid
          refine ⟨Nat.lt_succ_of_lt hbelow, fun timer hmem htimer => ?_⟩
          rcases List.mem_append.mp hmem with hmem | hmem
          · exact hown timer hmem htimer
          · rw [List.mem_singleton.mp hmem] at htimer
            exact absurd htimer (Nat.ne_of_gt hbelow)
  · exact h

/-- A timer that fires takes its loop to the next socket. -/
theorem Session.fired (h : Session t) (id : Nat) : Session (step t (.fired id)) := by
  dsimp only [step]
  split
  · rename_i timer hfind
    obtain ⟨hmem, rfl⟩ := Tables.find?_mem hfind
    obtain ⟨xs, ys, htimers, hfilter⟩ := Tables.split_key h.timerIds hmem
    obtain ⟨r₀, hr₀, -⟩ := h.timers timer hmem
    have hlt := (List.getElem?_eq_some_iff.mp hr₀).1
    rw [hfilter]
    have hsub : ∀ other ∈ xs ++ ys, other ∈ t.timers := by
      intro other hother
      rw [htimers]
      exact List.mem_append.mpr ((List.mem_append.mp hother).imp_right (List.mem_cons_of_mem _))
    have hconnect : connect { t with timers := xs ++ ys } timer.run =
        { t with
          timers := xs ++ ys
          sockets := t.sockets ++ [{ run := timer.run }]
          socketRef := some t.sockets.length } := by
      unfold connect
      dsimp only
      rw [h.reopened, if_neg Bool.false_ne_true]
    have hloops : ∀ i, (connect { t with timers := xs ++ ys } timer.run).loopsOf i = t.loopsOf i := by
      intro i
      rw [loopsOf_connect (by exact h.reopened)]
      unfold Tab.loopsOf
      dsimp only
      rw [htimers]
      simp only [List.countP_append, List.countP_cons, beq_iff_eq]
      omega
    rw [hconnect] at hloops ⊢
    constructor
    · exact h.signedIn
    · exact h.reopened
    · exact h.started
    · exact h.current
    · exact fun i r hr => (hloops i).trans (h.loops i r hr)
    · intro s hs
      rcases List.mem_append.mp hs with hs | hs
      · exact h.sockets s hs
      · rw [List.mem_singleton.mp hs]
        exact hlt
    · refine h.timerIds.sublist (List.Sublist.map _ ?_)
      rw [htimers]
      exact (List.Sublist.refl xs).append (List.sublist_cons_self ..)
    · exact fun other hother => h.timersBelow other (hsub other hother)
    · exact fun other hother => h.timers other (hsub other hother)
    · intro i r id hr hid
      obtain ⟨hbelow, hown⟩ := h.own i r id hr hid
      exact ⟨hbelow, fun other hother => hown other (hsub other hother)⟩
  · exact h

/-- A new access token, or anything the browser reports: no sign-out. -/
def Event.staysSignedIn : Event → Bool
  | .token none => false
  | _ => true

theorem Session.step (h : Session t) (e : Event) (he : e.staysSignedIn = true) :
    Session (step t e) := by
  cases e with
  | token accessToken =>
    cases accessToken with
    | none => cases he
    | some token => exact h.token token
  | opened i => exact h.opened i
  | failed i => exact h.failed i
  | closed i => exact h.closed i
  | fired id => exact h.fired id

end Steps

/-! ## A whole session -/

theorem session_begins (token : String) : Session (step fresh (.token (some token))) := by
  apply Session.begun <;> simp [fresh]

theorem session_run (token : String) {events : List Event}
    (h : ∀ e ∈ events, e.staysSignedIn = true) :
    Session (run step (step fresh (.token (some token))) events) := by
  have halong : Along step (fun _ e => e.staysSignedIn = true)
      (step fresh (.token (some token))) events := by
    refine along_iff_forall.mpr fun xs e ys hsplit => h e ?_
    rw [hsplit]
    exact List.mem_append_right _ List.mem_cons_self
  exact run_invariant_along (fun _ e hs he => hs.step e he) (session_begins token) halong

/-- While the user stays signed in, every access token the tab has had keeps
exactly one connection loop, the current one included, unless the cleanup of
its run happened to find that loop waiting for its timer. -/
theorem loops_of_a_session (token : String) (events : List Event)
    (h : ∀ e ∈ events, e.staysSignedIn = true) :
    let t := run step (step fresh (.token (some token))) events
    t.signedIn = true ∧ t.loopsOf (t.runs.length - 1) = 1 ∧
      ∀ i r, t.runs[i]? = some r → t.loopsOf i = if r.stopped then 0 else 1 := by
  intro t
  have hsession := session_run token h
  have hlast : t.runs.length - 1 < t.runs.length := Nat.sub_lt hsession.started Nat.one_pos
  refine ⟨hsession.signedIn, ?_, hsession.loops⟩
  rw [hsession.loops _ _ (List.getElem?_eq_getElem hlast),
    hsession.current _ (List.getElem?_eq_getElem hlast)]
  rfl

/-- A refresh while the socket is up leaves two loops behind, the first with a
token that has been replaced. -/
theorem loops_of_a_session_refreshed :
    let t := run step (step fresh (.token (some "first")))
      [.opened 0, .token (some "second"), .opened 1, .closed 0, .fired 0, .opened 2]
    (t.signedIn = true ∧ t.loopsOf (t.runs.length - 1) = 1 ∧
      ∀ i r, t.runs[i]? = some r → t.loopsOf i = if r.stopped then 0 else 1) ∧
      t.loopsOf 0 = 1 ∧ t.sockets.map (·.auth) = [some "first", some "second", some "first"] :=
  ⟨loops_of_a_session "first" _ (by decide), by decide, by decide⟩

/-! ## After signing out -/

/-- The socket has not been closed, and nobody has asked it to. -/
def Socket.isUp (s : Socket) : Bool := s.phase == .connecting || s.phase == .open

/-- The sockets a tab still has. -/
def Tab.up (t : Tab) : Nat := t.sockets.countP Socket.isUp

/-- Something the browser reports. -/
def Event.isReport : Event → Bool
  | .token _ => false
  | _ => true

theorem connect_closed {t : Tab} (h : t.closedByUs = true) (run : Nat) : connect t run = t := by
  unfold connect
  rw [h, if_pos rfl]

/-- No socket is opened and no timer is set from the one tab to the other. -/
structure Ending (t t' : Tab) : Prop where
  sockets : t'.sockets.length = t.sockets.length
  nextTimer : t'.nextTimer = t.nextTimer
  timers : t'.timers.Sublist t.timers

theorem Ending.refl (t : Tab) : Ending t t := ⟨rfl, rfl, .refl _⟩

theorem Ending.trans {t₁ t₂ t₃ : Tab} (h : Ending t₁ t₂) (h' : Ending t₂ t₃) : Ending t₁ t₃ :=
  ⟨h'.sockets.trans h.sockets, h'.nextTimer.trans h.nextTimer, h'.timers.trans h.timers⟩

/-- With the flag set, no report opens a socket or sets a timer. -/
theorem report_closed {t : Tab} (h : t.closedByUs = true) {e : Event} (he : e.isReport = true) :
    (step t e).closedByUs = true ∧ Ending t (step t e) := by
  cases e with
  | token accessToken => cases he
  | opened i =>
    dsimp only [step]
    split
    · split
      · exact ⟨h, List.length_set .., rfl, .refl _⟩
      · exact ⟨h, .refl t⟩
    · exact ⟨h, .refl t⟩
  | failed i =>
    dsimp only [step]
    split
    · exact ⟨h, List.length_set .., rfl, .refl _⟩
    · exact ⟨h, .refl t⟩
  | closed i =>
    dsimp only [step]
    split
    · split
      · exact ⟨h, .refl t⟩
      · unfold closed
        dsimp only
        rw [h, if_pos rfl]
        exact ⟨rfl, List.length_set .., rfl, .refl _⟩
    · exact ⟨h, .refl t⟩
  | fired id =>
    dsimp only [step]
    split
    · rw [connect_closed (by exact h)]
      exact ⟨h, rfl, rfl, List.filter_sublist⟩
    · exact ⟨h, .refl t⟩

/-- Nor do any number of them. -/
theorem reports_closed {t : Tab} (h : t.closedByUs = true) {es : List Event}
    (hes : ∀ e ∈ es, e.isReport = true) : Ending t (run step t es) := by
  induction es generalizing t with
  | nil => exact .refl t
  | cons e es ih =>
    obtain ⟨hflag, hfirst⟩ := report_closed h (hes e List.mem_cons_self)
    exact hfirst.trans (ih hflag fun e' he' => hes e' (List.mem_cons_of_mem _ he'))

theorem countP_modify_le {p : Socket → Bool} {f : Socket → Socket} :
    ∀ (l : List Socket) (i : Nat), l.countP p ≤ (l.modify i f).countP p + 1
  | [], _ => by simp
  | s :: l, 0 => by
    rw [List.modify_zero_cons, List.countP_cons, List.countP_cons]
    split <;> omega
  | s :: l, i + 1 => by
    rw [List.modify_succ_cons, List.countP_cons, List.countP_cons]
    have := countP_modify_le (p := p) (f := f) l i
    omega

/-- The last cleanup clears its timer and closes the socket at hand. -/
theorem ending_cleanup (t : Tab) (i : Nat) : Ending t (cleanup t i) := by
  refine ⟨?_, rfl, List.filter_sublist⟩
  unfold cleanup
  dsimp only
  split
  · exact List.length_modify ..
  · rfl

/-- Signing out ends every loop where it is: whatever the browser reports
afterwards, no socket is opened and no timer is set. But it takes one socket
down at most, so the sockets of the other loops stay up. -/
theorem sign_out_ends_the_loops (token : String) (events later : List Event)
    (h : ∀ e ∈ events, e.staysSignedIn = true) (hlater : ∀ e ∈ later, e.isReport = true) :
    let t := run step (step fresh (.token (some token))) events
    let out := step t (.token none)
    t.up ≤ out.up + 1 ∧
      (run step out later).sockets.length = t.sockets.length ∧
      (run step out later).nextTimer = t.nextTimer ∧
      (run step out later).timers.Sublist t.timers := by
  intro t out
  have hsigned : t.signedIn = true := (session_run token h).signedIn
  have hout : out = { cleanup t (t.runs.length - 1) with signedIn := false } := by
    show effect (if t.signedIn then cleanup t (t.runs.length - 1) else t) none = _
    rw [hsigned, if_pos rfl]
    rfl
  have hfirst : Ending t out := by
    obtain ⟨hsockets, hnext, htimers⟩ := ending_cleanup t (t.runs.length - 1)
    rw [hout]
    exact ⟨hsockets, hnext, htimers⟩
  have hflag : out.closedByUs = true := by rw [hout]; rfl
  obtain ⟨hsockets, hnext, htimers⟩ := hfirst.trans (reports_closed hflag hlater)
  refine ⟨?_, hsockets, hnext, htimers⟩
  unfold Tab.up
  rw [hout]
  unfold cleanup
  dsimp only
  split
  · exact countP_modify_le ..
  · exact Nat.le_succ _

/-- After one refresh the second socket is still up. -/
theorem sign_out_ends_the_loops_refreshed :
    let t := run step (step fresh (.token (some "first")))
      [.opened 0, .token (some "second"), .opened 1, .closed 0, .fired 0, .opened 2]
    let out := step t (.token none)
    (t.up ≤ out.up + 1 ∧
      (run step out [.closed 1]).sockets.length = t.sockets.length ∧
      (run step out [.closed 1]).nextTimer = t.nextTimer ∧
      (run step out [.closed 1]).timers.Sublist t.timers) ∧ out.up = 1 :=
  ⟨sign_out_ends_the_loops "first" _ _ (by decide) (by decide), by decide⟩

end Royd.Realtime.Hook
