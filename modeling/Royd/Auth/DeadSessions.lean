/-
Royd.Auth.DeadSessions — a session that was logged out of.

A session is alive as long as its key is. `get_current_user` and `refresh`
read the key first and write it again later, and nothing keeps a logout from
deleting it in between: the write then brings the session back, and any call
that starts afterwards is let in (`revived_after_logout`).

As long as no call that was under way at the logout writes the key after it,
the key stays gone, because whoever starts later must find it first
(`ended_session_stays_ended`).
-/
import Royd.Auth.Interleaving

namespace Royd.Auth

open ExpiringStore Programs Runs

variable {prims : Primitives} {cfg : Settings}

/-! ## The claim's words -/

/-- The next command of the call writes the key of the session. -/
def Running.touches (th : Running) (sid : Nat) : Bool :=
  match th.next? with
  | some (.setex (.sessionSeen n) ..) => n == sid
  | _ => false

/-- No call that had started when a logout deleted the session's key writes
the key after that. -/
def LetsGo (sid : Nat) (w : World) : Message → Prop
  | .step i => ∀ e ∈ w.endings, e.1 = sid → i < e.2 → ∀ th ∈ w.calls[i]?, th.touches sid = false
  | _ => True

/-- A logout has finished whose refresh token decoded and is of the session. -/
def World.LoggedOut (w : World) (sid : Nat) : Prop :=
  ∃ th ∈ w.calls, th.answer?.isSome ∧
    ∃ t ∈ th.req.logsOut, t ∈ th.ledger.decoded ∧ t.type = .refresh ∧ t.sid = some sid

/-- Call `i` was let in. -/
def World.Accepted (w : World) (i : Nat) : Prop :=
  ∃ th ∈ w.calls[i]?, ∃ a ∈ th.answer?, a ≠ .socketClosed

instance (sid : Nat) (w : World) (m : Message) : Decidable (LetsGo sid w m) :=
  match m with
  | .step i => inferInstanceAs (Decidable
      (∀ e ∈ w.endings, e.1 = sid → i < e.2 → ∀ th ∈ w.calls[i]?, th.touches sid = false))
  | .start _ => .isTrue trivial
  | .drop _ => .isTrue trivial
  | .wait _ => .isTrue trivial
  | .writeUsers _ => .isTrue trivial

instance (w : World) (sid : Nat) : Decidable (w.LoggedOut sid) :=
  inferInstanceAs (Decidable (∃ th ∈ w.calls, th.answer?.isSome ∧
    ∃ t ∈ th.req.logsOut, t ∈ th.ledger.decoded ∧ t.type = .refresh ∧ t.sid = some sid))

instance (w : World) (i : Nat) : Decidable (w.Accepted i) :=
  inferInstanceAs (Decidable (∃ th ∈ w.calls[i]?, ∃ a ∈ th.answer?, a ≠ .socketClosed))

/-! ## What a command adds to a ledger -/

section Ledgers

variable {own : Option Token} {q : Ledger} {c : Command} {s : Server} {sid : Nat}

/-- A call comes to end a session by deleting its key. -/
theorem ended_note {r : c.Reply} (h : sid ∈ (q.note own c r).ended) :
    sid ∈ q.ended ∨ ∃ ks, c = .delete ks ∧ Key.sessionSeen sid ∈ ks := by
  cases c with
  | delete ks =>
    rcases List.mem_append.mp h with h | h
    · obtain ⟨k, hk, hkey⟩ := List.mem_filterMap.mp h
      cases k with
      | sessionSeen n =>
        cases hkey
        exact .inr ⟨ks, rfl, hk⟩
      | _ => cases hkey
    · exact .inl h
  | decode t =>
    cases r with
    | true => exact .inl h
    | false => exact .inl h
  | mint type sub sid' ttl =>
    cases type with
    | _ => exact .inl h
  | «exists» k =>
    cases r with
    | true => exact .inl (by simpa [Ledger.note] using h)
    | false => exact .inl h
  | setex k ttl v => exact .inl (by simpa [Ledger.note] using h)
  | _ => exact .inl h

end Ledgers

/-! ## What holds of an ended session -/

/-- Once the session is ended it is gone, and no call that has started since
holds it. -/
structure World.Ended (sid : Nat) (w : World) : Prop where
  absent : ∀ n, (sid, n) ∈ w.endings → Absent w.server.redis (.sessionSeen sid)
  sid_lt : ∀ n, (sid, n) ∈ w.endings → sid < w.server.nextSecret
  started : ∀ n, (sid, n) ∈ w.endings → n ≤ w.calls.length
  later : ∀ n, (sid, n) ∈ w.endings → ∀ (i : Nat) (th : Running), n ≤ i → w.calls[i]? = some th →
    ¬ th.ledger.Holds sid
  recorded : ∀ (i : Nat) (th : Running), w.calls[i]? = some th → sid ∈ th.ledger.ended →
    ∃ n, (sid, n) ∈ w.endings

/-- The key of a session is only ever written by a touch. -/
theorem touches_of_writes {th : Running} {c : Command} {k : c.Reply → Handler Answer} {sid : Nat}
    (hdisc : th.Disciplined cfg) (hprog : th.prog = .call c k) (hwrites : c.Writes (.sessionSeen sid)) :
    th.touches sid = true := by
  have hallows := hdisc.allows hprog
  cases c with
  | setex k' ttl v =>
    cases hwrites
    simp [Running.touches, Thread.next?, hprog]
  | setNx k' ttl =>
    cases hwrites
    obtain ⟨userId, step, h⟩ := hallows
    cases h
  | incrExpire ks ttl =>
    obtain ⟨_, h⟩ | ⟨_, h⟩ := hallows _ hwrites
    · cases h
    · cases h
  | _ => cases hwrites

/-- The sessions that are ended by a command are those whose keys it
deletes. -/
theorem mem_ending {th : Running} {c : Command} {k : c.Reply → Handler Answer} {sid : Nat}
    (hprog : th.prog = .call c k) :
    sid ∈ th.ending ↔ ∃ ks, c = .delete ks ∧ Key.sessionSeen sid ∈ ks := by
  have hnext : th.next? = some c := by simp [Thread.next?, hprog]
  have hkey : ∀ ks : List Key, sid ∈ ks.filterMap Key.session? ↔ Key.sessionSeen sid ∈ ks := by
    intro ks
    rw [List.mem_filterMap]
    constructor
    · rintro ⟨k, hk, hsid⟩
      cases k with
      | sessionSeen n =>
        cases hsid
        exact hk
      | _ => cases hsid
    · exact fun h => ⟨_, h, rfl⟩
  simp only [Running.ending, hnext]
  cases c with
  | delete ks => simp [hkey]
  | _ => simp

/-- The key of an ended session is not written again, and nobody new comes
to hold the session. -/
theorem World.Ended.after {sid : Nat} {w : World} {i : Nat} {th : Running} {c : Command}
    {k : c.Reply → Handler Answer} (h : w.Ended sid) (hw : w.Wf cfg)
    (hth : w.calls[i]? = some th) (hprog : th.prog = .call c k)
    (hletsGo : ∀ n, (sid, n) ∈ w.endings → i < n → th.touches sid = false) :
    (w.after i th c k).Ended sid := by
  obtain ⟨hdisc, hledger⟩ := hw.calls i th hth
  have hallows := hdisc.allows hprog
  have hlength : (w.after i th c k).calls.length = w.calls.length := by simp [World.after]
  have hendings : ∀ n, (sid, n) ∈ (w.after i th c k).endings ↔
      (sid, n) ∈ w.endings ∨ sid ∈ th.ending ∧ n = w.calls.length := by
    intro n
    simp only [World.after, List.mem_append, List.mem_map, Prod.mk.injEq]
    refine or_congr_right ⟨?_, ?_⟩
    · rintro ⟨_, hmem, rfl, rfl⟩
      exact ⟨hmem, rfl⟩
    · rintro ⟨hmem, rfl⟩
      exact ⟨sid, hmem, rfl, rfl⟩
  have hlt : sid ∈ th.ending → sid < w.server.nextSecret := by
    intro hmem
    obtain ⟨ks, rfl, hk⟩ := (mem_ending hprog).mp hmem
    obtain ⟨t, ht, htsid⟩ := hallows sid hk
    exact hw.server.sid_lt t (hledger.decoded t ht) sid htsid
  refine ⟨fun n hn => ?_, fun n hn => ?_, fun n hn => ?_, fun n hn j th' hj hth' => ?_,
    fun j th' hth' hsid => ?_⟩
  · rcases (hendings n).mp hn with hold | ⟨hnew, -⟩
    · refine absent_exec (h.absent n hold) fun hwrites => ?_
      have htouches := touches_of_writes hdisc hprog hwrites
      by_cases hi : i < n
      · rw [hletsGo n hold hi] at htouches
        cases htouches
      · exact h.later n hold i th (Nat.not_lt.mp hi) hth (hallows.mayWrite hwrites)
    · obtain ⟨ks, rfl, hk⟩ := (mem_ending hprog).mp hnew
      exact absent_delete w.server.redis hk
  · refine Nat.lt_of_lt_of_le ?_ (grows_exec c w.server).secrets
    rcases (hendings n).mp hn with hold | ⟨hnew, -⟩
    · exact h.sid_lt n hold
    · exact hlt hnew
  · rw [hlength]
    rcases (hendings n).mp hn with hold | ⟨-, rfl⟩
    · exact h.started n hold
    · exact Nat.le_refl _
  · rcases (hendings n).mp hn with hold | ⟨-, rfl⟩
    · rcases call_after hth' with ⟨rfl, rfl⟩ | ⟨-, hsame⟩
      · rw [ledger_sent]
        intro hholds
        rcases holds_note hholds with hholds | hhas | heq
        · exact h.later n hold j th hj hth hholds
        · rw [Server.has, (h.absent n hold).contains_eq_false] at hhas
          cases hhas
        · exact absurd heq (Nat.ne_of_lt (h.sid_lt n hold))
      · exact h.later n hold j th' hj hsame
    · have hlt : j < (w.after i th c k).calls.length := (List.getElem?_eq_some_iff.mp hth').1
      omega
  · have hold : ∀ th₀ : Running, w.calls[j]? = some th₀ → sid ∈ th₀.ledger.ended →
        ∃ n, (sid, n) ∈ (w.after i th c k).endings := by
      intro th₀ hth₀ hended
      obtain ⟨n, hn⟩ := h.recorded j th₀ hth₀ hended
      exact ⟨n, (hendings n).mpr (.inl hn)⟩
    rcases call_after hth' with ⟨rfl, rfl⟩ | ⟨-, hj⟩
    · rw [ledger_sent] at hsid
      rcases ended_note hsid with hsid | hdelete
      · exact hold th hth hsid
      · exact ⟨w.calls.length, (hendings _).mpr (.inr ⟨(mem_ending hprog).mpr hdelete, rfl⟩)⟩
    · exact hold th' hj hsid

theorem World.Ended.exchange {sid : Nat} {w : World} (h : w.Ended sid) (hw : w.Wf cfg) (m : Message)
    (hletsGo : LetsGo sid w m) : (exchange prims cfg w m).Ended sid := by
  cases m with
  | start call =>
    refine ⟨h.absent, h.sid_lt, fun n hn => ?_, fun n hn j th' hj hth' => ?_,
      fun j th' hth' hsid => ?_⟩
    · exact Nat.le_trans (h.started n hn) (by simp [Auth.exchange])
    · rcases call_start hth' with hold | ⟨-, rfl⟩
      · exact h.later n hn j th' hj hold
      · rintro (hholds | hholds)
        · cases hholds
        · cases hholds
    · rcases call_start hth' with hold | ⟨-, rfl⟩
      · exact h.recorded j th' hold hsid
      · cases hsid
  | step i =>
    rcases exchange_step prims cfg w i with heq | ⟨th, c, k, hth, hprog, heq⟩
    · rw [heq]
      exact h
    · rw [heq]
      exact h.after hw hth hprog fun n hn hi => hletsGo (sid, n) hn rfl hi th hth
  | drop i =>
    refine ⟨h.absent, h.sid_lt, fun n hn => ?_, fun n hn j th' hj hth' => ?_,
      fun j th' hth' hsid => ?_⟩
    · simpa [Auth.exchange] using h.started n hn
    · rcases call_drop hth' with hold | ⟨th, hold, rfl⟩
      · exact h.later n hn j th' hj hold
      · exact h.later n hn j th hj hold
    · rcases call_drop hth' with hold | ⟨th, hold, rfl⟩
      · exact h.recorded j th' hold hsid
      · exact h.recorded j th hold hsid
  | wait seconds => exact ⟨h.absent, h.sid_lt, h.started, h.later, h.recorded⟩
  | writeUsers users => exact ⟨h.absent, h.sid_lt, h.started, h.later, h.recorded⟩

/-- The two invariants, along a run that lets the ended session go. -/
theorem run_ended {sid : Nat} {w : World} {ms : List Message} (hw : w.Wf cfg) (h : w.Ended sid)
    (hrun : Along (exchange prims cfg) (LetsGo sid) w ms) :
    (run (exchange prims cfg) w ms).Wf cfg ∧ (run (exchange prims cfg) w ms).Ended sid :=
  run_invariant_along (I := fun w : World => w.Wf cfg ∧ w.Ended sid)
    (fun _ m hw hm => ⟨hw.1.exchange m, hw.2.exchange hw.1 m hm⟩) ⟨hw, h⟩ hrun

/-! ## Logged out is logged out -/

/-- A logout that has finished has ended its session. -/
theorem World.LoggedOut.ending {w : World} {sid : Nat} (h : w.LoggedOut sid) (hw : w.Wf cfg)
    (hended : w.Ended sid) : ∃ n, (sid, n) ∈ w.endings := by
  obtain ⟨th, hmem, hanswer, t, ht, hdecoded, htype, hsid⟩ := h
  obtain ⟨i, hi, hget⟩ := List.getElem_of_mem hmem
  have hth : w.calls[i]? = some th := List.getElem?_eq_some_iff.mpr ⟨hi, hget⟩
  obtain ⟨a, ha⟩ := Option.isSome_iff_exists.mp hanswer
  have hanswered := (hw.calls i th hth).1.answered ha
  exact hended.recorded i th hth (hanswered.ended t ht hdecoded htype sid hsid)

/-- What was ended stays on record. -/
theorem endings_run {w : World} {e : Nat × Nat} (h : e ∈ w.endings) (ms : List Message) :
    e ∈ (run (exchange prims cfg) w ms).endings := by
  refine run_invariant (I := fun w : World => e ∈ w.endings) (fun w m hw => ?_) h ms
  cases m with
  | step i =>
    rcases exchange_step prims cfg w i with heq | ⟨th, c, k, -, -, heq⟩
    · rw [heq]
      exact hw
    · rw [heq]
      exact List.mem_append_left _ hw
  | _ => exact hw

/-- As long as no call that was under way when a logout deleted the session's
key writes the key after that, no call that starts after the logout has
finished is let in with a token of the session. -/
theorem ended_session_stays_ended (prims : Primitives) (cfg : Settings) (s : Server) (hs : s.Wf)
    (xs ys : List Message) (call : AuthCall) (t : Token) (sid : Nat)
    (hletsGo : Along (exchange prims cfg) (LetsGo sid) { server := s } (xs ++ .start call :: ys))
    (hover : (run (exchange prims cfg) { server := s } xs).LoggedOut sid)
    (hcredential : call.credential = some t) (hsid : t.sid = some sid) :
    ¬ (run (exchange prims cfg) { server := s } (xs ++ .start call :: ys)).Accepted
      (run (exchange prims cfg) { server := s } xs).calls.length := by
  have hinit : World.Wf cfg { server := s } := .init hs
  have hnone : World.Ended sid { server := s } := ⟨by simp, by simp, by simp, by simp, by simp⟩
  obtain ⟨hwf, hended⟩ := run_ended hinit hnone hletsGo
  obtain ⟨hwfX, hendedX⟩ := run_ended hinit hnone (along_append.mp hletsGo).1
  obtain ⟨n, hn⟩ := hover.ending hwfX hendedX
  have hstarted := hendedX.started _ hn
  rw [run_append, run_cons] at hwf hended ⊢
  generalize run (exchange prims cfg) { server := s } xs = w at hn hstarted hwf hended ⊢
  have hcall : ∃ th, (exchange prims cfg w (.start call)).calls[w.calls.length]? = some th ∧
      th.req = call := ⟨begin prims cfg call, by simp [exchange], rfl⟩
  obtain ⟨th, hth, hreq⟩ := call_run hcall ys
  rintro ⟨th', hth', a, ha, hopen⟩
  cases hth.symm.trans hth'
  have hanswered := (hwf.calls _ th hth).1.answered ha
  rw [hreq] at hanswered
  have hlive : sid ∈ th.ledger.live := (hanswered.admits hopen t hcredential).2 sid hsid
  exact hended.later _ (endings_run hn (.start call :: ys)) _ th hstarted hth (.inl hlive)

/-- The registrator logs out while nothing else is under way, and the access
token is refused from then on. -/
theorem ended_session_stays_ended_desk :
    ¬ (run (exchange plainPrimitives {}) { server := frontDesk }
      ((.start deskLogin :: goes 0 8 ++ .start (.logout none (some deskRefresh)) :: goes 1 4) ++
        .start (.authenticated (some deskAccess)) :: goes 2 4)).Accepted 2 :=
  ended_session_stays_ended plainPrimitives {} frontDesk frontDesk_wf
    (.start deskLogin :: goes 0 8 ++ .start (.logout none (some deskRefresh)) :: goes 1 4)
    (goes 2 4) (.authenticated (some deskAccess)) deskAccess 0
    (by decide +kernel) (by decide +kernel) rfl rfl

/-- An authenticated call has found the session active when a logout runs
from its start to its end. Then the call goes on and touches the session. -/
def lateTouch : List Message :=
  .start deskLogin :: goes 0 8 ++ .start (.authenticated (some deskAccess)) :: goes 1 2
    ++ .start (.logout none (some deskRefresh)) :: goes 2 4 ++ goes 1 2

/-- The session is back: after the logout has finished, a call that starts
with the session's access token is let in. -/
theorem revived_after_logout :
    (run (exchange plainPrimitives {}) { server := frontDesk } lateTouch).LoggedOut 0 ∧
      (run (exchange plainPrimitives {}) { server := frontDesk }
        (lateTouch ++ .start (.authenticated (some deskAccess)) :: goes 3 4)).Accepted 3 := by
  decide +kernel

end Royd.Auth
