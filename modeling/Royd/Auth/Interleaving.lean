/-
Royd.Auth.Interleaving — any number of calls at once.

Every command of every call is one exchange: a message lets one call go on by
one command, and in between anything may happen: other calls start or go on,
time passes, other handlers write the users table, a worker dies. A call that
is over stays in the list, so a call keeps its place.

`endings` records the sessions whose key a logout has deleted, each with the
number of calls that had started by then.
-/
import Royd.Auth.Wf
import Royd.Lib.Runs

namespace Royd.Auth

open ExpiringStore Programs Runs

/-! ## Calls under way -/

/-- A call under way, or over. -/
abbrev Running := Thread AuthCall Command Command.Reply Failure Answer

namespace Running

/-- What the call has seen and done. -/
def ledger (th : Running) : Ledger :=
  th.trace.foldr (fun e q => q.note th.req.spends e.1 e.2) {}

/-- What the call answered. -/
def answer? (th : Running) : Option Answer :=
  match th.prog with
  | .pure a => some a
  | _ => none

/-- The worker dies. -/
def abort (th : Running) : Running :=
  { th with prog := .raise { exc := .value "CancelledError" } }

/-- The sessions the next command ends. -/
def ending (th : Running) : List Nat :=
  match th.next? with
  | some (.delete ks) => ks.filterMap Key.session?
  | _ => []

end Running

/-! ## The system -/

/-- The server and the calls. -/
structure World where
  server : Server
  calls : List Running := []
  endings : List (Nat × Nat) := []

/-- What can happen. -/
inductive Message where
  | start (call : AuthCall)
  | step (i : Nat)
  | drop (i : Nat)
  | wait (seconds : Nat)
  | writeUsers (users : List User)
  deriving DecidableEq, Repr

variable (prims : Primitives) (cfg : Settings)

/-- A call as it starts. -/
def begin (call : AuthCall) : Running := { req := call, prog := handle prims cfg call }

/-- The effect of a message. -/
def exchange (w : World) : Message → World
  | .start call => { w with calls := w.calls ++ [begin prims cfg call] }
  | .step i =>
    match w.calls[i]? with
    | none => w
    | some th =>
      let next := th.step exec w.server
      { server := next.2
        calls := w.calls.set i next.1
        endings := w.endings ++ th.ending.map (·, w.calls.length) }
  | .drop i => { w with calls := w.calls.modify i Running.abort }
  | .wait seconds => { w with server := w.server.wait seconds }
  | .writeUsers users => { w with server := { w.server with users } }

/-- The call after it has sent `c` and got the reply. -/
def Running.sent (th : Running) (s : Server) (c : Command) (k : c.Reply → Handler Answer) :
    Running :=
  th.goOn c (exec c s).1 (k (exec c s).1)

/-- The world after call `i`, which was `th`, has sent `c`. -/
def World.after (w : World) (i : Nat) (th : Running) (c : Command)
    (k : c.Reply → Handler Answer) : World :=
  { server := (exec c w.server).2
    calls := w.calls.set i (th.sent w.server c k)
    endings := w.endings ++ th.ending.map (·, w.calls.length) }

/-- A step does nothing, or one call sends its next command. -/
theorem exchange_step (w : World) (i : Nat) :
    exchange prims cfg w (.step i) = w ∨
      ∃ th c k, w.calls[i]? = some th ∧ th.prog = .call c k ∧
        exchange prims cfg w (.step i) = w.after i th c k := by
  cases hth : w.calls[i]? with
  | none => exact .inl (by simp [exchange, hth])
  | some th =>
    cases hnext : th.next? with
    | none =>
      refine .inl ?_
      have hset : w.calls.set i th = w.calls := by
        obtain ⟨hi, rfl⟩ := List.getElem?_eq_some_iff.mp hth
        exact List.set_getElem_self hi
      simp [exchange, hth, Thread.step_none hnext, hset, Running.ending, hnext]
    | some c =>
      obtain ⟨k, hprog⟩ := Thread.next?_eq_some hnext
      refine .inr ⟨th, c, k, rfl, hprog, ?_⟩
      simp [exchange, hth, Thread.step_call hprog, World.after, Running.sent]

variable {prims cfg}

/-- The ledger of the call that went on. -/
theorem ledger_sent (th : Running) (s : Server) (c : Command) (k : c.Reply → Handler Answer) :
    (th.sent s c k).ledger = th.ledger.note th.req.spends c (exec c s).1 := rfl

/-! ## The calls after a message -/

/-- The calls after call `i` went on. -/
theorem call_after {w : World} {i j : Nat} {th th' : Running} {c : Command}
    {k : c.Reply → Handler Answer} (h : (w.after i th c k).calls[j]? = some th') :
    (j = i ∧ th' = th.sent w.server c k) ∨
      (j ≠ i ∧ w.calls[j]? = some th') := by
  simp only [World.after, List.getElem?_set] at h
  split at h
  · rename_i hij
    split at h
    · exact .inl ⟨hij.symm, (Option.some.inj h).symm⟩
    · cases h
  · exact .inr ⟨Ne.symm ‹_›, h⟩

/-- The calls after one more has started. -/
theorem call_start {w : World} {call : AuthCall} {j : Nat} {th' : Running}
    (h : (exchange prims cfg w (.start call)).calls[j]? = some th') :
    w.calls[j]? = some th' ∨ (j = w.calls.length ∧ th' = begin prims cfg call) := by
  simp only [exchange, List.getElem?_append] at h
  split at h
  · exact .inl h
  · rename_i hj
    obtain ⟨hlt, rfl⟩ := List.getElem?_eq_some_iff.mp h
    simp only [List.length_singleton] at hlt
    exact .inr ⟨by omega, by simp⟩

/-- The calls after a worker died. -/
theorem call_drop {w : World} {i j : Nat} {th' : Running}
    (h : (exchange prims cfg w (.drop i)).calls[j]? = some th') :
    w.calls[j]? = some th' ∨ ∃ th, w.calls[j]? = some th ∧ th' = th.abort := by
  simp only [exchange, List.getElem?_modify] at h
  obtain ⟨th, hth, rfl⟩ := Option.map_eq_some_iff.mp h
  split
  · exact .inr ⟨th, hth, rfl⟩
  · exact .inl hth

/-- A call keeps its place. -/
theorem call_exchange {w : World} {j : Nat} {th : Running} (hj : w.calls[j]? = some th)
    (m : Message) : ∃ th', (exchange prims cfg w m).calls[j]? = some th' ∧ th'.req = th.req := by
  cases m with
  | start call =>
    have hlt : j < w.calls.length := (List.getElem?_eq_some_iff.mp hj).1
    exact ⟨th, by simp [exchange, List.getElem?_append_left hlt, hj], rfl⟩
  | step i =>
    rcases exchange_step prims cfg w i with heq | ⟨th₀, c, k, hth, -, heq⟩
    · rw [heq]
      exact ⟨th, hj, rfl⟩
    · rw [heq]
      have hlt : j < w.calls.length := (List.getElem?_eq_some_iff.mp hj).1
      by_cases hij : i = j
      · cases hij
        cases hth.symm.trans hj
        refine ⟨th.sent w.server c k, ?_, rfl⟩
        simp only [World.after, List.getElem?_set_self hlt]
      · exact ⟨th, by simp [World.after, List.getElem?_set_ne hij, hj], rfl⟩
  | drop i =>
    by_cases hij : i = j
    · exact ⟨th.abort, by simp [exchange, hij, hj], rfl⟩
    · exact ⟨th, by simp [exchange, hij, hj], rfl⟩
  | wait seconds => exact ⟨th, hj, rfl⟩
  | writeUsers users => exact ⟨th, hj, rfl⟩

/-- The same, over a run. -/
theorem call_run {w : World} {j : Nat} {call : AuthCall}
    (hj : ∃ th, w.calls[j]? = some th ∧ th.req = call) (ms : List Message) :
    ∃ th, (run (exchange prims cfg) w ms).calls[j]? = some th ∧ th.req = call := by
  refine run_invariant (I := fun w : World => ∃ th : Running, w.calls[j]? = some th ∧ th.req = call) ?_ hj ms
  rintro w m ⟨th, hth, rfl⟩
  exact call_exchange hth m

/-! ## What holds of every call -/

/-- The call has kept the discipline, and will. -/
def Running.Disciplined (cfg : Settings) (th : Running) : Prop :=
  Thread.Obeys (m := discipline cfg th.req.spends) (Ledger.Answered th.req) {} th

namespace Running.Disciplined

variable {th : Running}

theorem begin (call : AuthCall) : (begin prims cfg call).Disciplined cfg :=
  Thread.obeys_start (handle_obeys prims cfg call)

theorem abort (th : Running) : th.abort.Disciplined cfg := trivial

/-- What a call sends is allowed. -/
theorem allows {c : Command} {k : c.Reply → Handler Answer} (h : th.Disciplined cfg)
    (hprog : th.prog = .call c k) : th.ledger.Allows cfg th.req.spends c :=
  (Thread.Obeys.call h hprog).1

theorem sent {c : Command} {k : c.Reply → Handler Answer} (h : th.Disciplined cfg)
    (hprog : th.prog = .call c k) (s : Server) : (th.sent s c k).Disciplined cfg :=
  (Thread.Obeys.call h hprog).2 _ (possible_exec c s)

/-- What an answer means. -/
theorem answered {a : Answer} (h : th.Disciplined cfg) (hanswer : th.answer? = some a) :
    th.ledger.Answered th.req a := by
  unfold Running.answer? at hanswer
  split at hanswer
  · rename_i hprog
    cases hanswer
    unfold Running.Disciplined Thread.Obeys at h
    rw [hprog] at h
    exact h
  · cases hanswer

end Running.Disciplined

/-- Every call keeps the discipline, and nothing was seen that is not there. -/
structure World.Wf (cfg : Settings) (w : World) : Prop where
  server : w.server.Wf
  calls : ∀ (i : Nat) (th : Running), w.calls[i]? = some th → th.Disciplined cfg ∧ th.ledger.Wf w.server

namespace World.Wf

variable {w : World}

/-- A system in which no call has started. -/
theorem init {s : Server} (hs : s.Wf) : World.Wf cfg { server := s } where
  server := hs
  calls := by simp

theorem after {i : Nat} {th : Running} {c : Command} {k : c.Reply → Handler Answer}
    (h : w.Wf cfg) (hth : w.calls[i]? = some th) (hprog : th.prog = .call c k) :
    (w.after i th c k).Wf cfg := by
  obtain ⟨hdisc, hledger⟩ := h.calls i th hth
  have hallows := hdisc.allows hprog
  refine ⟨h.server.exec hledger hallows, fun j th' hth' => ?_⟩
  rcases call_after hth' with ⟨-, rfl⟩ | ⟨-, hj⟩
  · exact ⟨hdisc.sent hprog w.server, hledger.note h.server hallows⟩
  · exact ⟨(h.calls j th' hj).1, (h.calls j th' hj).2.grows (grows_exec c w.server)⟩

/-- Every message keeps it. -/
theorem exchange (h : w.Wf cfg) (m : Message) : (exchange prims cfg w m).Wf cfg := by
  cases m with
  | start call =>
    refine ⟨h.server, fun j th' hth' => ?_⟩
    rcases call_start hth' with hj | ⟨-, rfl⟩
    · exact h.calls j th' hj
    · exact ⟨Running.Disciplined.begin call, Ledger.wf_empty _⟩
  | step i =>
    rcases exchange_step prims cfg w i with heq | ⟨th, c, k, hth, hprog, heq⟩
    · rw [heq]
      exact h
    · rw [heq]
      exact h.after hth hprog
  | drop i =>
    refine ⟨h.server, fun j th' hth' => ?_⟩
    rcases call_drop hth' with hj | ⟨th, hj, rfl⟩
    · exact h.calls j th' hj
    · exact ⟨Running.Disciplined.abort th, (h.calls j th hj).2⟩
  | wait seconds =>
    refine ⟨⟨h.server.jti_lt, h.server.sid_lt, h.server.jti_inj, h.server.key_lt⟩, ?_⟩
    exact fun j th' hj => ⟨(h.calls j th' hj).1, (h.calls j th' hj).2.grows (w.server.grows_wait _)⟩
  | writeUsers users =>
    refine ⟨⟨h.server.jti_lt, h.server.sid_lt, h.server.jti_inj, h.server.key_lt⟩, ?_⟩
    intro j th' hj
    obtain ⟨hdisc, hledger⟩ := h.calls j th' hj
    exact ⟨hdisc, hledger.grows ⟨Nat.le_refl _, fun _ ht => ht, fun _ hl => hl, Int.le_refl _⟩⟩

end World.Wf

/-- Call `i` goes on by `n` commands. -/
def goes (i n : Nat) : List Message := List.replicate n (.step i)

end Royd.Auth
