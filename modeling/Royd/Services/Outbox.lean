/-
Royd.Services.Outbox — the delivering half of `services/outbox_service.py`,
one row of `models/outbox.py` at a time.

A sender either returns or raises, so what `_deliver_one` makes of a row is
a function of the call: when it was started, and what was raised. A row is
what its calls have made of it (`replay`), and a call is made only of a row
that is pending and due (`Guarded`). Everything the outbox promises of a row
is read off the list of its calls.
-/
import Mathlib.Algebra.Group.Nat.Defs
import Mathlib.Data.List.Induction
import Royd.Models.Db

namespace Royd

namespace Outbox

/-! ## Rows -/

/-- `OutboxStatus`. -/
inductive Status where
  | pending
  | sent
  | failed
  deriving DecidableEq, Repr

/-- `outbox`, with what the delivery keeps of a row. -/
structure Row extends OutboxMessage where
  status : Status := .pending
  attempts : Nat := 0
  nextAttemptAt : Int
  lastError : Option String := none
  createdAt : Int
  sentAt : Option Int := none
  deriving DecidableEq, Repr

/-- The row an `enqueue_*` adds. -/
def queued (id : Nat) (payload : OutboxPayload) (now : Int) : Row :=
  { id, payload, nextAttemptAt := now, createdAt := now }

/-- An exception a sender raised. -/
structure SendError where
  typeName : String
  message : String
  deriving DecidableEq, Repr

/-- A call of a row's sender: when it was started, when it came back, and
what it raised. -/
structure SenderCall where
  rowId : Nat
  start : Int
  finish : Int
  error : Option SendError
  deriving DecidableEq, Repr

/-- `f"{type(exc).__name__}: {exc}"[:2000]`. -/
def errorText (exc : SendError) : String :=
  String.ofList ((exc.typeName ++ ": " ++ exc.message).toList.take 2000)

/-- `timedelta(minutes=n)`. -/
def minutes (n : Nat) : Int := n * 60000000

variable (maxAttempts : Nat)

/-- `_deliver_one`, for a sender that was called at `now` and raised `error`,
or nothing. -/
def deliverOne (row : Row) (now : Int) : Option SendError → Row
  | some exc =>
    let row := { row with
      attempts := row.attempts + 1
      lastError := some (errorText exc) }
    if row.attempts ≥ maxAttempts then { row with status := .failed }
    else { row with nextAttemptAt := now + minutes (2 ^ (row.attempts - 1)) }
  | none =>
    { row with
      attempts := row.attempts + 1
      status := .sent
      sentAt := some now
      lastError := none }

/-! ## What the calls make of a row -/

/-- The row as it was queued. -/
def Row.origin (row : Row) : Row := queued row.id row.payload row.createdAt

/-- The row after these calls. -/
def replay (row : Row) (calls : List SenderCall) : Row :=
  calls.foldl (fun r c => deliverOne maxAttempts r c.start c.error) row

theorem replay_concat (row : Row) (calls : List SenderCall) (c : SenderCall) :
    replay maxAttempts row (calls ++ [c])
      = deliverOne maxAttempts (replay maxAttempts row calls) c.start c.error := by
  simp [replay]

/-- Every call was made while the row was pending, when it was due. -/
inductive Guarded (row : Row) : List SenderCall → Prop where
  | nil : Guarded row []
  | concat {calls : List SenderCall} {c : SenderCall} (before : Guarded row calls)
      (pending : (replay maxAttempts row calls).status = .pending)
      (due : (replay maxAttempts row calls).nextAttemptAt ≤ c.start) : Guarded row (calls ++ [c])

/-- The row is what guarded calls have made of it. -/
structure Delivered (calls : List SenderCall) (row : Row) : Prop where
  guarded : Guarded maxAttempts row.origin calls
  replayed : row = replay maxAttempts row.origin calls

variable {maxAttempts} {row : Row} {calls : List SenderCall}

@[simp] theorem deliverOne_message (now : Int) (error : Option SendError) :
    (deliverOne maxAttempts row now error).toOutboxMessage = row.toOutboxMessage := by
  unfold deliverOne
  cases error with
  | none => rfl
  | some exc =>
    dsimp only
    split
    · rfl
    · rfl

@[simp] theorem deliverOne_origin (now : Int) (error : Option SendError) :
    (deliverOne maxAttempts row now error).origin = row.origin := by
  unfold deliverOne
  cases error with
  | none => rfl
  | some exc =>
    dsimp only
    split
    · rfl
    · rfl

@[simp] theorem deliverOne_attempts (now : Int) (error : Option SendError) :
    (deliverOne maxAttempts row now error).attempts = row.attempts + 1 := by
  unfold deliverOne
  cases error with
  | none => rfl
  | some exc =>
    dsimp only
    split
    · rfl
    · rfl

/-- A row that was just queued. -/
theorem delivered_queued (id : Nat) (payload : OutboxPayload) (now : Int) :
    Delivered maxAttempts [] (queued id payload now) := ⟨.nil, rfl⟩

/-- A call of a row that is pending and due is one more. -/
theorem Delivered.call (h : Delivered maxAttempts calls row) (hpending : row.status = .pending)
    {c : SenderCall} (hdue : row.nextAttemptAt ≤ c.start) :
    Delivered maxAttempts (calls ++ [c]) (deliverOne maxAttempts row c.start c.error) where
  guarded := by
    rw [deliverOne_origin]
    exact .concat h.guarded (h.replayed ▸ hpending) (h.replayed ▸ hdue)
  replayed := by
    rw [deliverOne_origin, replay_concat, ← h.replayed]

/-! ## The contract -/

/-- The sender raised. -/
def SenderCall.Failed (c : SenderCall) : Prop := c.error.isSome = true

/-- The next call starts no earlier than 2^(k-1) minutes after the k-th one
was started. -/
def Spaced (calls : List SenderCall) : Prop :=
  ∀ k c c', calls[k]? = some c → calls[k + 1]? = some c' → c.start + minutes (2 ^ k) ≤ c'.start

/-- What the outbox promises of a row, given the calls of its sender. -/
structure Contract (maxAttempts : Nat) (calls : List SenderCall) (row : Row) : Prop where
  attempts : row.attempts = calls.length
  pending : row.status = .pending → calls.length < maxAttempts ∧ ∀ c ∈ calls, c.Failed
  sent : row.status = .sent ↔ ∃ c, calls.getLast? = some c ∧ ¬ c.Failed
  sentAt : row.status = .sent → row.sentAt.isSome = true ∧ row.lastError = none
  failed : row.status = .failed ↔ calls.length = maxAttempts ∧ ∀ c ∈ calls, c.Failed
  bounded : calls.length ≤ maxAttempts
  once : ∀ c ∈ calls.dropLast, c.Failed
  next : row.status = .pending → ∀ c, calls.getLast? = some c →
    row.nextAttemptAt = c.start + minutes (2 ^ (calls.length - 1))
  spaced : Spaced calls

theorem Spaced.concat (h : Spaced calls) {c : SenderCall}
    (hlast : ∀ last, calls.getLast? = some last →
      last.start + minutes (2 ^ (calls.length - 1)) ≤ c.start) : Spaced (calls ++ [c]) := by
  intro k a b ha hb
  by_cases hk : k + 1 < calls.length
  · rw [List.getElem?_append_left hk] at hb
    rw [List.getElem?_append_left (Nat.lt_of_succ_lt hk)] at ha
    exact h k a b ha hb
  · have hlen : k + 1 < (calls ++ [c]).length := (List.getElem?_eq_some_iff.mp hb).1
    rw [List.length_append, List.length_singleton] at hlen
    have hlength : calls.length = k + 1 := by omega
    rw [← hlength, List.getElem?_concat_length] at hb
    rw [List.getElem?_append_left (by omega)] at ha
    cases hb
    have hlast' := hlast a (by rw [List.getLast?_eq_getElem?, hlength]; exact ha)
    rwa [hlength] at hlast'

/-- A queued row has not been tried. -/
theorem Contract.queued (hmax : 1 ≤ maxAttempts) (id : Nat) (payload : OutboxPayload) (now : Int) :
    Contract maxAttempts [] (queued id payload now) where
  attempts := rfl
  pending := fun _ => ⟨hmax, nofun⟩
  sent := ⟨nofun, fun ⟨_, hlast, _⟩ => by cases hlast⟩
  sentAt := nofun
  failed := ⟨nofun, fun ⟨hlen, _⟩ => by rw [← hlen] at hmax; cases hmax⟩
  bounded := Nat.zero_le _
  once := nofun
  next := fun _ _ hlast => by cases hlast
  spaced := nofun

/-- One more call on a pending row that is due keeps the contract, whatever it
is answered. -/
theorem Contract.concat {r : Row} {c : SenderCall} (h : Contract maxAttempts calls r)
    (hpending : r.status = .pending) (hdue : r.nextAttemptAt ≤ c.start) :
    Contract maxAttempts (calls ++ [c]) (deliverOne maxAttempts r c.start c.error) := by
  obtain ⟨hlt, hall⟩ := h.pending hpending
  have hspaced : Spaced (calls ++ [c]) := h.spaced.concat fun last hlast =>
    h.next hpending last hlast ▸ hdue
  have hattempts := h.attempts
  have hlen : (calls ++ [c]).length = calls.length + 1 := by simp
  have hlast : (calls ++ [c]).getLast? = some c := List.getLast?_concat
  have honce : ∀ c' ∈ (calls ++ [c]).dropLast, c'.Failed := by
    rw [List.dropLast_concat]
    exact hall
  cases herror : c.error with
  | none =>
    have hok : ¬ c.Failed := by simp [SenderCall.Failed, herror]
    exact
      { attempts := by rw [deliverOne_attempts, hlen, hattempts]
        pending := nofun
        sent := ⟨fun _ => ⟨c, hlast, hok⟩, fun _ => rfl⟩
        sentAt := fun _ => ⟨rfl, rfl⟩
        failed := ⟨nofun, fun ⟨_, hfailed⟩ => absurd (hfailed c (by simp)) hok⟩
        bounded := by omega
        once := honce
        next := nofun
        spaced := hspaced }
  | some exc =>
    have hfailed : c.Failed := by simp [SenderCall.Failed, herror]
    have hall' : ∀ c' ∈ calls ++ [c], c'.Failed := fun c' hc' => by
      rcases List.mem_append.mp hc' with hc' | hc'
      · exact hall c' hc'
      · rwa [List.mem_singleton.mp hc']
    have hnotSent : ¬ ∃ c', (calls ++ [c]).getLast? = some c' ∧ ¬ c'.Failed := by
      rintro ⟨c', hc', hok⟩
      rw [hlast] at hc'
      cases hc'
      exact hok hfailed
    by_cases hover : calls.length + 1 ≥ maxAttempts
    · -- The last attempt there is.
      have hrow : deliverOne maxAttempts r c.start (some exc)
          = { r with
              attempts := r.attempts + 1
              lastError := some (errorText exc)
              status := .failed } := by
        simp only [deliverOne, hattempts, if_pos hover]
      rw [hrow]
      exact
        { attempts := by rw [hlen, hattempts]
          pending := nofun
          sent := ⟨nofun, fun h => absurd h hnotSent⟩
          sentAt := nofun
          failed := ⟨fun _ => ⟨by omega, hall'⟩, fun _ => rfl⟩
          bounded := by omega
          once := honce
          next := nofun
          spaced := hspaced }
    · have hrow : deliverOne maxAttempts r c.start (some exc)
          = { r with
              attempts := r.attempts + 1
              lastError := some (errorText exc)
              nextAttemptAt := c.start + minutes (2 ^ r.attempts) } := by
        simp only [deliverOne, hattempts, if_neg hover, Nat.add_sub_cancel]
      have hstays : r.status ≠ .sent ∧ r.status ≠ .failed := by
        rw [hpending]
        decide
      rw [hrow]
      exact
        { attempts := by rw [hlen, hattempts]
          pending := fun _ => ⟨by omega, hall'⟩
          sent := ⟨fun h => absurd h hstays.1, fun h => absurd h hnotSent⟩
          sentAt := fun h => absurd h hstays.1
          failed := ⟨fun h => absurd h hstays.2, fun ⟨hmost, _⟩ => by omega⟩
          bounded := by omega
          once := honce
          next := fun _ c' hc' => by
            rw [hlast] at hc'
            cases hc'
            rw [hlen, hattempts, Nat.add_sub_cancel]
          spaced := hspaced }

/-- Guarded calls keep the contract, whatever they were answered. -/
theorem Guarded.contract (hmax : 1 ≤ maxAttempts) {id : Nat} {payload : OutboxPayload} {now : Int}
    (h : Guarded maxAttempts (queued id payload now) calls) :
    Contract maxAttempts calls (replay maxAttempts (queued id payload now) calls) := by
  induction h with
  | nil => exact Contract.queued hmax id payload now
  | @concat calls c before hpending hdue ih =>
    rw [replay_concat]
    exact ih.concat hpending hdue

theorem Delivered.contract (hmax : 1 ≤ maxAttempts) (h : Delivered maxAttempts calls row) :
    Contract maxAttempts calls row := by
  have hreplayed := h.replayed
  unfold Row.origin at hreplayed
  rw [hreplayed]
  exact h.guarded.contract hmax

end Outbox

end Royd
