/-
Royd.Concurrent.Handlers — the handlers of several workers at once.

A handler is a party that talks to the database twice. Its load returns the
committed rows and it decides everything on that snapshot; its commit
writes the columns it changed by primary key, onto whatever the row holds by
then (`Db.finish`). Nothing is locked in between and no version is compared,
which is READ COMMITTED as the session is configured. A handler may also
never commit: the worker dies, or the client goes away.

`Db.reserve` is what is visible of a handler before its commit: the ids it
has drawn from the sequences, which no other handler is given again.
-/
import Royd.Lifecycle.States

namespace Royd

/-- The ids a session has drawn are gone, whether or not it commits. -/
def Db.reserve (db : Db) (s : Session) : Db :=
  { db with
    nextId := max db.nextId s.nextId
    nextMessageId := max db.nextMessageId s.nextMessageId }

namespace Concurrent

open Api

/-- A handler between its load and its commit. -/
structure Party where
  call : Call
  work : Work
  deriving DecidableEq, Repr

/-- The committed tables and the handlers that are under way. -/
structure World where
  db : Db
  parties : List Party := []
  deriving DecidableEq, Repr

/-- A message between a handler and the database, or an event of the rest
of the system, which commits in one piece. -/
inductive Message where
  | load (call : Call) (now : Int)
  | commit (i : Nat)
  | drop (i : Nat)
  | event (e : Event)
  deriving DecidableEq, Repr

variable (cfg : Settings)

/-- What a message does. A handler whose checks fail answers with an error
and is gone. -/
def exchange (w : World) : Message → World
  | .load call now =>
    match call.handle cfg w.db now with
    | .ok work => { db := w.db.reserve work.session, parties := w.parties ++ [{ call, work }] }
    | .error _ => w
  | .commit i =>
    match w.parties[i]? with
    | some p => { db := w.db.finish p.work, parties := w.parties.eraseIdx i }
    | none => w
  | .drop i => { w with parties := w.parties.eraseIdx i }
  | .event e => { w with db := step cfg w.db e }

variable {cfg}

theorem exchange_load_ok {w : World} {call : Call} {now : Int} {work : Work}
    (h : call.handle cfg w.db now = .ok work) : exchange cfg w (.load call now)
      = { db := w.db.reserve work.session, parties := w.parties ++ [{ call, work }] } := by
  simp [exchange, h]

theorem exchange_load_error {w : World} {call : Call} {now : Int} {e : Exc}
    (h : call.handle cfg w.db now = .error e) : exchange cfg w (.load call now) = w := by
  simp [exchange, h]

theorem exchange_commit_some {w : World} {i : Nat} {p : Party} (h : w.parties[i]? = some p) :
    exchange cfg w (.commit i)
      = { db := w.db.finish p.work, parties := w.parties.eraseIdx i } := by
  simp [exchange, h]

theorem exchange_commit_none {w : World} {i : Nat} (h : w.parties[i]? = none) :
    exchange cfg w (.commit i) = w := by
  simp [exchange, h]

/-! ## Parties -/

variable (cfg)

/-- What a party still knows when it commits: its work is a change of the
row it loaded, and it moves the status exactly if its call does. -/
structure Party.Ok (db : Db) (p : Party) : Prop where
  below : p.work.loaded.id < db.nextId
  about : p.work.loaded.id = p.call.requestId
  change : ∃ start now, Change cfg start now p.work.loaded p.work.req p.work.session
  moves : p.call.movesStatus = true ↔ p.work.req.status ≠ p.work.loaded.status

/-- Well-formed tables, and parties that are in order. -/
structure World.Ok (w : World) : Prop where
  wf : w.db.Wf
  parties : ∀ p ∈ w.parties, p.Ok cfg w.db

variable {cfg}

theorem Party.Ok.mono {db db' : Db} {p : Party} (h : p.Ok cfg db) (hle : db.nextId ≤ db'.nextId) :
    p.Ok cfg db' :=
  ⟨h.below.trans_le hle, h.about, h.change, h.moves⟩

theorem reserve_effect (now : Int) (cats : List RequestCategory) (db : Db) (s : Session) :
    Effect cfg now cats db (db.reserve s) :=
  .outside rfl rfl rfl rfl rfl (Nat.le_max_left _ _) id

theorem Effect.nextId_le {now : Int} {cats : List RequestCategory} {db db' : Db}
    (h : Effect cfg now cats db db') : db.nextId ≤ db'.nextId := by
  cases h with
  | outside _ _ _ _ _ nextId => exact nextId
  | filed => exact Nat.le_max_left _ _
  | changed => exact nextId_le_finish ..

theorem Effects.nextId_le {now : Int} {cats : List RequestCategory} {db db' : Db}
    (h : Effects cfg now cats db db') : db.nextId ≤ db'.nextId := by
  induction h with
  | refl => exact le_rfl
  | tail _ hlast ih => exact ih.trans (Effect.nextId_le hlast)

/-- A load whose checks pass leaves a party in order. -/
theorem load_ok {db : Db} (hwf : db.Wf) {call : Call} {now : Int} {work : Work}
    (h : call.handle cfg db now = .ok work) : Party.Ok cfg db { call, work } := by
  obtain ⟨hmem, hid, hchange⟩ := handle_change h
  exact
    { below := hwf.requestsBelow _ hmem
      about := hid
      change := ⟨_, _, hchange⟩
      moves := handle_movesStatus h }

/-- Every message keeps the world in order. -/
theorem exchange_ok {w : World} (h : w.Ok cfg) (m : Message) : (exchange cfg w m).Ok cfg := by
  cases m with
  | load call now =>
    cases hhandle : call.handle cfg w.db now with
    | error _ => rwa [exchange_load_error hhandle]
    | ok work =>
      rw [exchange_load_ok hhandle]
      have heffect : Effect cfg now [] w.db (w.db.reserve work.session) := reserve_effect ..
      have hle := Effect.nextId_le heffect
      refine ⟨heffect.wf h.wf, fun p hp => ?_⟩
      rcases List.mem_append.mp hp with hp | hp
      · exact (h.parties p hp).mono hle
      · rw [List.mem_singleton.mp hp]
        exact (load_ok h.wf hhandle).mono hle
  | commit i =>
    cases hp : w.parties[i]? with
    | none => rwa [exchange_commit_none hp]
    | some p =>
      rw [exchange_commit_some hp]
      have hok := h.parties p (List.mem_of_getElem? hp)
      obtain ⟨start, now, hchange⟩ := hok.change
      refine ⟨h.wf.finish hok.below hchange, fun q hq => ?_⟩
      exact (h.parties q (List.mem_of_mem_eraseIdx hq)).mono (nextId_le_finish ..)
  | drop i => exact ⟨h.wf, fun q hq => h.parties q (List.mem_of_mem_eraseIdx hq)⟩
  | event e =>
    have heffects : Effects cfg e.now w.db.categories w.db (step cfg w.db e) :=
      step_effects h.wf e
    exact ⟨(heffects.life h.wf).1, fun p hp => (h.parties p hp).mono (Effects.nextId_le heffects)⟩

theorem start_ok {db : Db} (h : Start db) : World.Ok cfg { db } :=
  ⟨h.wf, fun _ hp => by cases hp⟩

end Concurrent

end Royd
