/-
Royd.Realtime.Sockets — `api/v1/ws.py`: the sockets of each worker and the
channel that connects the workers.

A push is published on one Redis channel; the listener of every worker takes
the messages one by one and sends each to the sockets the worker holds for
that user. A push that cannot be published is sent to the sockets of the
pushing worker only. Sends are awaited one by one, so sockets come and go in
the middle of a delivery: it works on the list of sockets it made when it
started.
-/
import Royd.Lib.Streams
import Royd.Lib.Tables
import Mathlib.Logic.Function.Basic

namespace Royd.Realtime

/-! ## `ConnectionManager.connections` -/

/-- The dict of the users with sockets on one worker. -/
abbrev Connections := List (Nat × List Nat)

namespace Connections

/-- `connections.get(user_id, ())`. -/
def socketsOf (c : Connections) (userId : Nat) : List Nat :=
  ((c.find? (·.1 == userId)).map (·.2)).getD []

/-- Reading `connections[user_id]` of a `defaultdict` puts an empty set there
if there is none. -/
def touch (c : Connections) (userId : Nat) : Connections :=
  if c.any (·.1 == userId) then c else c ++ [(userId, [])]

/-- `connect`. -/
def connect (c : Connections) (userId ws : Nat) : Connections :=
  Tables.update Prod.fst (c.touch userId) userId fun e => (e.1, e.2.insert ws)

/-- `disconnect`: the last socket of a user takes the entry with it. -/
def disconnect (c : Connections) (userId ws : Nat) : Connections :=
  let c : Connections := Tables.update Prod.fst (c.touch userId) userId fun e => (e.1, e.2.erase ws)
  if (c.socketsOf userId).isEmpty then c.filter (·.1 != userId) else c

end Connections

/-! ## A worker -/

/-- What is published on `PUBSUB_CHANNEL`. -/
structure Envelope (π : Type) where
  userId : Nat
  payload : π
  deriving DecidableEq, Repr

/-- A frame sent to a client. `relayed` tells a payload that came through the
channel from one of a push that could not be published. -/
inductive Frame (π : Type) where
  | connected
  | pong
  | notification (payload : π) (relayed : Bool)
  deriving DecidableEq, Repr

/-- The socket of a `ws_notifications` call that got past `_authenticate`,
with everything it was sent. `since` is the place in the channel it hears
from. -/
structure Socket (π : Type) where
  ws : Nat
  userId : Nat
  since : Nat
  running : Bool := true
  frames : List (Frame π) := []
  deriving DecidableEq, Repr

/-- `_pubsub_listener`. A listener that has ended, because it was cancelled
or because its connection broke, is not started again. -/
inductive Listener where
  | starting
  | reading (next : Nat)
  | ended
  deriving DecidableEq, Repr

/-- A `deliver_local` under way, with the sockets it has still to send to. -/
structure Delivery (π : Type) where
  userId : Nat
  payload : π
  waiting : List Nat
  deriving DecidableEq, Repr

/-- One worker: its sockets, what its listener is at, and the deliveries of
pushes that could not be published, with those pushes. -/
structure Worker (π : Type) where
  connections : Connections := []
  sockets : List (Socket π) := []
  listener : Listener := .starting
  current : Option (Delivery π) := none
  direct : List (Delivery π) := []
  unpublished : List (Envelope π) := []
  deriving DecidableEq, Repr

variable {π : Type}

/-- The sockets the listener has still to send its message to. -/
def Worker.waiting (k : Worker π) : List Nat := (k.current.map (·.waiting)).getD []

/-- The worker holds the socket for its user. -/
def Worker.holds (k : Worker π) (s : Socket π) : Bool := (k.connections.socketsOf s.userId).contains s.ws

/-- `ws.send_text(...)`. -/
def Worker.write (k : Worker π) (ws : Nat) (frame : Frame π) : Worker π :=
  { k with sockets := Tables.update (·.ws) k.sockets ws fun s =>
      { s with frames := s.frames ++ [frame] } }

/-- One turn of the loop of `deliver_local`. -/
def Worker.sendTo (k : Worker π) (d : Delivery π) (ws : Nat) (delivered relayed : Bool) :
    Worker π :=
  if delivered then k.write ws (.notification d.payload relayed)
  else { k with connections := k.connections.disconnect d.userId ws }

/-- What a worker can do next. `order` is the order in which a set of sockets
is listed, `delivered` whether a send went through. -/
inductive Act where
  | subscribe
  | stop
  | join (ws userId : Nat)
  | greet (ws : Nat)
  | ping (ws : Nat)
  | leave (ws : Nat)
  | take (order : List Nat)
  | send (delivered : Bool)
  | sendDirect (i : Nat) (delivered : Bool)
  deriving DecidableEq, Repr

/-- The endpoint of a socket sends a frame, unless it has returned. -/
def Worker.reply (k : Worker π) (ws : Nat) (frame : Frame π) : Worker π :=
  if k.sockets.any fun s => s.ws == ws && s.running then k.write ws frame else k

/-- The place in the channel a socket that joins now hears from. -/
def Worker.place (channel : List (Envelope π)) (k : Worker π) : Nat :=
  match k.listener with
  | .reading next => next
  | _ => channel.length

/-- What an act does; one that cannot happen does nothing. -/
def Worker.act (channel : List (Envelope π)) (k : Worker π) : Act → Worker π
  | .subscribe =>
    if k.listener = .starting then
      { k with
        listener := .reading channel.length
        sockets := k.sockets.map fun s => { s with since := channel.length } }
    else k
  | .stop => { k with listener := .ended, current := none }
  | .join ws userId =>
    if k.sockets.any (·.ws == ws) then k
    else { k with
      connections := k.connections.connect userId ws
      sockets := k.sockets ++ [{ ws, userId, since := k.place channel }] }
  | .greet ws => k.reply ws .connected
  | .ping ws => k.reply ws .pong
  | .leave ws =>
    match k.sockets.find? (·.ws == ws) with
    | some s =>
      if s.running then
        { k with
          connections := k.connections.disconnect s.userId ws
          sockets := Tables.update (·.ws) k.sockets ws fun s => { s with running := false } }
      else k
    | none => k
  | .take order =>
    match k.listener with
    | .reading next =>
      match channel[next]? with
      | some message =>
        if k.waiting = [] ∧ order.Perm (k.connections.socketsOf message.userId) then
          { k with
            listener := .reading (next + 1)
            current := some { userId := message.userId, payload := message.payload, waiting := order } }
        else k
      | none => k
    | _ => k
  | .send delivered =>
    match k.current with
    | some d =>
      match d.waiting with
      | ws :: rest =>
        { k.sendTo d ws delivered true with current := some { d with waiting := rest } }
      | [] => k
    | none => k
  | .sendDirect i delivered =>
    match k.direct[i]? with
    | some d =>
      match d.waiting with
      | ws :: rest =>
        { k.sendTo d ws delivered false with direct := k.direct.set i { d with waiting := rest } }
      | [] => k
    | none => k

/-- `push` where Redis cannot be reached: the worker's own sockets get it. -/
def Worker.deliverLocal (k : Worker π) (userId : Nat) (payload : π) (order : List Nat) : Worker π :=
  if order.Perm (k.connections.socketsOf userId) then
    { k with
      direct := k.direct ++ [{ userId, payload, waiting := order }]
      unpublished := k.unpublished ++ [{ userId, payload }] }
  else k

/-! ## The workers -/

/-- What was published so far, and the workers. -/
structure Cluster (π : Type) where
  channel : List (Envelope π)
  workers : Nat → Worker π

/-- Something a worker does, or a push from it. `published` tells whether
`publish` went through. -/
inductive Event (π : Type) where
  | act (worker : Nat) (a : Act)
  | push (worker userId : Nat) (payload : π) (published : Bool) (order : List Nat)
  deriving DecidableEq, Repr

/-- One step of the cluster. -/
def Cluster.step (c : Cluster π) : Event π → Cluster π
  | .act i a => { c with workers := Function.update c.workers i ((c.workers i).act c.channel a) }
  | .push i userId payload published order =>
    if published then { c with channel := c.channel ++ [{ userId, payload }] }
    else { c with
      workers := Function.update c.workers i ((c.workers i).deliverLocal userId payload order) }

/-- Before anything was published or any worker has subscribed. -/
def Cluster.idle : Cluster π := ⟨[], fun _ => {}⟩

end Royd.Realtime
