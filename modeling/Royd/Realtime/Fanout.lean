/-
Royd.Realtime.Fanout — every socket hears what was published for its user
since it came, all of it and nothing else.

The listener of a worker moves through the channel one message at a time, and
what it is at is one delivery to a fixed list of sockets. So the relayed
payloads of a socket are a block of the channel, cut down to its user
(`Follows`): up to the listener's place if the socket is held and not waiting,
one message short of it while it waits, and up to where it was dropped
otherwise. One step lemma for each act keeps this, whatever order the sets of
sockets are listed in and whichever sends fail.
-/
import Royd.Lib.Runs
import Royd.Realtime.Sockets
import Mathlib.Data.List.Perm.Lattice

namespace Royd.Realtime

open Runs Streams

/-! ## The dict -/

namespace Connections

/-- One entry for each user, and no user without a socket. -/
structure Tidy (c : Connections) : Prop where
  keys : (c.map Prod.fst).Nodup
  entries : ∀ e ∈ c, e.2 ≠ [] ∧ e.2.Nodup

variable {c : Connections} {userId ws : Nat}

theorem socketsOf_touch (c : Connections) (userId other : Nat) :
    (c.touch userId).socketsOf other = c.socketsOf other := by
  unfold touch
  split
  · rfl
  · rename_i hnew
    unfold socketsOf
    rw [List.find?_append]
    cases hfind : c.find? (·.1 == other) with
    | some e => rfl
    | none =>
      by_cases heq : userId = other
      · simp [heq]
      · simp [heq]

theorem touch_keys (h : (c.map Prod.fst).Nodup) : ((c.touch userId).map Prod.fst).Nodup := by
  unfold touch
  split
  · exact h
  · rename_i hnew
    refine Tables.nodup_concat h fun e he heq => hnew ?_
    exact List.any_eq_true.mpr ⟨e, he, by simpa using heq⟩

theorem mem_touch {e : Nat × List Nat} (h : e ∈ c.touch userId) : e ∈ c ∨ e = (userId, []) := by
  unfold touch at h
  split at h
  · exact .inl h
  · simpa using h

/-- The user an entry was touched for has one. -/
theorem exists_mem_touch (c : Connections) (userId : Nat) :
    ∃ e ∈ c.touch userId, e.1 = userId := by
  unfold touch
  split
  · rename_i hany
    obtain ⟨e, he, hkey⟩ := List.any_eq_true.mp hany
    exact ⟨e, he, by simpa using hkey⟩
  · exact ⟨(userId, []), by simp, rfl⟩

/-- An entry that is changed in place. -/
theorem socketsOf_update (c : Connections) (userId : Nat) (f : List Nat → List Nat) (other : Nat) :
    socketsOf (Tables.update Prod.fst (c.touch userId) userId fun e => (e.1, f e.2)) other =
      if other = userId then f (c.socketsOf userId) else c.socketsOf other := by
  have hfind : (Tables.update Prod.fst (c.touch userId) userId fun e => (e.1, f e.2)).find?
        (·.1 == other) =
      ((c.touch userId).find? (·.1 == other)).map fun e =>
        if e.1 = userId then (e.1, f e.2) else e := Tables.find?_update fun _ h => h
  have htouch : ∀ u, (((c.touch userId).find? (·.1 == u)).map (·.2)).getD [] = c.socketsOf u :=
    fun u => socketsOf_touch c userId u
  unfold socketsOf at htouch ⊢
  rw [hfind]
  by_cases heq : other = userId
  · subst heq
    obtain ⟨e, he, hkey⟩ := exists_mem_touch c other
    rw [if_pos rfl, ← htouch other]
    cases hentry : (c.touch other).find? (·.1 == other) with
    | none => simpa [hkey] using List.find?_eq_none.mp hentry e he
    | some e' =>
      have hkey' := (Tables.find?_mem hentry).2
      simp [hkey']
  · rw [if_neg heq, ← htouch other]
    cases hentry : (c.touch userId).find? (·.1 == other) with
    | none => rfl
    | some e =>
      have hkey := (Tables.find?_mem hentry).2
      have hne : e.1 ≠ userId := hkey ▸ heq
      simp [hne]

theorem socketsOf_connect (c : Connections) (userId ws other : Nat) :
    (c.connect userId ws).socketsOf other =
      if other = userId then (c.socketsOf userId).insert ws else c.socketsOf other :=
  socketsOf_update c userId (·.insert ws) other

theorem find?_filter_ne (c : Connections) {userId other : Nat} (h : other ≠ userId) :
    (c.filter (·.1 != userId)).find? (·.1 == other) = c.find? (·.1 == other) := by
  rw [List.find?_filter]
  congr 1
  funext e
  by_cases heq : e.1 = other
  · simp [heq, h]
  · simp [heq]

theorem socketsOf_disconnect (c : Connections) (userId ws other : Nat) :
    (c.disconnect userId ws).socketsOf other =
      if other = userId then (c.socketsOf userId).erase ws else c.socketsOf other := by
  have hupdate := socketsOf_update c userId (·.erase ws)
  unfold disconnect
  dsimp only
  split
  · rename_i hempty
    have hnone := (hupdate userId).symm.trans (List.isEmpty_iff.mp hempty)
    rw [if_pos rfl] at hnone
    by_cases heq : other = userId
    · subst heq
      have habsent : ∀ d : Connections, (d.filter (·.1 != other)).find? (·.1 == other) = none := by
        intro d
        refine List.find?_eq_none.mpr fun e he => ?_
        have := (List.mem_filter.mp he).2
        simpa using this
      rw [if_pos rfl, hnone]
      unfold socketsOf
      rw [habsent]
      rfl
    · rw [if_neg heq, ← (hupdate other).trans (if_neg heq)]
      unfold socketsOf
      rw [find?_filter_ne _ heq]
  · exact hupdate other

theorem mem_update_entry {f : List Nat → List Nat} {e : Nat × List Nat}
    (h : e ∈ Tables.update Prod.fst (c.touch userId) userId fun e => (e.1, f e.2)) :
    (∃ e₀ ∈ c.touch userId, e₀.1 = userId ∧ e = (e₀.1, f e₀.2)) ∨ (e ∈ c ∧ e.1 ≠ userId) := by
  rcases Tables.mem_update h with ⟨e₀, he₀, hkey, rfl⟩ | ⟨he, hne⟩
  · exact .inl ⟨e₀, he₀, hkey, rfl⟩
  · rcases mem_touch he with he | rfl
    · exact .inr ⟨he, hne⟩
    · exact absurd rfl hne

theorem Tidy.update_keys (h : c.Tidy) (userId : Nat) (f : List Nat → List Nat) :
    ((Tables.update Prod.fst (c.touch userId) userId fun e => (e.1, f e.2)).map Prod.fst).Nodup := by
  have hkeys : (Tables.update Prod.fst (c.touch userId) userId fun e => (e.1, f e.2)).map Prod.fst =
      (c.touch userId).map Prod.fst := Tables.update_keys fun _ h => h
  rw [hkeys]
  exact touch_keys h.keys

theorem Tidy.touched (h : c.Tidy) {e : Nat × List Nat} (he : e ∈ c.touch userId) : e.2.Nodup := by
  rcases mem_touch he with he | rfl
  · exact (h.entries e he).2
  · exact List.nodup_nil

theorem Tidy.connect (h : c.Tidy) (userId ws : Nat) : (c.connect userId ws).Tidy := by
  refine ⟨h.update_keys userId (·.insert ws), fun e he => ?_⟩
  rcases mem_update_entry (f := (·.insert ws)) he with ⟨e₀, he₀, -, rfl⟩ | ⟨he, -⟩
  · exact ⟨List.ne_nil_of_mem (List.mem_insert_self ..), (h.touched he₀).insert⟩
  · exact h.entries e he

theorem Tidy.disconnect (h : c.Tidy) (userId ws : Nat) : (c.disconnect userId ws).Tidy := by
  have hkeys := h.update_keys userId (·.erase ws)
  have hget := socketsOf_update c userId (·.erase ws) userId
  unfold Connections.disconnect
  dsimp only
  split
  · refine ⟨hkeys.sublist (List.filter_sublist.map _), fun e he => ?_⟩
    obtain ⟨he, hne⟩ := List.mem_filter.mp he
    rcases mem_update_entry (f := (·.erase ws)) he with ⟨e₀, -, hkey, rfl⟩ | ⟨he, -⟩
    · simp [hkey] at hne
    · exact h.entries e he
  · rename_i hsome
    refine ⟨hkeys, fun e he => ?_⟩
    rcases mem_update_entry (f := (·.erase ws)) he with ⟨e₀, he₀, hkey, rfl⟩ | ⟨hold, -⟩
    · refine ⟨fun hnil => hsome ?_, (h.touched he₀).erase ws⟩
      have hfound := Tables.find?_of_mem hkeys he
      dsimp only at hfound hnil
      rw [hkey] at hfound
      unfold socketsOf
      rw [hfound]
      simp [hnil]
    · exact h.entries e hold

theorem Tidy.socketsOf_nodup (h : c.Tidy) (userId : Nat) : (c.socketsOf userId).Nodup := by
  unfold socketsOf
  cases hfind : c.find? (·.1 == userId) with
  | none => exact List.nodup_nil
  | some e => exact (h.entries e (List.mem_of_find?_eq_some hfind)).2

/-- An entry of the dict is what is read for its user. -/
theorem Tidy.socketsOf_entry (h : c.Tidy) {e : Nat × List Nat} (he : e ∈ c) :
    c.socketsOf e.1 = e.2 := by
  unfold socketsOf
  rw [Tables.find?_of_mem h.keys he]
  rfl

theorem mem_disconnect {other w : Nat} (h : w ∈ (c.disconnect userId ws).socketsOf other) :
    w ∈ c.socketsOf other := by
  rw [socketsOf_disconnect] at h
  split at h
  · rename_i heq
    exact heq ▸ List.mem_of_mem_erase h
  · exact h

theorem Tidy.notMem_disconnect (h : c.Tidy) : ws ∉ (c.disconnect userId ws).socketsOf userId := by
  rw [socketsOf_disconnect, if_pos rfl]
  exact (h.socketsOf_nodup userId).not_mem_erase

theorem mem_connect {other w : Nat} :
    w ∈ (c.connect userId ws).socketsOf other ↔
      (other = userId ∧ w = ws) ∨ w ∈ c.socketsOf other := by
  rw [socketsOf_connect]
  split
  · rename_i heq
    simp [heq, List.mem_insert_iff]
  · rename_i hne
    simp [hne]

end Connections

/-! ## What a socket has heard -/

variable {π : Type}

/-- The payloads a socket got through the channel. -/
def Socket.relayed (s : Socket π) : List π := s.frames.filterMap fun
  | .notification payload true => some payload
  | _ => none

/-- The payloads of pushes that could not be published. -/
def Socket.unrelayed (s : Socket π) : List π := s.frames.filterMap fun
  | .notification payload false => some payload
  | _ => none

/-- The payloads of one user's messages. -/
def own (userId : Nat) (messages : List (Envelope π)) : List π :=
  (messages.filter (·.userId == userId)).map (·.payload)

theorem own_concat (userId : Nat) (messages : List (Envelope π)) (e : Envelope π) :
    own userId (messages ++ [e]) =
      own userId messages ++ if e.userId = userId then [e.payload] else [] := by
  unfold own
  rw [List.filter_append, List.map_append]
  congr 1
  by_cases heq : e.userId = userId
  · simp [heq]
  · simp [heq]

/-- The socket has heard its user's messages up to a place in the channel. -/
def Socket.Heard (channel : List (Envelope π)) (s : Socket π) (upto : Nat) : Prop :=
  s.since ≤ upto ∧ s.relayed = own s.userId (block channel s.since upto)

/-- What a socket has heard while the listener's next message is `next`. -/
def Follows (channel : List (Envelope π)) (k : Worker π) (next : Nat) (s : Socket π) : Prop :=
  if s.ws ∈ k.waiting then ∃ before, next = before + 1 ∧ s.Heard channel before
  else if k.holds s then s.Heard channel next
  else ∃ upto ≤ next, s.Heard channel upto

/-- A delivery is to different sockets of its user. -/
def Delivery.Known (k : Worker π) (d : Delivery π) : Prop :=
  d.waiting.Nodup ∧ ∀ ws ∈ d.waiting, ∃ s ∈ k.sockets, s.ws = ws ∧ s.userId = d.userId

/-- What the sockets have heard, by what became of the listener. -/
def Worker.Reads (channel : List (Envelope π)) (k : Worker π) : Prop :=
  match k.listener with
  | .starting => k.current = none ∧ ∀ s ∈ k.sockets, s.since ≤ channel.length ∧ s.relayed = []
  | .reading next =>
    next ≤ channel.length ∧
      (∀ d ∈ k.current, ∃ before, next = before + 1 ∧ channel[before]? = some ⟨d.userId, d.payload⟩) ∧
      ∀ s ∈ k.sockets, Follows channel k next s
  | .ended => k.current = none ∧ ∀ s ∈ k.sockets, ∃ upto ≤ channel.length, s.Heard channel upto

/-- The dict, the endpoints and the deliveries agree. -/
structure Worker.Sound (k : Worker π) : Prop where
  tidy : k.connections.Tidy
  ids : (k.sockets.map (·.ws)).Nodup
  held : ∀ userId, ∀ ws ∈ k.connections.socketsOf userId,
    ∃ s ∈ k.sockets, s.ws = ws ∧ s.userId = userId ∧ s.running = true
  current : ∀ d ∈ k.current, d.Known k
  direct : ∀ d ∈ k.direct, d.Known k ∧ ⟨d.userId, d.payload⟩ ∈ k.unpublished
  unrelayed : ∀ s ∈ k.sockets, ∀ p ∈ s.unrelayed, ⟨s.userId, p⟩ ∈ k.unpublished

/-- What every step keeps of a worker. -/
structure Worker.Ok (channel : List (Envelope π)) (k : Worker π) : Prop extends k.Sound where
  reads : k.Reads channel

section Steps

variable {channel : List (Envelope π)} {k : Worker π}

theorem Worker.holds_iff {s : Socket π} :
    k.holds s = true ↔ s.ws ∈ k.connections.socketsOf s.userId := by
  unfold Worker.holds
  rw [List.contains_iff_mem]

theorem Worker.Sound.socket_eq (h : k.Sound) {s s' : Socket π} (hs : s ∈ k.sockets)
    (hs' : s' ∈ k.sockets) (heq : s.ws = s'.ws) : s = s' :=
  Tables.eq_of_key h.ids hs hs' heq

/-- A socket that is waited for is a socket of the delivery's user. -/
theorem Delivery.Known.userId {d : Delivery π} (h : d.Known k) (hok : k.Sound) {s : Socket π}
    (hs : s ∈ k.sockets) (hws : s.ws ∈ d.waiting) : s.userId = d.userId := by
  obtain ⟨s', hs', heq, huser⟩ := h.2 _ hws
  rw [hok.socket_eq hs hs' heq.symm]
  exact huser

/-- A delivery with fewer sockets to go. -/
theorem Delivery.Known.tail {d : Delivery π} {ws : Nat} {rest : List Nat} (h : d.Known k)
    (hw : d.waiting = ws :: rest) : ({ d with waiting := rest } : Delivery π).Known k := by
  obtain ⟨hnodup, hknown⟩ := h
  rw [hw] at hnodup
  exact ⟨(List.nodup_cons.mp hnodup).2, fun w hmem => hknown w (hw ▸ List.mem_cons_of_mem _ hmem)⟩

/-- The sockets of one worker state are still there in another. -/
def Worker.Covers (k k' : Worker π) : Prop :=
  ∀ s ∈ k.sockets, ∃ s' ∈ k'.sockets, s'.ws = s.ws ∧ s'.userId = s.userId

theorem Delivery.Known.mono {k' : Worker π} {d : Delivery π} (h : d.Known k) (hcover : k.Covers k') :
    d.Known k' := by
  refine ⟨h.1, fun ws hws => ?_⟩
  obtain ⟨s, hs, heq, huser⟩ := h.2 ws hws
  obtain ⟨s', hs', heq', huser'⟩ := hcover s hs
  exact ⟨s', hs', heq'.trans heq, huser'.trans huser⟩

/-- A socket that heard the same, is waited for as before and is not held
unless it was. -/
theorem Follows.keep {channel' : List (Envelope π)} {k' : Worker π} {next : Nat} {s s' : Socket π}
    (h : Follows channel k next s) (hwait : s'.ws ∈ k'.waiting ↔ s.ws ∈ k.waiting)
    (hheld : k'.holds s' = true → k.holds s = true)
    (hheard : ∀ upto ≤ next, s.Heard channel upto → s'.Heard channel' upto) :
    Follows channel' k' next s' := by
  unfold Follows at h ⊢
  by_cases hw : s.ws ∈ k.waiting
  · rw [if_pos hw] at h
    rw [if_pos (hwait.mpr hw)]
    obtain ⟨before, rfl, hb⟩ := h
    exact ⟨before, rfl, hheard before (Nat.le_succ _) hb⟩
  · rw [if_neg hw] at h
    rw [if_neg (mt hwait.mp hw)]
    by_cases hh' : k'.holds s' = true
    · rw [if_pos (hheld hh')] at h
      rw [if_pos hh']
      exact hheard next (Nat.le_refl _) h
    · rw [if_neg hh']
      split at h
      · exact ⟨next, Nat.le_refl _, hheard next (Nat.le_refl _) h⟩
      · obtain ⟨upto, hle, hu⟩ := h
        exact ⟨upto, hle, hheard upto hle hu⟩

theorem follows_waiting {before : Nat} {s : Socket π} (hwait : s.ws ∈ k.waiting)
    (h : s.Heard channel before) : Follows channel k (before + 1) s := by
  unfold Follows
  rw [if_pos hwait]
  exact ⟨before, rfl, h⟩

theorem follows_held {next : Nat} {s : Socket π} (hwait : s.ws ∉ k.waiting)
    (hheld : k.holds s = true) (h : s.Heard channel next) : Follows channel k next s := by
  unfold Follows
  rw [if_neg hwait, if_pos hheld]
  exact h

theorem follows_dropped {next upto : Nat} {s : Socket π} (hwait : s.ws ∉ k.waiting)
    (hheld : ¬ k.holds s = true) (hle : upto ≤ next) (h : s.Heard channel upto) :
    Follows channel k next s := by
  unfold Follows
  rw [if_neg hwait, if_neg hheld]
  exact ⟨upto, hle, h⟩

/-- However far it was heard, it was heard up to somewhere. -/
theorem Follows.heard {next : Nat} {s : Socket π} (h : Follows channel k next s) :
    ∃ upto ≤ next, s.Heard channel upto := by
  unfold Follows at h
  split at h
  · obtain ⟨before, rfl, hb⟩ := h
    exact ⟨before, Nat.le_succ _, hb⟩
  · split at h
    · exact ⟨next, Nat.le_refl _, h⟩
    · exact h

/-! ## A longer channel -/

theorem Socket.Heard.grow {s : Socket π} {upto : Nat} (h : s.Heard channel upto)
    (hle : upto ≤ channel.length) (more : List (Envelope π)) : s.Heard (channel ++ more) upto :=
  ⟨h.1, by rw [block_append _ hle]; exact h.2⟩

theorem Worker.Reads.grow (h : k.Reads channel) (more : List (Envelope π)) :
    k.Reads (channel ++ more) := by
  have hlen : channel.length ≤ (channel ++ more).length := by simp
  unfold Worker.Reads at h ⊢
  split at h
  · exact ⟨h.1, fun s hs => ⟨Nat.le_trans (h.2 s hs).1 hlen, (h.2 s hs).2⟩⟩
  · obtain ⟨hnext, hcurrent, hsockets⟩ := h
    refine ⟨Nat.le_trans hnext hlen, fun d hd => ?_, fun s hs => ?_⟩
    · obtain ⟨before, hbefore, hmessage⟩ := hcurrent d hd
      exact ⟨before, hbefore, by rw [List.getElem?_append_left (by omega)]; exact hmessage⟩
    · exact (hsockets s hs).keep Iff.rfl id fun upto hle hu => hu.grow (Nat.le_trans hle hnext) more
  · refine ⟨h.1, fun s hs => ?_⟩
    obtain ⟨upto, hle, hu⟩ := h.2 s hs
    exact ⟨upto, Nat.le_trans hle hlen, hu.grow hle more⟩

/-- A message is published: no worker notices. -/
theorem Worker.Ok.grow (h : k.Ok channel) (more : List (Envelope π)) : k.Ok (channel ++ more) :=
  { h with reads := h.reads.grow more }

/-! ## Frames -/

/-- The socket of a `write` after it. -/
def Socket.sent (s : Socket π) (ws : Nat) (frame : Frame π) : Socket π :=
  if s.ws = ws then { s with frames := s.frames ++ [frame] } else s

@[simp] theorem Socket.sent_ws (s : Socket π) (ws : Nat) (frame : Frame π) :
    (s.sent ws frame).ws = s.ws := by
  unfold Socket.sent
  split <;> rfl

@[simp] theorem Socket.sent_userId (s : Socket π) (ws : Nat) (frame : Frame π) :
    (s.sent ws frame).userId = s.userId := by
  unfold Socket.sent
  split <;> rfl

@[simp] theorem Socket.sent_since (s : Socket π) (ws : Nat) (frame : Frame π) :
    (s.sent ws frame).since = s.since := by
  unfold Socket.sent
  split <;> rfl

@[simp] theorem Socket.sent_running (s : Socket π) (ws : Nat) (frame : Frame π) :
    (s.sent ws frame).running = s.running := by
  unfold Socket.sent
  split <;> rfl

theorem Worker.write_sockets (k : Worker π) (ws : Nat) (frame : Frame π) :
    (k.write ws frame).sockets = k.sockets.map (·.sent ws frame) := rfl

theorem Worker.write_covers (k : Worker π) (ws : Nat) (frame : Frame π) :
    k.Covers (k.write ws frame) := by
  intro s hs
  exact ⟨s.sent ws frame, List.mem_map_of_mem hs, by simp, by simp⟩

theorem Socket.relayed_sent (s : Socket π) (ws : Nat) (frame : Frame π) :
    (s.sent ws frame).relayed = s.relayed ++
      match frame with
      | .notification payload true => if s.ws = ws then [payload] else []
      | _ => [] := by
  unfold Socket.sent
  split
  · unfold Socket.relayed
    dsimp only
    rw [List.filterMap_append]
    cases frame with
    | notification payload relayed => cases relayed <;> simp [*]
    | connected => simp
    | pong => simp
  · cases frame with
    | notification payload relayed => cases relayed <;> simp [*]
    | connected => simp
    | pong => simp

theorem Socket.unrelayed_sent {s : Socket π} {ws : Nat} {frame : Frame π} {p : π}
    (h : p ∈ (s.sent ws frame).unrelayed) :
    p ∈ s.unrelayed ∨ (s.ws = ws ∧ frame = .notification p false) := by
  unfold Socket.sent at h
  split at h
  · rename_i hws
    unfold Socket.unrelayed at h ⊢
    dsimp only at h
    rw [List.filterMap_append, List.mem_append] at h
    refine h.imp_right fun h => ⟨hws, ?_⟩
    cases frame with
    | notification payload relayed => cases relayed <;> simp_all
    | connected => simp at h
    | pong => simp at h
  · exact .inl h

/-- The same socket as far as the channel goes. -/
def Socket.Same (s s' : Socket π) : Prop :=
  s'.ws = s.ws ∧ s'.userId = s.userId ∧ s'.since = s.since ∧ s'.relayed = s.relayed

theorem Socket.Heard.same {s s' : Socket π} {upto : Nat} (h : s.Heard channel upto)
    (hsame : s.Same s') : s'.Heard channel upto := by
  obtain ⟨-, huser, hsince, hrelayed⟩ := hsame
  unfold Socket.Heard
  rw [huser, hsince, hrelayed]
  exact h

/-- A frame that tells nothing that was published leaves what was heard. -/
theorem Socket.same_sent (s : Socket π) (ws : Nat) {frame : Frame π}
    (hframe : ∀ p, frame ≠ .notification p true) : s.Same (s.sent ws frame) := by
  refine ⟨by simp, by simp, by simp, ?_⟩
  rw [Socket.relayed_sent]
  cases frame with
  | notification payload relayed =>
    cases relayed with
    | true => exact absurd rfl (hframe payload)
    | false => simp
  | connected => simp
  | pong => simp

/-- A step that neither moves the listener nor relays anything. -/
theorem Worker.Reads.keep {k' : Worker π} (h : k.Reads channel) (hlistener : k'.listener = k.listener)
    (hcurrent : k'.current = k.current)
    (hsockets : ∀ s' ∈ k'.sockets, ∃ s ∈ k.sockets, s.Same s' ∧ (k'.holds s' = true → k.holds s = true)) :
    k'.Reads channel := by
  have hwaiting : k'.waiting = k.waiting := by
    unfold Worker.waiting
    rw [hcurrent]
  unfold Worker.Reads at h ⊢
  rw [hlistener, hcurrent]
  split at h
  · refine ⟨h.1, fun s' hs' => ?_⟩
    obtain ⟨s, hs, ⟨-, -, hsince, hrelayed⟩, -⟩ := hsockets s' hs'
    rw [hsince, hrelayed]
    exact h.2 s hs
  · obtain ⟨hnext, hmessage, hfollows⟩ := h
    refine ⟨hnext, hmessage, fun s' hs' => ?_⟩
    obtain ⟨s, hs, hsame, hheld⟩ := hsockets s' hs'
    exact (hfollows s hs).keep (by rw [hwaiting, hsame.1]) hheld fun upto _ hu => hu.same hsame
  · refine ⟨h.1, fun s' hs' => ?_⟩
    obtain ⟨s, hs, hsame, -⟩ := hsockets s' hs'
    obtain ⟨upto, hle, hu⟩ := h.2 s hs
    exact ⟨upto, hle, hu.same hsame⟩

theorem Worker.Sound.write (h : k.Sound) {ws : Nat} {frame : Frame π}
    (howed : ∀ p, frame = .notification p false →
      ∀ s ∈ k.sockets, s.ws = ws → ⟨s.userId, p⟩ ∈ k.unpublished) : (k.write ws frame).Sound := by
  have hcover := k.write_covers ws frame
  constructor
  · exact h.tidy
  · rw [Worker.write_sockets, List.map_map]
    exact (List.map_congr_left fun s _ => Socket.sent_ws s ws frame).symm ▸ h.ids
  · intro userId w hw
    obtain ⟨s, hs, rfl, huser, hrun⟩ := h.held userId w hw
    exact ⟨s.sent ws frame, List.mem_map_of_mem hs, by simp, by simpa using huser, by simpa using hrun⟩
  · exact fun d hd => (h.current d hd).mono hcover
  · exact fun d hd => ⟨(h.direct d hd).1.mono hcover, (h.direct d hd).2⟩
  · intro s' hs' p hp
    rw [Worker.write_sockets] at hs'
    obtain ⟨s, hs, rfl⟩ := List.mem_map.mp hs'
    rw [Socket.sent_userId]
    rcases Socket.unrelayed_sent hp with hp | ⟨hws, hframe⟩
    · exact h.unrelayed s hs p hp
    · exact howed p hframe s hs hws

/-- A frame of another kind than the relayed ones. -/
theorem Worker.Ok.write_other (h : k.Ok channel) {ws : Nat} {frame : Frame π}
    (hframe : ∀ p, frame ≠ .notification p true)
    (howed : ∀ p, frame = .notification p false →
      ∀ s ∈ k.sockets, s.ws = ws → ⟨s.userId, p⟩ ∈ k.unpublished) :
    (k.write ws frame).Ok channel := by
  refine ⟨h.toSound.write howed, h.reads.keep rfl rfl fun s' hs' => ?_⟩
  rw [Worker.write_sockets] at hs'
  obtain ⟨s, hs, rfl⟩ := List.mem_map.mp hs'
  refine ⟨s, hs, s.same_sent ws hframe, fun hheld => ?_⟩
  rw [Worker.holds_iff, Socket.sent_ws, Socket.sent_userId] at hheld
  exact Worker.holds_iff.mpr hheld

theorem Worker.Ok.reply (h : k.Ok channel) (ws : Nat) {frame : Frame π}
    (hframe : ∀ p r, frame ≠ .notification p r) : (k.reply ws frame).Ok channel := by
  unfold Worker.reply
  split
  · exact h.write_other (fun p => hframe p true) fun p heq => absurd heq (hframe p false)
  · exact h

/-! ## Sockets that go -/

/-- A socket is dropped from the dict, by its endpoint or by a send that
failed. -/
theorem Worker.Sound.drop (h : k.Sound) (userId ws : Nat) :
    ({ k with connections := k.connections.disconnect userId ws } : Worker π).Sound where
  tidy := h.tidy.disconnect userId ws
  ids := h.ids
  held := fun u w hw => h.held u w (Connections.mem_disconnect hw)
  current := h.current
  direct := h.direct
  unrelayed := h.unrelayed

theorem Worker.Ok.drop (h : k.Ok channel) (userId ws : Nat) :
    ({ k with connections := k.connections.disconnect userId ws } : Worker π).Ok channel := by
  refine ⟨h.toSound.drop userId ws, h.reads.keep rfl rfl fun s hs => ?_⟩
  refine ⟨s, hs, ⟨rfl, rfl, rfl, rfl⟩, fun hheld => ?_⟩
  rw [Worker.holds_iff] at hheld ⊢
  exact Connections.mem_disconnect hheld

/-- The endpoint of a socket returns. -/
theorem Worker.Ok.leave (h : k.Ok channel) (ws : Nat) : (k.act channel (.leave ws)).Ok channel := by
  dsimp only [Worker.act]
  split
  · rename_i s hfind
    obtain ⟨hs, rfl⟩ := Tables.find?_mem hfind
    split
    · have hdrop := h.drop s.userId s.ws
      have hcover : k.Covers { k with
          connections := k.connections.disconnect s.userId s.ws
          sockets := Tables.update (·.ws) k.sockets s.ws fun s => { s with running := false } } := by
        intro t ht
        refine ⟨_, List.mem_map_of_mem ht, ?_, ?_⟩ <;> split <;> rfl
      refine ⟨⟨?_, ?_, ?_, ?_, ?_, ?_⟩, ?_⟩
      · exact hdrop.tidy
      · have hids : (Tables.update (·.ws) k.sockets s.ws fun s => { s with running := false }).map
            (·.ws) = k.sockets.map (·.ws) := Tables.update_keys fun _ h => h
        dsimp only
        rw [hids]
        exact h.ids
      · intro userId w hw
        obtain ⟨t, ht, rfl, huser, hrun⟩ := hdrop.held userId w hw
        have hne : t.ws ≠ s.ws := by
          intro heq
          have := h.socket_eq ht hs heq
          subst this
          subst huser
          exact h.tidy.notMem_disconnect hw
        refine ⟨t, List.mem_map.mpr ⟨t, ht, if_neg hne⟩, rfl, huser, hrun⟩
      · exact fun d hd => (h.current d hd).mono hcover
      · exact fun d hd => ⟨(h.direct d hd).1.mono hcover, (h.direct d hd).2⟩
      · intro t' ht'
        rcases Tables.mem_update ht' with ⟨t, ht, -, rfl⟩ | ⟨ht, -⟩
        · exact h.unrelayed t ht
        · exact h.unrelayed t' ht
      · refine hdrop.reads.keep rfl rfl fun t' ht' => ?_
        rcases Tables.mem_update ht' with ⟨t, ht, -, rfl⟩ | ⟨ht, -⟩
        · exact ⟨t, ht, ⟨rfl, rfl, rfl, rfl⟩, id⟩
        · exact ⟨t', ht, ⟨rfl, rfl, rfl, rfl⟩, id⟩
    · exact h
  · exact h

/-! ## Sockets that come -/

theorem Worker.Ok.join (h : k.Ok channel) (ws userId : Nat) :
    (k.act channel (.join ws userId)).Ok channel := by
  dsimp only [Worker.act]
  split
  · exact h
  · rename_i hnew
    have hfresh : ∀ s ∈ k.sockets, s.ws ≠ ws := by
      intro s hs heq
      exact hnew (List.any_eq_true.mpr ⟨s, hs, by simpa using heq⟩)
    have hwaiting : ∀ d ∈ k.current, ws ∉ d.waiting := by
      intro d hd hmem
      obtain ⟨s, hs, heq, -⟩ := (h.current d hd).2 ws hmem
      exact hfresh s hs heq
    generalize hsince : k.place channel = since
    unfold Worker.place at hsince
    have hcover : k.Covers { k with
        connections := k.connections.connect userId ws
        sockets := k.sockets ++ [{ ws, userId, since }] } :=
      fun s hs => ⟨s, List.mem_append_left _ hs, rfl, rfl⟩
    have hold : ∀ s ∈ k.sockets, s.ws ∈ (k.connections.connect userId ws).socketsOf s.userId →
        s.ws ∈ k.connections.socketsOf s.userId := by
      intro s hs hmem
      rcases Connections.mem_connect.mp hmem with ⟨-, heq⟩ | hmem
      · exact absurd heq (hfresh s hs)
      · exact hmem
    refine ⟨⟨?_, ?_, ?_, ?_, ?_, ?_⟩, ?_⟩
    · exact h.tidy.connect userId ws
    · exact Tables.nodup_concat h.ids hfresh
    · intro u w hw
      rcases Connections.mem_connect.mp hw with ⟨rfl, rfl⟩ | hw
      · exact ⟨_, List.mem_append_right _ List.mem_cons_self, rfl, rfl, rfl⟩
      · obtain ⟨s, hs, hsame⟩ := h.held u w hw
        exact ⟨s, List.mem_append_left _ hs, hsame⟩
    · exact fun d hd => (h.current d hd).mono hcover
    · exact fun d hd => ⟨(h.direct d hd).1.mono hcover, (h.direct d hd).2⟩
    · intro s hs
      rcases List.mem_append.mp hs with hs | hs
      · exact h.unrelayed s hs
      · rw [List.mem_singleton.mp hs]
        exact fun p hp => by cases hp
    · have hreads := h.reads
      unfold Worker.Reads at hreads ⊢
      dsimp only
      split
      · rename_i hstarting
        rw [hstarting] at hreads hsince
        refine ⟨hreads.1, fun s hs => ?_⟩
        rcases List.mem_append.mp hs with hs | hs
        · exact hreads.2 s hs
        · rw [List.mem_singleton.mp hs]
          exact ⟨Nat.le_of_eq hsince.symm, rfl⟩
      · rename_i next hreading
        rw [hreading] at hreads hsince
        dsimp only at hreads hsince
        subst hsince
        refine ⟨hreads.1, hreads.2.1, fun s hs => ?_⟩
        rcases List.mem_append.mp hs with hs | hs
        · refine (hreads.2.2 s hs).keep Iff.rfl (fun hheld => ?_) fun _ _ hu => hu
          exact Worker.holds_iff.mpr (hold s hs (Worker.holds_iff.mp hheld))
        · rw [List.mem_singleton.mp hs]
          have hnot : ws ∉ k.waiting := by
            unfold Worker.waiting
            cases hcurrent : k.current with
            | none => simp
            | some d => simpa using hwaiting d hcurrent
          have hheld : ws ∈ (k.connections.connect userId ws).socketsOf userId :=
            Connections.mem_connect.mpr (.inl ⟨rfl, rfl⟩)
          exact follows_held hnot (Worker.holds_iff.mpr hheld)
            ⟨Nat.le_refl _, by simp [Socket.relayed, own]⟩
      · rename_i hended
        rw [hended] at hreads hsince
        refine ⟨hreads.1, fun s hs => ?_⟩
        rcases List.mem_append.mp hs with hs | hs
        · exact hreads.2 s hs
        · rw [List.mem_singleton.mp hs]
          refine ⟨since, Nat.le_of_eq hsince.symm, Nat.le_refl _, ?_⟩
          simp [Socket.relayed, own]

/-! ## The listener -/

theorem Worker.Ok.subscribe (h : k.Ok channel) : (k.act channel .subscribe).Ok channel := by
  dsimp only [Worker.act]
  split
  · rename_i hstarting
    have hreads := h.reads
    unfold Worker.Reads at hreads
    rw [hstarting] at hreads
    obtain ⟨hcurrent, hsilent⟩ := hreads
    have hcover : k.Covers { k with
        listener := .reading channel.length
        sockets := k.sockets.map fun s => { s with since := channel.length } } :=
      fun s hs => ⟨_, List.mem_map_of_mem hs, rfl, rfl⟩
    refine ⟨⟨?_, ?_, ?_, ?_, ?_, ?_⟩, ?_⟩
    · exact h.tidy
    · dsimp only
      rw [List.map_map]
      exact h.ids
    · intro userId ws hws
      obtain ⟨s, hs, hsame⟩ := h.held userId ws hws
      exact ⟨_, List.mem_map_of_mem hs, hsame⟩
    · exact fun d hd => (h.current d hd).mono hcover
    · exact fun d hd => ⟨(h.direct d hd).1.mono hcover, (h.direct d hd).2⟩
    · intro s' hs'
      obtain ⟨s, hs, rfl⟩ := List.mem_map.mp hs'
      exact h.unrelayed s hs
    · unfold Worker.Reads
      refine ⟨Nat.le_refl _, fun d hd => (by rw [hcurrent] at hd; cases hd), fun s' hs' => ?_⟩
      obtain ⟨s, hs, rfl⟩ := List.mem_map.mp hs'
      have hheard : ({ s with since := channel.length } : Socket π).Heard channel channel.length := by
        refine ⟨Nat.le_refl _, ?_⟩
        rw [block_self]
        exact (hsilent s hs).2
      have hnot : s.ws ∉ k.waiting := by
        unfold Worker.waiting
        rw [hcurrent]
        exact List.not_mem_nil
      by_cases hheld : k.holds s = true
      · exact follows_held hnot hheld hheard
      · exact follows_dropped hnot hheld (Nat.le_refl _) hheard
  · exact h

theorem Worker.Ok.stop (h : k.Ok channel) : (k.act channel .stop).Ok channel := by
  refine ⟨{ h.toSound with current := fun d hd => (by cases hd) }, rfl, fun s hs => ?_⟩
  have hreads := h.reads
  unfold Worker.Reads at hreads
  split at hreads
  · obtain ⟨hsince, hsilent⟩ := hreads.2 s hs
    exact ⟨s.since, hsince, Nat.le_refl _, by rw [hsilent, block_self]; rfl⟩
  · obtain ⟨upto, hle, hu⟩ := (hreads.2.2 s hs).heard
    exact ⟨upto, Nat.le_trans hle hreads.1, hu⟩
  · exact hreads.2 s hs

/-- One message further, for a socket of another user. -/
theorem Socket.Heard.pass {s : Socket π} {upto : Nat} {message : Envelope π}
    (h : s.Heard channel upto) (hmessage : channel[upto]? = some message)
    (hother : message.userId ≠ s.userId) : s.Heard channel (upto + 1) := by
  refine ⟨Nat.le_succ_of_le h.1, ?_⟩
  rw [block_succ hmessage h.1, own_concat, if_neg hother, List.append_nil]
  exact h.2

theorem Worker.Ok.take (h : k.Ok channel) (order : List Nat) :
    (k.act channel (.take order)).Ok channel := by
  dsimp only [Worker.act]
  split
  · rename_i next hreading
    split
    · rename_i message hmessage
      split
      · rename_i henabled
        obtain ⟨hidle, horder⟩ := henabled
        have hreads := h.reads
        unfold Worker.Reads at hreads
        rw [hreading] at hreads
        obtain ⟨-, -, hfollows⟩ := hreads
        have hnodup : order.Nodup := horder.nodup_iff.mpr (h.tidy.socketsOf_nodup _)
        refine ⟨{ h.toSound with current := ?_ }, ?_⟩
        · intro d hd
          cases hd
          refine ⟨hnodup, fun ws hws => ?_⟩
          obtain ⟨s, hs, heq, huser, -⟩ := h.held _ ws (horder.mem_iff.mp hws)
          exact ⟨s, hs, heq, huser⟩
        · refine ⟨(List.getElem?_eq_some_iff.mp hmessage).1, ?_, fun s hs => ?_⟩
          · intro d hd
            cases hd
            exact ⟨next, rfl, hmessage⟩
          · have hbefore := hfollows s hs
            by_cases hws : s.ws ∈ order
            · -- Its user is the message's, so it is held and goes on waiting for this message.
              obtain ⟨s', hs', heq, huser, -⟩ := h.held _ _ (horder.mem_iff.mp hws)
              rw [h.socket_eq hs' hs heq] at huser
              have hheld : k.holds s = true :=
                Worker.holds_iff.mpr (huser ▸ horder.mem_iff.mp hws)
              unfold Follows at hbefore
              rw [if_neg (by rw [hidle]; exact List.not_mem_nil), if_pos hheld] at hbefore
              exact follows_waiting hws hbefore
            · by_cases hheld : k.holds s = true
              · have hother : message.userId ≠ s.userId := by
                  intro heq
                  exact hws (horder.mem_iff.mpr (heq ▸ Worker.holds_iff.mp hheld))
                unfold Follows at hbefore
                rw [if_neg (by rw [hidle]; exact List.not_mem_nil), if_pos hheld] at hbefore
                exact follows_held hws hheld (hbefore.pass hmessage hother)
              · obtain ⟨upto, hle, hu⟩ := hbefore.heard
                exact follows_dropped hws hheld (Nat.le_succ_of_le hle) hu
      · exact h
    · exact h
  · exact h

/-- A turn of `deliver_local`, apart from what was heard. -/
theorem Worker.Sound.sendTo (h : k.Sound) (d : Delivery π) (ws : Nat) (delivered relayed : Bool)
    (howed : relayed = false →
      ∀ s ∈ k.sockets, s.ws = ws → ⟨s.userId, d.payload⟩ ∈ k.unpublished) :
    (k.sendTo d ws delivered relayed).Sound := by
  unfold Worker.sendTo
  split
  · exact h.write fun p hp s hs hws => by
      obtain ⟨rfl, rfl⟩ := Frame.notification.inj hp
      exact howed rfl s hs hws
  · exact h.drop d.userId ws

theorem Worker.sendTo_covers (k : Worker π) (d : Delivery π) (ws : Nat) (delivered relayed : Bool) :
    k.Covers (k.sendTo d ws delivered relayed) := by
  unfold Worker.sendTo
  split
  · exact k.write_covers ws _
  · exact fun s hs => ⟨s, hs, rfl, rfl⟩

/-- What a socket has heard after the listener's next send: the one it was for
stops waiting, the others are as they were. -/
theorem Follows.sendTo (hsound : k.Sound) {d : Delivery π} {ws : Nat} {rest : List Nat} {next : Nat}
    (hcurrent : k.current = some d) (hwaiting : d.waiting = ws :: rest)
    (hmessage : ∃ before, next = before + 1 ∧ channel[before]? = some ⟨d.userId, d.payload⟩)
    (delivered : Bool) {k' : Worker π}
    (hk' : k' = { k.sendTo d ws delivered true with current := some { d with waiting := rest } })
    (hfollows : ∀ s ∈ k.sockets, Follows channel k next s) :
    ∀ s' ∈ k'.sockets, Follows channel k' next s' := by
  have hknown := hsound.current d hcurrent
  have hwait : k.waiting = ws :: rest := by simp [Worker.waiting, hcurrent, hwaiting]
  have hwait' : k'.waiting = rest := by simp [hk', Worker.waiting]
  have hrest : ws ∉ rest := by
    have := hknown.1
    rw [hwaiting] at this
    exact (List.nodup_cons.mp this).1
  obtain ⟨before, rfl, hmessage⟩ := hmessage
  have hself : ∀ s ∈ k.sockets, s.ws = ws → s.userId = d.userId ∧ s.Heard channel before := by
    intro s hs hws
    have hmem : s.ws ∈ ws :: rest := hws ▸ List.mem_cons_self
    have hbefore := hfollows s hs
    unfold Follows at hbefore
    rw [hwait, if_pos hmem] at hbefore
    obtain ⟨b, hb, hheard⟩ := hbefore
    exact ⟨hknown.userId hsound hs (hwaiting ▸ hmem), Nat.succ.inj hb ▸ hheard⟩
  have hother : ∀ s ∈ k.sockets, s.ws ≠ ws → (k'.holds s = true → k.holds s = true) →
      Follows channel k' (before + 1) s := by
    intro s hs hne hheld
    refine (hfollows s hs).keep ?_ hheld fun _ _ hu => hu
    rw [hwait', hwait]
    simp [hne]
  cases delivered with
  | true =>
    have hconnections : k'.connections = k.connections := by rw [hk']; rfl
    have hholds : ∀ s : Socket π, k'.holds s = k.holds s := fun s => by
      unfold Worker.holds
      rw [hconnections]
    intro s' hs'
    have hs' : s' ∈ (k.write ws (.notification d.payload true)).sockets := by rw [hk'] at hs'; exact hs'
    rw [Worker.write_sockets] at hs'
    obtain ⟨s, hs, rfl⟩ := List.mem_map.mp hs'
    by_cases hws : s.ws = ws
    · obtain ⟨huser, hheard⟩ := hself s hs hws
      have hnow : (s.sent ws (.notification d.payload true)).Heard channel (before + 1) := by
        refine ⟨by simpa using Nat.le_succ_of_le hheard.1, ?_⟩
        rw [Socket.relayed_sent, Socket.sent_userId, Socket.sent_since, hheard.2,
          block_succ hmessage hheard.1, own_concat]
        simp [hws, huser]
      have hnot : (s.sent ws (.notification d.payload true)).ws ∉ k'.waiting := by
        rw [hwait', Socket.sent_ws, hws]
        exact hrest
      by_cases hheld : k'.holds (s.sent ws (.notification d.payload true)) = true
      · exact follows_held hnot hheld hnow
      · exact follows_dropped hnot hheld (Nat.le_refl _) hnow
    · have hsame : s.sent ws (.notification d.payload true) = s := by
        unfold Socket.sent
        rw [if_neg hws]
      rw [hsame]
      exact hother s hs hws (by rw [hholds]; exact id)
  | false =>
    have hconnections : k'.connections = k.connections.disconnect d.userId ws := by rw [hk']; rfl
    intro s hs
    have hs : s ∈ k.sockets := by rw [hk'] at hs; exact hs
    by_cases hws : s.ws = ws
    · obtain ⟨huser, hheard⟩ := hself s hs hws
      have hheld : ¬ k'.holds s = true := by
        rw [Worker.holds_iff, hconnections, hws, huser]
        exact hsound.tidy.notMem_disconnect
      exact follows_dropped (by rw [hwait', hws]; exact hrest) hheld (Nat.le_succ _) hheard
    · refine hother s hs hws fun hheld => ?_
      rw [Worker.holds_iff, hconnections] at hheld
      exact Worker.holds_iff.mpr (Connections.mem_disconnect hheld)

/-- The listener's next send. -/
theorem Worker.Ok.send (h : k.Ok channel) (delivered : Bool) :
    (k.act channel (.send delivered)).Ok channel := by
  dsimp only [Worker.act]
  split
  · rename_i d hcurrent
    split
    · rename_i ws rest hwaiting
      have hsound := h.toSound.sendTo d ws delivered true fun h => by cases h
      have hknown := ((h.current d hcurrent).tail hwaiting).mono (k.sendTo_covers d ws delivered true)
      refine ⟨{ hsound with current := fun d' hd' => ?_ }, ?_⟩
      · cases hd'
        exact hknown
      · have hreads := h.reads
        have hlistener : (k.sendTo d ws delivered true).listener = k.listener := by
          unfold Worker.sendTo
          split <;> rfl
        unfold Worker.Reads at hreads ⊢
        dsimp only
        rw [hlistener]
        split at hreads
        · rw [hreads.1] at hcurrent
          cases hcurrent
        · obtain ⟨hnext, hmessages, hfollows⟩ := hreads
          refine ⟨hnext, fun d' hd' => ?_, ?_⟩
          · cases hd'
            exact hmessages d hcurrent
          · exact Follows.sendTo h.toSound hcurrent hwaiting (hmessages d hcurrent) delivered rfl hfollows
        · rw [hreads.1] at hcurrent
          cases hcurrent
    · exact h
  · exact h

/-! ## Pushes that could not be published -/

/-- A turn of a delivery that has nothing to do with the channel. -/
theorem Worker.Ok.sendTo_unrelayed (h : k.Ok channel) {d : Delivery π} {ws : Nat} (delivered : Bool)
    (howed : ∀ s ∈ k.sockets, s.ws = ws → ⟨s.userId, d.payload⟩ ∈ k.unpublished) :
    (k.sendTo d ws delivered false).Ok channel := by
  unfold Worker.sendTo
  split
  · refine h.write_other (fun p hp => ?_) fun p hp s hs hws => ?_
    · cases hp
    · obtain ⟨rfl, -⟩ := Frame.notification.inj hp
      exact howed s hs hws
  · exact h.drop d.userId ws

theorem Worker.Ok.sendDirect (h : k.Ok channel) (i : Nat) (delivered : Bool) :
    (k.act channel (.sendDirect i delivered)).Ok channel := by
  dsimp only [Worker.act]
  split
  · rename_i d hdirect
    have hmem := List.mem_of_getElem? hdirect
    split
    · rename_i ws rest hwaiting
      obtain ⟨hknown, howed⟩ := h.direct d hmem
      have hok := h.sendTo_unrelayed (d := d) (k := k) delivered fun s hs hws => by
        have huser := hknown.userId h.toSound hs (s := s) (by rw [hwaiting]; exact hws ▸ List.mem_cons_self)
        exact huser ▸ howed
      have hunpublished : (k.sendTo d ws delivered false).unpublished = k.unpublished := by
        unfold Worker.sendTo
        split <;> rfl
      refine ⟨{ hok.toSound with direct := fun d' hd' => ?_ }, hok.reads⟩
      have hcover := k.sendTo_covers d ws delivered false
      dsimp only at hd' ⊢
      rw [hunpublished]
      rcases List.mem_or_eq_of_mem_set hd' with hd' | rfl
      · exact ⟨(h.direct d' hd').1.mono hcover, (h.direct d' hd').2⟩
      · exact ⟨(hknown.tail hwaiting).mono hcover, howed⟩
    · exact h
  · exact h

theorem Worker.Ok.deliverLocal (h : k.Ok channel) (userId : Nat) (payload : π) (order : List Nat) :
    (k.deliverLocal userId payload order).Ok channel := by
  unfold Worker.deliverLocal
  split
  · rename_i horder
    refine ⟨{ h.toSound with direct := fun d hd => ?_, unrelayed := fun s hs p hp => ?_ }, h.reads⟩
    · rcases List.mem_append.mp hd with hd | hd
      · exact ⟨(h.direct d hd).1, List.mem_append_left _ (h.direct d hd).2⟩
      · rw [List.mem_singleton.mp hd]
        refine ⟨⟨horder.nodup_iff.mpr (h.tidy.socketsOf_nodup userId), fun ws hws => ?_⟩, ?_⟩
        · obtain ⟨s, hs, heq, huser, -⟩ := h.held userId ws (horder.mem_iff.mp hws)
          exact ⟨s, hs, heq, huser⟩
        · exact List.mem_append_right _ List.mem_cons_self
    · exact List.mem_append_left _ (h.unrelayed s hs p hp)
  · exact h

/-! ## Runs -/

/-- One step of a worker. -/
theorem Worker.Ok.act (h : k.Ok channel) (a : Act) : (k.act channel a).Ok channel := by
  cases a with
  | subscribe => exact h.subscribe
  | stop => exact h.stop
  | join ws userId => exact h.join ws userId
  | greet ws => exact h.reply ws fun p r hp => by cases hp
  | ping ws => exact h.reply ws fun p r hp => by cases hp
  | leave ws => exact h.leave ws
  | take order => exact h.take order
  | send delivered => exact h.send delivered
  | sendDirect i delivered => exact h.sendDirect i delivered

end Steps

/-- Every worker is as it should be. -/
def Cluster.Ok (c : Cluster π) : Prop := ∀ i, (c.workers i).Ok c.channel

theorem Cluster.Ok.step {c : Cluster π} (h : c.Ok) (e : Event π) : (c.step e).Ok := by
  cases e with
  | act i a =>
    intro j
    by_cases heq : j = i
    · subst heq
      simpa [Cluster.step] using (h j).act a
    · simpa [Cluster.step, heq] using h j
  | push i userId payload published order =>
    intro j
    cases published with
    | true => simpa [Cluster.step] using (h j).grow [{ userId, payload }]
    | false =>
      by_cases heq : j = i
      · subst heq
        simpa [Cluster.step] using (h j).deliverLocal userId payload order
      · simpa [Cluster.step, heq] using h j

theorem Cluster.idle_ok : (Cluster.idle : Cluster π).Ok := by
  intro i
  refine ⟨⟨⟨List.nodup_nil, ?_⟩, List.nodup_nil, ?_, ?_, ?_, ?_⟩, rfl, ?_⟩ <;>
    simp [Cluster.idle, Connections.socketsOf]

theorem Cluster.ok_run (events : List (Event π)) : (run Cluster.step .idle events).Ok :=
  run_invariant (fun _ e h => h.step e) Cluster.idle_ok events

/-- What a socket was sent through the channel is one block of the channel,
cut down to the messages for its user. It begins where the socket joined, or
where the listener of its worker subscribed if that came later, and while the
socket is held and not waiting it ends where the listener is. What it was sent
besides was pushed for its user too. -/
theorem sockets_hear_their_user (events : List (Event π)) (i : Nat) :
    let c := run Cluster.step .idle events
    ∀ s ∈ (c.workers i).sockets,
      (∃ upto ≤ c.channel.length, s.relayed = own s.userId (block c.channel s.since upto)) ∧
      (∀ next, (c.workers i).listener = .reading next → (c.workers i).holds s = true →
        s.ws ∉ (c.workers i).waiting →
          s.relayed = own s.userId (block c.channel s.since next)) ∧
      ∀ p ∈ s.unrelayed, ⟨s.userId, p⟩ ∈ (c.workers i).unpublished := by
  intro c s hs
  have hok := Cluster.ok_run events i
  have hreads := hok.reads
  refine ⟨?_, fun next hreading hheld hwait => ?_, hok.unrelayed s hs⟩
  · unfold Worker.Reads at hreads
    split at hreads
    · exact ⟨s.since, (hreads.2 s hs).1, by rw [(hreads.2 s hs).2, block_self]; rfl⟩
    · obtain ⟨upto, hle, hu⟩ := (hreads.2.2 s hs).heard
      exact ⟨upto, Nat.le_trans hle hreads.1, hu.2⟩
    · obtain ⟨upto, hle, hu⟩ := hreads.2 s hs
      exact ⟨upto, hle, hu.2⟩
  · unfold Worker.Reads at hreads
    rw [hreading] at hreads
    have hfollows := hreads.2.2 s hs
    unfold Follows at hfollows
    rw [if_neg hwait, if_pos hheld] at hfollows
    exact hfollows.2

/-- The dict of a worker has one entry for each user with a socket and no
other, and what it holds are sockets whose endpoint is still running, each
under the user it was authenticated as. -/
theorem connections_are_running (events : List (Event π)) (i : Nat) :
    let k := (run Cluster.step .idle events).workers i
    (k.connections.map Prod.fst).Nodup ∧
      ∀ e ∈ k.connections, e.2 ≠ [] ∧ e.2.Nodup ∧
        ∀ ws ∈ e.2, ∃ s ∈ k.sockets, s.ws = ws ∧ s.userId = e.1 ∧ s.running = true := by
  intro k
  have hok := Cluster.ok_run events i
  refine ⟨hok.tidy.keys, fun e he => ⟨(hok.tidy.entries e he).1, (hok.tidy.entries e he).2, ?_⟩⟩
  intro ws hws
  exact hok.held e.1 ws ((hok.tidy.socketsOf_entry he).symm ▸ hws)

end Royd.Realtime
