/-
Royd.Auth.SocketAccess — whom the notification socket lets in.

`_authenticate` looks at the type of the token, its subject and its session, and
so does `get_current_user`, which then looks at the account as well. So the two
agree on every token exactly if every account with a live token is active
(`agrees_iff`).

That holds throughout a run in which no account is deactivated while it is in
use: while a token of it is live, or a call under way has found it active and may
still sign one. The invariant is about sessions. A token goes live again when its
session is touched, and a call touches only sessions of users it has found
active; so a session has one user, whoever draws, opens or refreshes it.
-/
import Royd.Auth.Administrators
import Royd.Auth.Atomic
import Royd.Auth.Sightings
import Royd.Lib.Tables

namespace Royd.Auth

open ExpiringStore Programs Runs

/-! ## The two paths -/

/-- The user a socket is opened for. -/
def socketUser (s : Server) (token : Option Token) : Option Nat :=
  match ((socket token).atomically s).1 with
  | .ok (.connected userId) => some userId
  | _ => none

/-- The user an API call is served for. -/
def apiUser (cfg : Settings) (s : Server) (token : Option Token) : Option Nat :=
  match ((getCurrentUser cfg token).atomically s).1 with
  | .ok user => some user.id
  | .error _ => none

namespace Server

/-- There is such an account, and it is active. -/
def isActive (s : Server) (id : Nat) : Bool := (s.activeUser id).isSome

/-- The socket lets in whom the API lets in. -/
def Agrees (cfg : Settings) (s : Server) : Prop :=
  ∀ token userId, socketUser s token = some userId ↔ apiUser cfg s token = some userId

end Server

section Paths

variable {cfg : Settings} {s : Server} {t : Token}

theorem socketUser_some (s : Server) (t : Token) :
    socketUser s (some t) = if s.live t then some t.sub else none := by
  unfold socketUser
  rw [socket_atomically]
  cases s.live t with
  | false => rfl
  | true => rfl

theorem apiUser_some (cfg : Settings) (s : Server) (t : Token) :
    apiUser cfg s (some t) = if s.live t && s.isActive t.sub then some t.sub else none := by
  unfold apiUser
  cases haccepted : ((getCurrentUser cfg (some t)).atomically s).1 with
  | ok user =>
    obtain ⟨hlive, huser⟩ := getCurrentUser_eq_ok.mp haccepted
    simp [hlive, Server.isActive, huser, activeUser_id huser]
  | error e =>
    have hrefused : ¬ (s.live t = true ∧ s.isActive t.sub = true) := by
      rintro ⟨hlive, hactive⟩
      obtain ⟨user, huser⟩ := Option.isSome_iff_exists.mp hactive
      cases haccepted.symm.trans (getCurrentUser_eq_ok.mpr ⟨hlive, huser⟩)
    simpa using hrefused

/-- The two paths agree exactly if every account with a live token is active. -/
theorem agrees_iff : s.Agrees cfg ↔ ∀ t, s.live t = true → s.isActive t.sub = true := by
  constructor
  · intro h t hlive
    have hsocket : socketUser s (some t) = some t.sub := by simp [socketUser_some, hlive]
    have hapi := (h (some t) t.sub).mp hsocket
    rw [apiUser_some, hlive, Bool.true_and] at hapi
    by_contra hinactive
    rw [if_neg hinactive] at hapi
    cases hapi
  · intro h token userId
    cases token with
    | none =>
      have hsocket : socketUser s none = none := rfl
      have hapi : apiUser cfg s none = none := rfl
      rw [hsocket, hapi]
    | some t =>
      rw [socketUser_some, apiUser_some]
      cases hlive : s.live t with
      | false => simp
      | true => simp [h t hlive]

end Paths

/-! ## What one command does -/

section Commands

variable {s : Server} {c : Command} {q : Sight} {t : Token} {id n : Nat}

/-- The account a command deactivates. -/
def Command.deactivated (s : Server) : Command → Option Nat
  | .commitUser loaded left =>
    if deactivates loaded left && !emailTaken s.users loaded left then some loaded.id else none
  | _ => none

theorem deactivated_eq_some (h : c.deactivated s = some id) :
    ∃ loaded left, c = .commitUser loaded left ∧ loaded.id = id ∧
      deactivates loaded left = true ∧ emailTaken s.users loaded left = false := by
  cases c with
  | commitUser loaded left =>
    simp only [Command.deactivated] at h
    split at h
    · rename_i hboth
      obtain ⟨hdeactivates, htaken⟩ := Bool.and_eq_true_iff.mp hboth
      exact ⟨loaded, left, rfl, Option.some.inj h, hdeactivates, by simpa using htaken⟩
    · cases h
  | _ => cases h

/-- A key that is there was there, or the command writes it. -/
theorem has_exec {k : Key} (h : (exec c s).2.has k = true) : s.has k = true ∨ c.Writes k := by
  obtain ⟨e, he, rfl, hnow⟩ := contains_iff.mp h
  rcases mem_redis_exec he with hold | hwrites
  · exact .inl (contains_iff.mpr ⟨e, hold, rfl, Int.le_trans (grows_exec c s).time hnow⟩)
  · exact .inr hwrites

/-- A token that is live was live, or is signed, or its session is touched. -/
theorem live_exec (h : (exec c s).2.live t = true) :
    s.live t = true ∨ (∃ sub sid ttl, c = .mint .access sub sid ttl ∧ t.sub = sub) ∨
      ∃ n, t ∈ s.issued ∧ t.sid = some n ∧ c.Writes (.sessionSeen n) := by
  obtain ⟨hdecodes, htype, hsub, hsession⟩ := live_iff.mp h
  rcases mem_issued_exec (mem_of_decodes hdecodes) with hold | ⟨type, sub, sid, ttl, rfl, rfl⟩
  · have hunexpired : s.now < t.exp := by
      have hlater : (exec c s).2.now < t.exp := by simpa using (Bool.and_eq_true_iff.mp hdecodes).2
      have htime := (grows_exec c s).time
      omega
    have hbefore : s.decodes t = true := by simp [Server.decodes, hold, hunexpired]
    cases hsid : t.sid with
    | none => exact .inl (live_iff.mpr ⟨hbefore, htype, hsub, by rw [hsid]; rfl⟩)
    | some n =>
      rw [hsid] at hsession
      rcases has_exec hsession with hhas | hwrites
      · exact .inl (live_iff.mpr ⟨hbefore, htype, hsub, by rw [hsid]; exact hhas⟩)
      · exact .inr (.inr ⟨n, hold, rfl, hwrites⟩)
  · cases htype
    exact .inr (.inl ⟨sub, sid, ttl, rfl, rfl⟩)

theorem isActive_iff : s.isActive id = true ↔
    ∃ u, s.users.find? (·.id == id) = some u ∧ u.isActive = true := by
  simp [Server.isActive, Server.activeUser, Option.any_eq_true]

/-- What is found in the table after a change of one row. -/
theorem find?_updateUsers (users : List User) (loaded left : User) :
    (updateUsers users loaded left).find? (·.id == id) = (users.find? (·.id == id)).map fun u =>
      if u.id = loaded.id then writeColumns u loaded left else u :=
  Tables.find?_update fun _ h => h

/-- An account that is active stays so, unless the command deactivates it. -/
theorem isActive_exec (h : s.isActive id = true) (hspared : id ∉ c.deactivated s) :
    (exec c s).2.isActive id = true := by
  obtain ⟨u, hfind, hactive⟩ := isActive_iff.mp h
  cases c with
  | commitUser loaded left =>
    simp only [exec]
    split
    · exact h
    · rename_i htaken
      refine isActive_iff.mpr ⟨_, (find?_updateUsers s.users loaded left).trans
        (congrArg (Option.map _) hfind), ?_⟩
      dsimp only
      split
      · rename_i hid
        have huid : u.id = id := by simpa using List.find?_some hfind
        have hkeeps : deactivates loaded left = false := by
          by_contra hdeactivates
          refine hspared ?_
          simp [Command.deactivated, hdeactivates, htaken, ← hid, huid]
        simp only [writeColumns, column]
        split
        · exact hactive
        · rename_i hchanged
          simpa [deactivates, hchanged] using hkeeps
      · exact hactive
  | _ =>
    refine isActive_iff.mpr ⟨u, ?_, hactive⟩
    rw [users_exec (by simp)]
    exact hfind

end Commands

/-! ## Sessions and their users -/

/-- A session has one user, and every account with a live token is active. -/
structure Server.Tidy (s : Server) : Prop where
  ids : (s.users.map (·.id)).Nodup
  sid_lt : ∀ t ∈ s.issued, ∀ n, t.sid = some n → n < s.nextSecret
  owner : ∀ t ∈ s.issued, ∀ t' ∈ s.issued, ∀ n, t.sid = some n → t'.sid = some n → t.sub = t'.sub
  active : ∀ t, s.live t = true → s.isActive t.sub = true

/-- A server that has issued no token. -/
theorem tidy_unused {s : Server} (hids : (s.users.map (·.id)).Nodup) (hissued : s.issued = []) :
    s.Tidy where
  ids := hids
  sid_lt := by simp [hissued]
  owner := by simp [hissued]
  active := by
    intro t hlive
    have hmem := mem_of_decodes (live_iff.mp hlive).1
    rw [hissued] at hmem
    cases hmem

namespace Sight

/-- What a call has seen is there: no token is in a session it has only drawn, and
every token of one it has opened is of the user it was opened for. -/
structure Wf (q : Sight) (s : Server) : Prop where
  decoded : ∀ t ∈ q.decoded, t ∈ s.issued
  drawn_lt : ∀ n ∈ q.drawn, n < s.nextSecret
  drawn : ∀ n ∈ q.drawn, ∀ t ∈ s.issued, t.sid ≠ some n
  opened : ∀ e ∈ q.opened, ∃ t ∈ s.issued, t.sid = some e.1
  owner : ∀ e ∈ q.opened, ∀ t ∈ s.issued, t.sid = some e.1 → t.sub = e.2

theorem wf_empty (s : Server) : Wf {} s where
  decoded := by simp
  drawn_lt := by simp
  drawn := by simp
  opened := by simp
  owner := by simp

variable {q q' : Sight} {s : Server} {c : Command} {n userId : Nat}

/-- The tokens of the session are the user's. -/
theorem Owns.sub (h : q.Owns n userId) (hq : q.Wf s) (hs : s.Tidy) :
    ∀ t ∈ s.issued, t.sid = some n → t.sub = userId := by
  intro t ht hsid
  rcases h with hdrawn | hopened | ⟨t', hdecoded, hsid', rfl⟩
  · exact absurd hsid (hq.drawn n hdrawn t ht)
  · exact hq.owner _ hopened t ht hsid
  · exact hs.owner t ht t' (hq.decoded t' hdecoded) n hsid hsid'

theorem Owns.lt (h : q.Owns n userId) (hq : q.Wf s) (hs : s.Tidy) : n < s.nextSecret := by
  rcases h with hdrawn | hopened | ⟨t, hdecoded, hsid, -⟩
  · exact hq.drawn_lt n hdrawn
  · obtain ⟨t, ht, hsid⟩ := hq.opened _ hopened
    exact hs.sid_lt t ht n hsid
  · exact hs.sid_lt t (hq.decoded t hdecoded) n hsid

/-- Another call has not drawn the session. -/
theorem Owns.notMem (h : q.Owns n userId) (hq : q.Wf s) (hq' : q'.Wf s)
    (hapart : ∀ n ∈ q.drawn, n ∉ q'.drawn) : n ∉ q'.drawn := by
  intro hdrawn'
  rcases h with hdrawn | hopened | ⟨t, hdecoded, hsid, -⟩
  · exact hapart n hdrawn hdrawn'
  · obtain ⟨t, ht, hsid⟩ := hq.opened _ hopened
    exact hq'.drawn n hdrawn' t ht hsid
  · exact hq'.drawn n hdrawn' t (hq.decoded t hdecoded) hsid

/-- A token is signed for a session its sender takes for the user's. -/
theorem Allows.mint {type : TokenType} {sub : Nat} {sid : Option Nat} {ttl : Int}
    (h : q.Allows (.mint type sub sid ttl)) : ∀ n, sid = some n → q.Owns n sub := by
  intro n hn
  cases type with
  | access =>
    obtain ⟨-, n', rfl, howns⟩ := h
    cases hn
    exact howns
  | refresh =>
    obtain ⟨n', rfl, howns⟩ := h
    cases hn
    exact howns
  | mfa => cases Eq.trans (Eq.symm h) hn

/-- A session is touched for a user who was found active. -/
theorem Allows.touch (h : q.Allows c) (hwrites : c.Writes (.sessionSeen n)) :
    c.deactivated s = none ∧ ∃ userId ∈ q.active, q.Owns n userId := by
  cases c with
  | setex k ttl v => exact ⟨rfl, h n hwrites⟩
  | setNx k ttl =>
    cases hwrites
    cases h
  | incrExpire ks ttl => cases h _ hwrites
  | _ => cases hwrites

/-- The tokens and the random values that are there decide. -/
theorem Wf.grows {s' : Server} (hq : q.Wf s) (hissued : s'.issued = s.issued)
    (hsecret : s.nextSecret ≤ s'.nextSecret) : q.Wf s' where
  decoded := hissued ▸ hq.decoded
  drawn_lt := fun n hn => Nat.lt_of_lt_of_le (hq.drawn_lt n hn) hsecret
  drawn := hissued ▸ hq.drawn
  opened := hissued ▸ hq.opened
  owner := hissued ▸ hq.owner

/-- A token is signed in a session that the call has not just drawn, and that has no
other user. -/
theorem Wf.sign {type : TokenType} {sub : Nat} {sid : Option Nat} {ttl : Int} (hq : q.Wf s)
    (hundrawn : ∀ n, sid = some n → n ∉ q.drawn)
    (hsub : ∀ n, sid = some n → ∀ t ∈ s.issued, t.sid = some n → t.sub = sub) :
    q.Wf (s.sign (s.newToken type sub sid ttl)) where
  decoded := fun t ht => List.mem_cons_of_mem _ (hq.decoded t ht)
  drawn_lt := fun n hn => Nat.lt_succ_of_lt (hq.drawn_lt n hn)
  drawn := by
    intro n hn t ht hsid
    rcases List.mem_cons.mp ht with rfl | ht
    · exact hundrawn n hsid hn
    · exact hq.drawn n hn t ht hsid
  opened := by
    intro e he
    obtain ⟨t, ht, hsid⟩ := hq.opened e he
    exact ⟨t, List.mem_cons_of_mem _ ht, hsid⟩
  owner := by
    intro e he t ht hsid
    rcases List.mem_cons.mp ht with rfl | ht
    · obtain ⟨t', ht', hsid'⟩ := hq.opened e he
      exact (hsub e.1 hsid t' ht' hsid').symm.trans (hq.owner e he t' ht' hsid')
    · exact hq.owner e he t ht hsid

/-- A session is opened by the token that is signed in it. -/
theorem Wf.opens {type : TokenType} {sub : Nat} {ttl : Int} (hq : q.Wf s) (hs : s.Tidy)
    (howns : q.Owns n sub) : (q.opens n sub).Wf (s.sign (s.newToken type sub (some n) ttl)) := by
  unfold Sight.opens
  split
  · -- The session was only drawn so far: the new token is the first in it.
    rename_i hdrawn
    have hnone : ∀ t ∈ s.issued, t.sid ≠ some n := hq.drawn n hdrawn
    have hrest : Wf { q with drawn := q.drawn.filter (· ≠ n) } s :=
      { hq with
        drawn_lt := fun m hm => hq.drawn_lt m (List.mem_filter.mp hm).1
        drawn := fun m hm => hq.drawn m (List.mem_filter.mp hm).1 }
    have hsigned : Wf { q with drawn := q.drawn.filter (· ≠ n) }
        (s.sign (s.newToken type sub (some n) ttl)) := by
      refine hrest.sign (fun m hm => ?_) fun m hm t ht hsid => ?_
      · cases hm
        simp
      · exact absurd (hsid.trans hm.symm) (hnone t ht)
    refine { hsigned with opened := fun e he => ?_, owner := fun e he t ht hsid => ?_ }
    · rcases List.mem_cons.mp he with rfl | he
      · exact ⟨_, List.mem_cons_self, rfl⟩
      · exact hsigned.opened e he
    · rcases List.mem_cons.mp he with rfl | he
      · rcases List.mem_cons.mp ht with rfl | ht
        · rfl
        · exact absurd hsid (hnone t ht)
      · exact hsigned.owner e he t ht hsid
  · rename_i hundrawn
    refine hq.sign (fun m hm => ?_) fun m hm => ?_
    · cases hm
      exact hundrawn
    · cases hm
      exact howns.sub hq hs

/-- What the sender has seen. -/
theorem Wf.note (hq : q.Wf s) (hs : s.Tidy) (h : q.Allows c) :
    (q.note c (exec c s).1).Wf (exec c s).2 := by
  cases c with
  | mint type sub sid ttl =>
    cases sid with
    | none => exact hq.sign (fun n hn => by cases hn) fun n hn => by cases hn
    | some n => exact hq.opens hs (h.mint n rfl)
  | decode t =>
    change (q.note (.decode t) (s.decodes t)).Wf s
    cases hok : s.decodes t with
    | true =>
      have ht := mem_of_decodes hok
      exact { hq with
        decoded := fun t' ht' => (List.mem_cons.mp ht').elim (fun h => h ▸ ht) (hq.decoded t') }
    | false => exact hq
  | secret =>
    have hgrown : q.Wf (exec .secret s).2 := hq.grows rfl (Nat.le_succ _)
    refine { hgrown with drawn_lt := fun n hn => ?_, drawn := fun n hn t ht => ?_ }
    · rcases List.mem_cons.mp hn with rfl | hn
      · exact Nat.lt_succ_self _
      · exact hgrown.drawn_lt n hn
    · rcases List.mem_cons.mp hn with rfl | hn
      · exact fun hsid => absurd (hs.sid_lt t ht _ hsid) (Nat.lt_irrefl _)
      · exact hgrown.drawn n hn t ht
  | commitUser loaded left =>
    have hgrown : q.Wf (exec (.commitUser loaded left) s).2 :=
      hq.grows (issued_exec (by simp)) (grows_exec _ s).secrets
    simp only [Sight.note]
    split
    · exact { hgrown with }
    · exact hgrown
  | selectUser id => exact { hq with }
  | selectUsers p =>
    change (q.note (.selectUsers p) (s.users.filter p)).Wf s
    rcases q.note_selectUsers p (s.users.filter p) with heq | ⟨u, -, heq⟩
    · rw [heq]
      exact hq
    · rw [heq]
      exact { hq with }
  | _ => exact hq.grows (issued_exec (by simp)) (grows_exec _ s).secrets

/-- What another call has seen. -/
theorem Wf.other (hq' : q'.Wf s) (hq : q.Wf s) (hs : s.Tidy) (h : q.Allows c)
    (hapart : ∀ n ∈ q.drawn, n ∉ q'.drawn) : q'.Wf (exec c s).2 := by
  by_cases hmint : ∃ type sub sid ttl, c = .mint type sub sid ttl
  · obtain ⟨type, sub, sid, ttl, rfl⟩ := hmint
    refine hq'.sign (fun n hn => ?_) fun n hn => ?_
    · exact (h.mint n hn).notMem hq hq' hapart
    · exact (h.mint n hn).sub hq hs
  · refine hq'.grows (issued_exec fun type sub sid ttl heq => ?_) (grows_exec c s).secrets
    exact hmint ⟨type, sub, sid, ttl, heq⟩

/-- A call draws new values only. -/
theorem mem_drawn_note (h : n ∈ (q.note c (exec c s).1).drawn) :
    n ∈ q.drawn ∨ (c = .secret ∧ n = s.nextSecret) := by
  cases c with
  | mint type sub sid ttl =>
    cases sid with
    | none => exact .inl h
    | some m =>
      simp only [Sight.note, Sight.opens] at h
      split at h
      · exact .inl (List.mem_filter.mp h).1
      · exact .inl h
  | decode t =>
    simp only [Sight.note] at h
    split at h
    · exact .inl h
    · exact .inl h
  | secret =>
    rcases List.mem_cons.mp h with rfl | h
    · exact .inr ⟨rfl, rfl⟩
    · exact .inl h
  | commitUser loaded left =>
    simp only [Sight.note] at h
    split at h
    · exact .inl h
    · exact .inl h
  | selectUsers p =>
    change n ∈ (q.note (.selectUsers p) (s.users.filter p)).drawn at h
    rcases q.note_selectUsers p (s.users.filter p) with heq | ⟨u, -, heq⟩
    · exact .inl (heq ▸ h)
    · rw [heq] at h
      exact .inl h
  | _ => exact .inl h

theorem mem_found_iff {row : Option User} {id : Nat} : id ∈ (q.found row).active ↔
    (∃ u, row = some u ∧ u.isActive = true ∧ u.id = id) ∨ id ∈ q.active := by
  simp only [found, List.mem_append, List.mem_map, List.mem_filter, Option.mem_toList,
    and_assoc]

/-- What the sender's change of a row does to what it has found. -/
theorem mem_commit_note {loaded left : User} {id : Nat}
    (h : id ∈ (q.note (.commitUser loaded left) (exec (.commitUser loaded left) s).1).active) :
    id ∈ q.active ∧ id ∉ Command.deactivated s (.commitUser loaded left) := by
  have hsaved : (exec (.commitUser loaded left) s).1 = !emailTaken s.users loaded left := by
    simp only [exec]
    split
    · rename_i htaken
      rw [htaken]
      rfl
    · rename_i htaken
      simp [htaken]
  rw [hsaved] at h
  simp only [Sight.note] at h
  split at h
  · obtain ⟨hmem, hne⟩ := List.mem_filter.mp h
    refine ⟨hmem, fun hdeactivated => ?_⟩
    obtain ⟨_, _, heq, rfl, -, -⟩ := deactivated_eq_some hdeactivated
    cases heq
    simp at hne
  · rename_i hkept
    refine ⟨h, fun hdeactivated => hkept ?_⟩
    obtain ⟨_, _, heq, -, hdeactivates, htaken⟩ := deactivated_eq_some hdeactivated
    cases heq
    rw [hdeactivates, htaken]
    rfl

/-- The accounts the sender has found active are. -/
theorem active_note (hs : s.Tidy) (hactive : ∀ id ∈ q.active, s.isActive id = true) :
    ∀ id ∈ (q.note c (exec c s).1).active, (exec c s).2.isActive id = true := by
  intro id hid
  cases c with
  | selectUser i =>
    rcases mem_found_iff.mp hid with ⟨u, hfind, huser, rfl⟩ | hid
    · have hsame : u.id = i := by simpa using List.find?_some hfind
      exact isActive_iff.mpr ⟨u, hsame ▸ hfind, huser⟩
    · exact hactive id hid
  | selectUsers p =>
    change id ∈ (q.note (.selectUsers p) (s.users.filter p)).active at hid
    change s.isActive id = true
    rcases q.note_selectUsers p (s.users.filter p) with heq | ⟨u, hrows, heq⟩
    · exact hactive id (heq ▸ hid)
    · rw [heq] at hid
      rcases mem_found_iff.mp hid with ⟨u', heq, huser, rfl⟩ | hid
      · cases heq
        have hmem : u ∈ s.users := (List.mem_filter.mp (hrows ▸ List.mem_singleton_self u)).1
        exact isActive_iff.mpr ⟨u, Tables.find?_of_mem hs.ids hmem, huser⟩
      · exact hactive id hid
  | commitUser loaded left =>
    obtain ⟨hold, hspared⟩ := mem_commit_note hid
    exact isActive_exec (hactive id hold) hspared
  | mint type sub sid ttl =>
    cases sid with
    | none => exact hactive id hid
    | some n =>
      simp only [Sight.note, Sight.opens] at hid
      split at hid
      · exact hactive id hid
      · exact hactive id hid
  | decode t =>
    simp only [Sight.note] at hid
    split at hid
    · exact hactive id hid
    · exact hactive id hid
  | _ => exact isActive_exec (hactive id hid) (by simp [Command.deactivated])

end Sight

/-- Every allowed command keeps it, unless it deactivates an account with a live
token. -/
theorem Server.Tidy.exec {s : Server} {q : Sight} {c : Command} (hs : s.Tidy) (hq : q.Wf s)
    (hactive : ∀ id ∈ q.active, s.isActive id = true) (h : q.Allows c)
    (hspared : ∀ t, s.live t = true → t.sub ∉ c.deactivated s) : (exec c s).2.Tidy where
  ids := by
    cases c with
    | commitUser loaded left =>
      simp only [Auth.exec]
      split
      · exact hs.ids
      · have hkeys : (updateUsers s.users loaded left).map (·.id) = s.users.map (·.id) :=
          Tables.update_keys fun _ h => h
        rw [hkeys]
        exact hs.ids
    | _ =>
      rw [users_exec (by simp)]
      exact hs.ids
  sid_lt := by
    intro t ht n hsid
    refine Nat.lt_of_lt_of_le ?_ (grows_exec c s).secrets
    rcases mem_issued_exec ht with hold | ⟨type, sub, sid, ttl, rfl, rfl⟩
    · exact hs.sid_lt t hold n hsid
    · exact (h.mint n hsid).lt hq hs
  owner := by
    intro t ht t' ht' n hsid hsid'
    rcases mem_issued_exec ht with hold | ⟨type, sub, sid, ttl, rfl, rfl⟩
    · rcases mem_issued_exec ht' with hold' | ⟨type, sub, sid, ttl, rfl, rfl⟩
      · exact hs.owner t hold t' hold' n hsid hsid'
      · exact (h.mint n hsid').sub hq hs t hold hsid
    · rcases mem_issued_exec ht' with hold' | ⟨_, _, _, _, heq, rfl⟩
      · exact ((h.mint n hsid).sub hq hs t' hold' hsid').symm
      · cases heq
        rfl
  active := by
    intro t hlive
    -- A touch brings back every unexpired token of the session, not only the sender's.
    rcases live_exec hlive with hold | ⟨sub, sid, ttl, rfl, rfl⟩ | ⟨n, ht, hsid, hwrites⟩
    · exact isActive_exec (hs.active t hold) (hspared t hold)
    · exact isActive_exec (hactive t.sub h.1) (by simp [Command.deactivated])
    · obtain ⟨hnone, userId, hmem, howns⟩ := h.touch (s := s) hwrites
      have hsub : t.sub = userId := howns.sub hq hs t ht hsid
      exact isActive_exec (hsub ▸ hactive userId hmem) (by simp [hnone])

/-! ## Runs -/

/-- What the call has seen. -/
def Running.sight (th : Running) : Sight := Thread.after sighting {} th.trace

/-- The account the next command deactivates. -/
def Running.deactivating (th : Running) (s : Server) : Option Nat :=
  th.next?.bind (·.deactivated s)

/-- A token of the account is live, or a call under way other than call `i` has found
it active. -/
def World.InUse (w : World) (i : Option Nat) (id : Nat) : Prop :=
  (∃ t ∈ w.server.issued, w.server.live t = true ∧ t.sub = id) ∨
    ∃ e ∈ w.calls.zipIdx, some e.2 ≠ i ∧ e.1.next?.isSome = true ∧ id ∈ e.1.sight.active

instance (w : World) (i : Option Nat) (id : Nat) : Decidable (w.InUse i id) :=
  inferInstanceAs (Decidable (_ ∨ _))

/-- No account is deactivated or removed that is in use. A table has one row for an
id. -/
def SparesUsed (w : World) : Message → Prop
  | .step i => ∀ th ∈ w.calls[i]?, ∀ id ∈ th.deactivating w.server, ¬ w.InUse (some i) id
  | .writeUsers users => (users.map (·.id)).Nodup ∧ ∀ u ∈ w.server.users, u.isActive = true →
      w.InUse none u.id → { w.server with users }.isActive u.id = true
  | _ => True

instance (w : World) (m : Message) : Decidable (SparesUsed w m) :=
  match m with
  | .step i => inferInstanceAs
      (Decidable (∀ th ∈ w.calls[i]?, ∀ id ∈ th.deactivating w.server, ¬ w.InUse (some i) id))
  | .writeUsers users => inferInstanceAs (Decidable ((users.map (·.id)).Nodup ∧
      ∀ u ∈ w.server.users, u.isActive = true → w.InUse none u.id →
        { w.server with users }.isActive u.id = true))
  | .start _ | .drop _ | .wait _ => .isTrue trivial

/-- The call goes by what it has found, and while it is under way that is so. -/
structure Running.Guarded (th : Running) (s : Server) : Prop where
  obeys : Thread.Obeys (m := sighting) (fun _ _ => True) {} th
  sight : th.sight.Wf s
  active : th.next?.isSome = true → ∀ id ∈ th.sight.active, s.isActive id = true

/-- No two calls have drawn the same value. -/
structure World.Guarded (w : World) : Prop where
  server : w.server.Tidy
  calls : ∀ (i : Nat) (th : Running), w.calls[i]? = some th → th.Guarded w.server
  apart : ∀ (i j : Nat) (th th' : Running), i ≠ j → w.calls[i]? = some th → w.calls[j]? = some th' →
    ∀ n ∈ th.sight.drawn, n ∉ th'.sight.drawn

namespace World.Guarded

variable {prims : Primitives} {cfg : Settings} {w : World}

theorem init {s : Server} (hs : s.Tidy) : World.Guarded { server := s } where
  server := hs
  calls := by simp
  apart := by simp

/-- An account with a live token, or found active by another call, is spared. -/
theorem spared {i : Nat} {th : Running} {c : Command} {k : c.Reply → Handler Answer} {id : Nat}
    (hth : w.calls[i]? = some th) (hprog : th.prog = .call c k) (hspares : SparesUsed w (.step i))
    (huse : w.InUse (some i) id) : id ∉ c.deactivated w.server := by
  intro hid
  refine hspares th hth id ?_ huse
  simpa [Running.deactivating, Thread.next?, hprog] using hid

theorem inUse_of_live {t : Token} (h : w.server.live t = true) (i : Option Nat) :
    w.InUse i t.sub :=
  .inl ⟨t, mem_of_decodes (live_iff.mp h).1, h, rfl⟩

theorem inUse_of_found {i : Option Nat} {j : Nat} {th : Running} {id : Nat}
    (hth : w.calls[j]? = some th) (hne : some j ≠ i) (hnext : th.next?.isSome = true)
    (hid : id ∈ th.sight.active) : w.InUse i id :=
  .inr ⟨(th, j), List.mk_mem_zipIdx_iff_getElem?.mpr hth, hne, hnext, hid⟩

/-- One call goes on. -/
theorem after {i : Nat} {th : Running} {c : Command} {k : c.Reply → Handler Answer}
    (h : w.Guarded) (hth : w.calls[i]? = some th) (hprog : th.prog = .call c k)
    (hspares : SparesUsed w (.step i)) : (w.after i th c k).Guarded := by
  have hcall := h.calls i th hth
  obtain ⟨hallows, hrest⟩ := Thread.Obeys.call hcall.obeys hprog
  have hactive := hcall.active (by simp [Thread.next?, hprog])
  have hserver : (exec c w.server).2.Tidy :=
    h.server.exec hcall.sight hactive hallows fun t hlive =>
      spared hth hprog hspares (inUse_of_live hlive (some i))
  refine ⟨hserver, fun j th' hth' => ?_, fun j j' th₁ th₂ hne hth₁ hth₂ n hn => ?_⟩
  · rcases call_after hth' with ⟨-, rfl⟩ | ⟨hne, hj⟩
    · exact ⟨hrest _ (possible_exec c w.server), hcall.sight.note h.server hallows, fun _ =>
        Sight.active_note h.server hactive⟩
    · have hother := h.calls j th' hj
      refine ⟨hother.obeys, ?_, fun hnext id hid => ?_⟩
      · have hapart := h.apart i j th th' (Ne.symm hne) hth hj
        exact hother.sight.other hcall.sight h.server hallows hapart
      · refine isActive_exec (hother.active hnext id hid) ?_
        exact spared hth hprog hspares (inUse_of_found hj (by simpa using hne) hnext hid)
  · -- What the call draws now, no other call has drawn.
    have hfresh : ∀ (m : Nat) (th' : Running), w.calls[m]? = some th' → m ≠ i →
        ∀ n ∈ (th.sight.note c (exec c w.server).1).drawn, n ∉ th'.sight.drawn := by
      intro m th' hth' hm n hn hmem
      rcases Sight.mem_drawn_note hn with hold | ⟨-, rfl⟩
      · exact h.apart i m th th' (Ne.symm hm) hth hth' n hold hmem
      · exact absurd ((h.calls m th' hth').sight.drawn_lt _ hmem) (Nat.lt_irrefl _)
    rcases call_after hth₁ with ⟨rfl, rfl⟩ | ⟨hj, hold₁⟩
    · rcases call_after hth₂ with ⟨rfl, -⟩ | ⟨hj', hold₂⟩
      · exact absurd rfl hne
      · exact hfresh j' th₂ hold₂ hj' n hn
    · rcases call_after hth₂ with ⟨rfl, rfl⟩ | ⟨hj', hold₂⟩
      · exact fun hmem => hfresh j th₁ hold₁ hj n hmem hn
      · exact h.apart j j' th₁ th₂ hne hold₁ hold₂ n hn

/-- A table is written. -/
theorem written {users : List User} (h : w.Guarded) (hspares : SparesUsed w (.writeUsers users)) :
    (exchange prims cfg w (.writeUsers users)).Guarded := by
  have hkept : ∀ id, w.server.isActive id = true → w.InUse none id →
      { w.server with users }.isActive id = true := by
    intro id hactive huse
    obtain ⟨u, hfind, huser⟩ := isActive_iff.mp hactive
    have hid : u.id = id := by simpa using List.find?_some hfind
    subst hid
    exact hspares.2 u (List.mem_of_find?_eq_some hfind) huser huse
  refine ⟨⟨hspares.1, h.server.sid_lt, h.server.owner, fun t hlive => ?_⟩, fun j th hth => ?_,
    h.apart⟩
  · exact hkept t.sub (h.server.active t hlive) (inUse_of_live hlive none)
  · obtain ⟨hobeys, hsight, hactive⟩ := h.calls j th hth
    refine ⟨hobeys, hsight.grows rfl (Nat.le_refl _), fun hnext id hid => ?_⟩
    exact hkept id (hactive hnext id hid) (inUse_of_found hth (by simp) hnext hid)

/-- Every message keeps it that spares the accounts in use. -/
theorem exchange (h : w.Guarded) {m : Message} (hspares : SparesUsed w m) :
    (exchange prims cfg w m).Guarded := by
  cases m with
  | start call =>
    have hbegin : (begin prims cfg call).Guarded w.server :=
      ⟨Thread.obeys_start (handle_sighting prims cfg call), Sight.wf_empty _,
        fun _ id hid => by cases hid⟩
    refine ⟨h.server, fun j th' hth' => ?_, fun j j' th₁ th₂ hne hth₁ hth₂ n hn => ?_⟩
    · rcases call_start hth' with hj | ⟨-, rfl⟩
      · exact h.calls j th' hj
      · exact hbegin
    · rcases call_start hth₁ with hj | ⟨-, rfl⟩
      · rcases call_start hth₂ with hj' | ⟨-, rfl⟩
        · exact h.apart j j' th₁ th₂ hne hj hj' n hn
        · exact fun hmem => by cases hmem
      · cases hn
  | step i =>
    rcases exchange_step prims cfg w i with heq | ⟨th, c, k, hth, hprog, heq⟩
    · rw [heq]
      exact h
    · rw [heq]
      exact h.after hth hprog hspares
  | drop i =>
    have hsame : ∀ (j : Nat) (th' : Running),
        (Auth.exchange prims cfg w (.drop i)).calls[j]? = some th' →
          ∃ th, w.calls[j]? = some th ∧ th'.sight = th.sight := by
      intro j th' hth'
      rcases call_drop hth' with hj | ⟨th, hj, rfl⟩
      · exact ⟨th', hj, rfl⟩
      · exact ⟨th, hj, rfl⟩
    refine ⟨h.server, fun j th' hth' => ?_, fun j j' th₁ th₂ hne hth₁ hth₂ n hn => ?_⟩
    · rcases call_drop hth' with hj | ⟨th, hj, rfl⟩
      · exact h.calls j th' hj
      · exact ⟨trivial, (h.calls j th hj).sight, fun hnext => by cases hnext⟩
    · obtain ⟨th₁', hj, hsight₁⟩ := hsame j th₁ hth₁
      obtain ⟨th₂', hj', hsight₂⟩ := hsame j' th₂ hth₂
      rw [hsight₁] at hn
      rw [hsight₂]
      exact h.apart j j' th₁' th₂' hne hj hj' n hn
  | wait seconds =>
    have hbefore : ∀ t, (w.server.wait seconds).live t = true → w.server.live t = true := by
      intro t hlive
      have hslept : (exec (.sleep seconds) w.server).2.live t = true := hlive
      rcases live_exec hslept with hold | ⟨_, _, _, hmint, -⟩ | ⟨_, -, -, hwrites⟩
      · exact hold
      · cases hmint
      · cases hwrites
    refine ⟨⟨h.server.ids, h.server.sid_lt, h.server.owner, fun t hlive => ?_⟩, fun j th hth => ?_,
      h.apart⟩
    · exact h.server.active t (hbefore t hlive)
    · obtain ⟨hobeys, hsight, hactive⟩ := h.calls j th hth
      exact ⟨hobeys, hsight.grows rfl (Nat.le_refl _), hactive⟩
  | writeUsers users => exact h.written hspares

/-- The two paths agree. -/
theorem agrees (h : w.Guarded) (cfg : Settings) : w.server.Agrees cfg :=
  agrees_iff.mpr h.server.active

end World.Guarded

/-- A commit that deactivates an account leaves its tokens live. -/
theorem not_agrees_after {w : World} {cfg : Settings} {i : Nat} {th : Running} {t : Token}
    (prims : Primitives) (hth : w.calls[i]? = some th) (hlive : w.server.live t = true)
    (hdeactivating : th.deactivating w.server = some t.sub) :
    ¬ (exchange prims cfg w (.step i)).server.Agrees cfg := by
  obtain ⟨c, hnext, hc⟩ := Option.bind_eq_some_iff.mp hdeactivating
  obtain ⟨k, hprog⟩ := Thread.next?_eq_some hnext
  have hserver : (exchange prims cfg w (.step i)).server = (exec c w.server).2 := by
    simp [exchange, hth, Thread.step_call hprog]
  rw [hserver, agrees_iff]
  intro hall
  obtain ⟨loaded, left, rfl, hid, hdeactivates, htaken⟩ := deactivated_eq_some hc
  have hsaved : (exec (.commitUser loaded left) w.server).2 =
      { w.server with users := updateUsers w.server.users loaded left } := by
    simp only [exec, htaken, Bool.false_eq_true, if_false]
  rw [hsaved] at hall
  obtain ⟨u, hfind, hactive⟩ := isActive_iff.mp (hall t hlive)
  obtain ⟨stored, hstored, rfl⟩ := Option.map_eq_some_iff.mp
    ((find?_updateUsers w.server.users loaded left).symm.trans hfind)
  have hsame : stored.id = t.sub := by simpa using List.find?_some hstored
  simp only [deactivates, Bool.and_eq_true, decide_eq_true_eq, Bool.not_eq_true'] at hdeactivates
  have hcolumn : (writeColumns stored loaded left).isActive = left.isActive :=
    if_neg hdeactivates.1
  rw [if_pos (hsame.trans hid.symm), hcolumn, hdeactivates.2] at hactive
  cases hactive

/-- The socket and the API let in the same users exactly if no inactive account has a
live token. Deactivating an account whose token is live ends that at once; and in
every run in which no account is deactivated while it is in use, whatever is called and
however the calls interleave, it holds throughout. -/
theorem socket_admits_as_api (prims : Primitives) (cfg : Settings) (s : Server) (hs : s.Tidy)
    (ms : List Message) (hspares : Along (exchange prims cfg) SparesUsed { server := s } ms) :
    (∀ s : Server, s.Agrees cfg ↔ ∀ t, s.live t = true → s.isActive t.sub = true) ∧
      (∀ (w : World) (i : Nat) (th : Running) (t : Token), w.calls[i]? = some th →
        w.server.live t = true → th.deactivating w.server = some t.sub →
          ¬ (exchange prims cfg w (.step i)).server.Agrees cfg) ∧
      Always (exchange prims cfg) (fun w => w.server.Agrees cfg) { server := s } ms :=
  ⟨fun _ => agrees_iff, fun _ _ _ _ hth hlive hdeactivating =>
      not_agrees_after prims hth hlive hdeactivating,
    always_of_invariant_along (fun _ _ hw hm => hw.exchange hm) (fun _ hw => hw.agrees cfg)
      (World.Guarded.init hs) hspares⟩

/-! ## A registrator who has left -/

/-- The front desk with an administrator, and nobody signed in. -/
def staffedDesk : Server :=
  { frontDesk with
    users := frontDesk.users ++
      [{ id := 2, fullName := "Administrator", email := some "admin@royd",
         passwordHash := some "kalit", role := .admin }] }

/-- The access token of the administrator, who signs in after the registrator. -/
def adminToken (iat : Int) : Token :=
  { type := .access, sub := 2, jti := 4, sid := some 3, iat, exp := iat + 900 }

/-- The registrator signs in. Some time later the administrator signs in and
deactivates the registrator. -/
def dismissal (seconds : Nat) : List Message :=
  .start deskLogin :: goes 0 8
    ++ .wait seconds :: .start (.login "admin@royd" "kalit" "10.0.0.2") :: goes 1 8
    ++ .start (.deleteUser (some (adminToken seconds)) 1) :: goes 2 7

theorem staffedDesk_tidy : staffedDesk.Tidy := tidy_unused (by decide) rfl

/-- The registrator's session had lapsed by then. -/
theorem socket_admits_as_api_lapsed :
    Always (exchange plainPrimitives {}) (fun w => w.server.Agrees {}) { server := staffedDesk }
      (dismissal 1801) :=
  (socket_admits_as_api plainPrimitives {} staffedDesk staffedDesk_tidy (dismissal 1801)
    (by decide +kernel)).2.2

/-- The registrator's session is open: the API refuses the token, the socket takes it. -/
theorem dismissed_and_connected :
    socketUser (run (exchange plainPrimitives {}) { server := staffedDesk } (dismissal 0)).server
        (some deskAccess) = some 1 ∧
      apiUser {} (run (exchange plainPrimitives {}) { server := staffedDesk } (dismissal 0)).server
        (some deskAccess) = none := by
  decide +kernel

end Royd.Auth
