/-
Royd.Concurrent.Registry — which request carries which key, while several
submissions are under way.

What exactly-once filing is about is a small part of the tables: which ids
are given out, who is who, and which request carries which key. `View` is
that part. A message changes it in one of a few ways, and `Sane` is the
invariant on it and on the submissions under way: a key is carried once per
student, an identity that is not committed yet is used by nobody else, and
a response names the request with its caller's key.
-/
import Royd.Concurrent.Submissions

namespace Royd

/-! ## What the law is about -/

/-- The columns of a request that a filing fixes for good. -/
structure Entry where
  id : Nat
  studentId : Nat
  clientRef : Option String
  apiClientId : Option Nat
  deriving DecidableEq, Repr

def Request.entry (r : Request) : Entry := ⟨r.id, r.studentId, r.clientRef, r.apiClientId⟩

/-- The unique constraint on `(student_id, client_ref)`, where NULL never
equals NULL. -/
def Entry.Distinct (e e' : Entry) : Prop :=
  ¬ (e.clientRef.isSome = true ∧ e.studentId = e'.studentId ∧ e.clientRef = e'.clientRef)

/-- The entry carries this student's key. -/
def Entry.carries (studentId : Nat) (key : String) (e : Entry) : Bool :=
  e.studentId == studentId && e.clientRef == some key

/-- Ids given out, identities and the keys of the requests. -/
structure View where
  nextId : Nat
  userIds : List Nat
  identities : List (Nat × String)
  registry : List Entry
  deriving DecidableEq, Repr

def Db.view (db : Db) : View where
  nextId := db.nextId
  userIds := db.users.map (·.id)
  identities := identities db.users
  registry := db.requests.map Request.entry

/-- A later view. -/
structure View.Grows (v v' : View) (userIds : List Nat) (known : List (Nat × String))
    (entries : List Entry) : Prop where
  nextId : v.nextId ≤ v'.nextId
  userIds : v'.userIds = v.userIds ++ userIds
  identities : v'.identities = v.identities ++ known
  registry : v'.registry = v.registry ++ entries

theorem Entry.Distinct.symm {e e' : Entry} (h : e.Distinct e') : e'.Distinct e := by
  rintro ⟨hsome, hstudent, hkey⟩
  exact h ⟨hkey ▸ hsome, hstudent.symm, hkey.symm⟩

/-- A key is carried at most once. -/
theorem countP_carries_le_one {es : List Entry} (h : es.Pairwise Entry.Distinct) (studentId : Nat)
    (key : String) : es.countP (·.carries studentId key) ≤ 1 := by
  rw [List.countP_eq_length_filter]
  have hpair := h.filter (·.carries studentId key)
  have hall : ∀ e ∈ es.filter (·.carries studentId key), e.carries studentId key = true :=
    fun e he => (List.mem_filter.mp he).2
  rcases hsplit : es.filter (·.carries studentId key) with _ | ⟨a, _ | ⟨b, rest⟩⟩
  · simp [hsplit]
  · simp [hsplit]
  · rw [hsplit] at hpair hall
    have hab := (List.pairwise_cons.mp hpair).1 b (by simp)
    have ha := hall a (by simp)
    have hb := hall b (by simp)
    simp only [Entry.carries, Bool.and_eq_true, beq_iff_eq] at ha hb
    exact absurd ⟨by rw [ha.2]; rfl, ha.1.trans hb.1.symm, ha.2.trans hb.2.symm⟩ hab

namespace Submissions

open Api

/-! ## Callers and parties -/

/-- The identity a caller is about to create. -/
def Caller.fresh? : Caller → Option Nat
  | .student _ => none
  | .client _ sync => if sync.found.isNone then some sync.user.id else none

/-- The identity a party still has to create. -/
def Party.fresh? (p : Party) : Option Nat :=
  match p.stage with
  | .filed _ => none
  | _ => p.caller.fresh?

/-- The id of the request a party is about to commit. -/
def Party.pending? (p : Party) : Option Nat :=
  match p.stage with
  | .committing f => some f.req.id
  | _ => none

/-- The party has committed the request that carries this key. -/
def Party.hasFiled (studentId : Nat) (key : String) (p : Party) : Bool :=
  match p.stage with
  | .filed _ => p.caller.user.id == studentId && p.key == some key
  | _ => false

/-- The response is a 201 for this key. -/
def Response.created (studentId : Nat) (key : String) (r : Response) : Bool :=
  r.statusCode == 201 && r.caller.user.id == studentId && r.key == some key

/-- What a caller's request looks like in the registry. -/
def Caller.entry (c : Caller) (key : Option String) (id : Nat) : Entry :=
  ⟨id, c.user.id, key, c.clientId?⟩

/-- The row an upsert read belongs to the identity it updates. -/
def Caller.Formed (c : Caller) : Prop :=
  ∀ sync, c.sync? = some sync → ∀ u, sync.found = some u →
    u.id = sync.user.id ∧ u.hemisId = sync.user.hemisId

/-- The caller's identity is committed. -/
structure Caller.Settled (v : View) (c : Caller) : Prop where
  user : c.user.id ∈ v.userIds
  hemisId : ∀ h, c.user.hemisId = some h → (c.user.id, h) ∈ v.identities

structure Party.Ok (v : View) (p : Party) : Prop where
  formed : p.caller.Formed
  settled : p.fresh? = none → p.caller.Settled v
  fresh : ∀ n, p.fresh? = some n → n < v.nextId ∧ n ∉ v.userIds ∧ ∀ e ∈ v.registry, e.studentId ≠ n
  pending : ∀ f, p.stage = .committing f → f.sync = p.caller.sync? ∧
    f.req.entry = p.caller.entry p.key f.req.id ∧ f.req.id < v.nextId ∧
      ∀ e ∈ v.registry, e.id ≠ f.req.id
  filed : ∀ id, p.stage = .filed id → p.caller.entry p.key id ∈ v.registry

structure Response.Ok (v : View) (r : Response) : Prop where
  statusCode : r.statusCode = 200 ∨ r.statusCode = 201
  settled : r.caller.Settled v
  named : ∃ e ∈ v.registry, e.id = r.requestId ∧ e.studentId = r.caller.user.id ∧
    e.clientRef = r.key ∧ ∀ c, r.caller.clientId? = some c → e.apiClientId = some c

/-- The invariant of the view, the submissions under way and the responses. -/
structure Sane (v : View) (parties : List Party) (responses : List Response) : Prop where
  usersBelow : ∀ n ∈ v.userIds, n < v.nextId
  people : (v.identities.map Prod.snd).Nodup
  unique : v.registry.Pairwise Entry.Distinct
  ids : (v.registry.map (·.id)).Nodup
  entriesBelow : ∀ e ∈ v.registry, e.id < v.nextId ∧ e.studentId < v.nextId
  party : ∀ p ∈ parties, p.Ok v
  fresh : (parties.filterMap Party.fresh?).Nodup
  pending : (parties.filterMap Party.pending?).Nodup
  response : ∀ r ∈ responses, r.Ok v
  created : ∀ studentId key,
    responses.countP (·.created studentId key) + parties.countP (·.hasFiled studentId key)
      ≤ v.registry.countP (·.carries studentId key)

/-! ## Growing views -/

section Grows

variable {v v' : View} {us : List Nat} {known : List (Nat × String)} {es : List Entry}

theorem Caller.Settled.grow {c : Caller} (h : c.Settled v) (hgrows : v.Grows v' us known es) :
    c.Settled v' where
  user := by
    rw [hgrows.userIds]
    exact List.mem_append_left _ h.user
  hemisId := fun hemisId hc => by
    rw [hgrows.identities]
    exact List.mem_append_left _ (h.hemisId hemisId hc)

theorem Response.Ok.grow {r : Response} (h : r.Ok v) (hgrows : v.Grows v' us known es) :
    r.Ok v' where
  statusCode := h.statusCode
  settled := h.settled.grow hgrows
  named := by
    obtain ⟨e, he, hnamed⟩ := h.named
    rw [hgrows.registry]
    exact ⟨e, List.mem_append_left _ he, hnamed⟩

/-- A party is untouched by new rows that are not its own. -/
theorem Party.Ok.grow {p : Party} (h : p.Ok v) (hgrows : v.Grows v' us known es)
    (hfresh : ∀ n, p.fresh? = some n → n ∉ us ∧ ∀ e ∈ es, e.studentId ≠ n)
    (hpending : ∀ n, p.pending? = some n → ∀ e ∈ es, e.id ≠ n) : p.Ok v' where
  formed := h.formed
  settled := fun hnone => (h.settled hnone).grow hgrows
  fresh := fun n hn => by
    obtain ⟨hlt, huser, hentry⟩ := h.fresh n hn
    obtain ⟨huser', hentry'⟩ := hfresh n hn
    rw [hgrows.userIds, hgrows.registry]
    refine ⟨hlt.trans_le hgrows.nextId, ?_, ?_⟩
    · simp [huser, huser']
    · intro e he
      exact (List.mem_append.mp he).elim (hentry e) (hentry' e)
  pending := fun f hf => by
    obtain ⟨hsync, hentry, hlt, hids⟩ := h.pending f hf
    have hnew := hpending f.req.id (by rw [Party.pending?, hf])
    rw [hgrows.registry]
    refine ⟨hsync, hentry, hlt.trans_le hgrows.nextId, fun e he => ?_⟩
    exact (List.mem_append.mp he).elim (hids e) (hnew e)
  filed := fun id hid => by
    rw [hgrows.registry]
    exact List.mem_append_left _ (h.filed id hid)

end Grows

/-! ## The invariant, one way of changing it at a time -/

theorem nodup_filterMap_cons {α : Type} {f : α → Option Nat} {a : α} {as : List α}
    (hnew : ∀ n, f a = some n → ∀ b ∈ as, f b ≠ some n) (h : (as.filterMap f).Nodup) :
    ((a :: as).filterMap f).Nodup := by
  cases hf : f a with
  | none => rwa [List.filterMap_cons_none hf]
  | some n =>
    rw [List.filterMap_cons_some hf, List.nodup_cons, List.mem_filterMap]
    refine ⟨?_, h⟩
    rintro ⟨b, hb, hn⟩
    exact hnew n hf b hb hn

theorem not_mem_of_nodup_filterMap_cons {α : Type} {f : α → Option Nat} {a : α} {as : List α}
    (h : ((a :: as).filterMap f).Nodup) {n : Nat} (hn : f a = some n) : ∀ b ∈ as, f b ≠ some n := by
  rw [List.filterMap_cons_some hn, List.nodup_cons, List.mem_filterMap] at h
  exact fun b hb heq => h.1 ⟨b, hb, heq⟩

section Sane

variable {v v' : View} {ps : List Party} {rs : List Response} {p p' : Party}

theorem Sane.perm {ps' : List Party} (h : Sane v ps rs) (hperm : ps.Perm ps') : Sane v ps' rs where
  usersBelow := h.usersBelow
  people := h.people
  unique := h.unique
  ids := h.ids
  entriesBelow := h.entriesBelow
  party := fun p hp => h.party p (hperm.mem_iff.mpr hp)
  fresh := (hperm.filterMap _).nodup_iff.mp h.fresh
  pending := (hperm.filterMap _).nodup_iff.mp h.pending
  response := h.response
  created := fun studentId key => hperm.countP_eq _ ▸ h.created studentId key

/-- A party goes, whether it was answered with an error or dropped. -/
theorem Sane.leave (h : Sane v (p :: ps) rs) : Sane v ps rs where
  usersBelow := h.usersBelow
  people := h.people
  unique := h.unique
  ids := h.ids
  entriesBelow := h.entriesBelow
  party := fun q hq => h.party q (List.mem_cons_of_mem _ hq)
  fresh := ((List.sublist_cons_self p ps).filterMap _).nodup h.fresh
  pending := ((List.sublist_cons_self p ps).filterMap _).nodup h.pending
  response := h.response
  created := fun studentId key => by
    have hle := (List.sublist_cons_self p ps).countP_le (p := (·.hasFiled studentId key))
    have hsum := h.created studentId key
    omega

/-- A party that has not filed yet comes. -/
theorem Sane.join (h : Sane v ps rs) (hok : p.Ok v) (hstage : ∀ id, p.stage ≠ .filed id)
    (hfresh : ∀ n, p.fresh? = some n → ∀ q ∈ ps, q.fresh? ≠ some n)
    (hpending : ∀ n, p.pending? = some n → ∀ q ∈ ps, q.pending? ≠ some n) : Sane v (p :: ps) rs where
  usersBelow := h.usersBelow
  people := h.people
  unique := h.unique
  ids := h.ids
  entriesBelow := h.entriesBelow
  party := fun q hq => (List.mem_cons.mp hq).elim (fun heq => heq ▸ hok) (h.party q)
  fresh := nodup_filterMap_cons hfresh h.fresh
  pending := nodup_filterMap_cons hpending h.pending
  response := h.response
  created := fun studentId key => by
    have hnot : p.hasFiled studentId key = false := by
      unfold Party.hasFiled
      split
      · exact absurd ‹_› (hstage _)
      · rfl
    rw [List.countP_cons, hnot]
    exact h.created studentId key

/-- Ids are drawn and identities created, but no request is filed. -/
theorem Sane.grow {us : List Nat} {known : List (Nat × String)} (h : Sane v ps rs)
    (hgrows : v.Grows v' us known []) (hbelow : ∀ n ∈ us, v.nextId ≤ n ∧ n < v'.nextId)
    (hpeople : (v'.identities.map Prod.snd).Nodup) : Sane v' ps rs where
  usersBelow := fun n hn => by
    rw [hgrows.userIds] at hn
    exact (List.mem_append.mp hn).elim (fun hn => (h.usersBelow n hn).trans_le hgrows.nextId)
      fun hn => (hbelow n hn).2
  people := hpeople
  unique := by rw [hgrows.registry, List.append_nil]; exact h.unique
  ids := by rw [hgrows.registry, List.append_nil]; exact h.ids
  entriesBelow := fun e he => by
    rw [hgrows.registry, List.append_nil] at he
    obtain ⟨hid, hstudent⟩ := h.entriesBelow e he
    exact ⟨hid.trans_le hgrows.nextId, hstudent.trans_le hgrows.nextId⟩
  party := fun q hq => (h.party q hq).grow hgrows
    (fun n hn => ⟨fun hmem => by
      have hlt := ((h.party q hq).fresh n hn).1
      have hge := (hbelow n hmem).1
      omega, by simp⟩)
    (by simp)
  fresh := h.fresh
  pending := h.pending
  response := fun r hr => (h.response r hr).grow hgrows
  created := by rw [hgrows.registry, List.append_nil]; exact h.created

/-- A replay is answered. -/
theorem Sane.replay {r : Response} (h : Sane v ps rs) (hr : r.Ok v) (hcode : r.statusCode = 200) :
    Sane v ps (rs ++ [r]) where
  usersBelow := h.usersBelow
  people := h.people
  unique := h.unique
  ids := h.ids
  entriesBelow := h.entriesBelow
  party := h.party
  fresh := h.fresh
  pending := h.pending
  response := fun q hq => (List.mem_append.mp hq).elim (h.response q)
    fun hq => List.mem_singleton.mp hq ▸ hr
  created := fun studentId key => by
    have hnot : r.created studentId key = false := by simp [Response.created, hcode]
    simpa [hnot] using h.created studentId key

/-- The submission that created its request is answered. -/
theorem Sane.answer {id : Nat} (h : Sane v (p :: ps) rs) (hstage : p.stage = .filed id) :
    Sane v ps (rs ++ [⟨p.caller, p.key, 201, id⟩]) := by
  have hp := h.party p List.mem_cons_self
  refine { h.leave with response := ?_, created := ?_ }
  · intro r hr
    rcases List.mem_append.mp hr with hr | hr
    · exact h.response r hr
    · rw [List.mem_singleton.mp hr]
      exact
        { statusCode := .inr rfl
          settled := hp.settled (by rw [Party.fresh?, hstage])
          named := ⟨_, hp.filed id hstage, rfl, rfl, rfl, fun _ hc => hc⟩ }
  · intro studentId key
    have hsame : (Response.created studentId key ⟨p.caller, p.key, 201, id⟩)
        = p.hasFiled studentId key := by
      simp [Response.created, Party.hasFiled, hstage]
    have hsum := h.created studentId key
    rw [List.countP_cons] at hsum
    rw [List.countP_append, List.countP_singleton, hsame]
    omega

theorem Party.fresh?_eq_some {n : Nat} (h : p.fresh? = some n) :
    p.caller.fresh? = some n ∧ p.caller.user.id = n := by
  have hcaller : p.caller.fresh? = some n := by
    unfold Party.fresh? at h
    split at h
    · cases h
    · exact h
  refine ⟨hcaller, ?_⟩
  unfold Caller.fresh? at hcaller
  split at hcaller
  · cases hcaller
  · rename_i sync heq
    split at hcaller
    · rw [heq]
      exact Option.some.inj hcaller
    · cases hcaller

/-- The HEMIS number a new identity brings. -/
def Party.brings (p : Party) : List (Nat × String) :=
  match p.fresh? with
  | some n => (p.caller.user.hemisId.map fun hemisId => (n, hemisId)).toList
  | none => []

/-- A filing is committed. -/
theorem Sane.file {f : Filing} (h : Sane v (p :: ps) rs) (hstage : p.stage = .committing f)
    (hgrows : v.Grows v' p.fresh?.toList p.brings [f.req.entry])
    (hpeople : (v'.identities.map Prod.snd).Nodup)
    (hunique : ∀ e ∈ v.registry, e.Distinct f.req.entry) :
    Sane v' ({ p with stage := .filed f.req.id } :: ps) rs := by
  have hp := h.party p List.mem_cons_self
  obtain ⟨-, hentry, hid, hfreshId⟩ := hp.pending f hstage
  have hnewEntry : ∀ e ∈ [f.req.entry], e.studentId = p.caller.user.id ∧ e.id = f.req.id := by
    intro e he
    rw [List.mem_singleton.mp he, hentry]
    exact ⟨rfl, rfl⟩
  have hsettled : p.caller.Settled v' := by
    cases hfresh : p.fresh? with
    | none => exact (hp.settled hfresh).grow hgrows
    | some n =>
      have huser := (Party.fresh?_eq_some hfresh).2
      constructor
      · rw [hgrows.userIds, hfresh, huser]
        simp
      · intro hemisId hc
        rw [hgrows.identities, huser]
        simp [Party.brings, hfresh, hc]
  have hstudent : p.caller.user.id < v'.nextId := by
    refine Nat.lt_of_lt_of_le ?_ hgrows.nextId
    cases hfresh : p.fresh? with
    | none => exact h.usersBelow _ (hp.settled hfresh).user
    | some n =>
      rw [(Party.fresh?_eq_some hfresh).2]
      exact (hp.fresh n hfresh).1
  constructor
  · intro n hn
    rw [hgrows.userIds] at hn
    rcases List.mem_append.mp hn with hn | hn
    · exact (h.usersBelow n hn).trans_le hgrows.nextId
    · exact (hp.fresh n (Option.mem_toList.mp hn)).1.trans_le hgrows.nextId
  · exact hpeople
  · rw [hgrows.registry, List.pairwise_append]
    refine ⟨h.unique, List.pairwise_singleton _ _, ?_⟩
    intro e he e' he'
    rw [List.mem_singleton.mp he']
    exact hunique e he
  · rw [hgrows.registry, List.map_append, List.nodup_append]
    refine ⟨h.ids, by simp, ?_⟩
    intro id hmem id' hmem'
    obtain ⟨e, he, rfl⟩ := List.mem_map.mp hmem
    rw [List.map_singleton, List.mem_singleton] at hmem'
    rw [hmem']
    exact hfreshId e he
  · intro e he
    rw [hgrows.registry] at he
    rcases List.mem_append.mp he with he | he
    · obtain ⟨hlt, hlt'⟩ := h.entriesBelow e he
      exact ⟨hlt.trans_le hgrows.nextId, hlt'.trans_le hgrows.nextId⟩
    · rw [(hnewEntry e he).1, (hnewEntry e he).2]
      exact ⟨hid.trans_le hgrows.nextId, hstudent⟩
  · intro q hq
    rcases List.mem_cons.mp hq with rfl | hq
    · refine ⟨hp.formed, fun _ => hsettled, fun n hn => ?_, fun g hg => ?_, fun id hid' => ?_⟩
      · cases hn
      · cases hg
      · cases hid'
        rw [hgrows.registry, ← hentry]
        simp
    · have hq' := h.party q (List.mem_cons_of_mem _ hq)
      refine hq'.grow hgrows (fun n hn => ⟨?_, ?_⟩) (fun n hn => ?_)
      · -- Two parties never create the same identity.
        intro hmem
        exact not_mem_of_nodup_filterMap_cons h.fresh (Option.mem_toList.mp hmem) q hq hn
      · intro e he heq
        rw [(hnewEntry e he).1] at heq
        cases hfresh : p.fresh? with
        | none => exact (hq'.fresh n hn).2.1 (heq ▸ (hp.settled hfresh).user)
        | some m =>
          rw [(Party.fresh?_eq_some hfresh).2] at heq
          exact not_mem_of_nodup_filterMap_cons h.fresh (heq ▸ hfresh) q hq hn
      · intro e he heq
        rw [(hnewEntry e he).2] at heq
        have hpending : p.pending? = some n := by rw [Party.pending?, hstage, ← heq]
        exact not_mem_of_nodup_filterMap_cons h.pending hpending q hq hn
  · exact nodup_filterMap_cons (fun n hn => by cases hn)
      (((List.sublist_cons_self p ps).filterMap _).nodup h.fresh)
  · exact nodup_filterMap_cons (fun n hn => by cases hn)
      (((List.sublist_cons_self p ps).filterMap _).nodup h.pending)
  · exact fun r hr => (h.response r hr).grow hgrows
  · intro studentId key
    have hsum := h.created studentId key
    have hbefore : p.hasFiled studentId key = false := by rw [Party.hasFiled, hstage]
    have hafter : Party.hasFiled studentId key { p with stage := .filed f.req.id }
        = f.req.entry.carries studentId key := by
      rw [hentry]
      rfl
    rw [List.countP_cons, hbefore] at hsum
    rw [List.countP_cons, hafter, hgrows.registry, List.countP_append, List.countP_singleton]
    simp only [Bool.false_eq_true, if_false] at hsum
    omega

end Sane

end Submissions

end Royd
