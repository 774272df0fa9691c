/-
Royd.Auth.Wf — well-formed servers, and what one command does to one.

Random values do not repeat: everything that names one names a value that was
drawn, so the next value is in no token and in no key (`Server.Wf`), and what
a call has seen was there (`Ledger.Wf`). Both are kept by every command the
discipline allows, whoever sends it.
-/
import Royd.Auth.Discipline

namespace Royd.Auth

open ExpiringStore Programs

/-! ## What one command does -/

/-- The command writes the key. -/
def Command.Writes : Command → Key → Prop
  | .setex k .., k' => k = k'
  | .setNx k _, k' => k = k'
  | .incrExpire ks _, k' => k' ∈ ks
  | _, _ => False

theorem mem_setex {s : Store Key Nat} {now ttl : Int} {k : Key} {v : Nat} {e : Entry Key Nat}
    (h : e ∈ ExpiringStore.setex s now k ttl v) : e ∈ s ∨ k = e.key := by
  rcases List.mem_cons.mp h with rfl | he
  · exact .inr rfl
  · exact .inl (List.mem_filter.mp he).1

theorem mem_incrExpire {ttl : Int} {ks : List Key} {s : Server} {e : Entry Key Nat}
    (h : e ∈ (ks.foldl (Server.incrExpire ttl) s).redis) : e ∈ s.redis ∨ e.key ∈ ks := by
  induction ks generalizing s with
  | nil => exact .inl h
  | cons k ks ih =>
    rcases ih h with he | he
    · rcases mem_setex he with he | rfl
      · exact .inl he
      · exact .inr List.mem_cons_self
    · exact .inr (List.mem_cons_of_mem k he)

/-- What is in Redis after a command was there before it, or it is under a
key the command writes. -/
theorem mem_redis_exec {c : Command} {s : Server} {e : Entry Key Nat}
    (h : e ∈ (exec c s).2.redis) : e ∈ s.redis ∨ c.Writes e.key := by
  cases c with
  | setex k ttl v => exact mem_setex h
  | setNx k ttl =>
    simp only [exec] at h
    split at h
    · exact .inl h
    · exact mem_setex h
  | delete ks => exact .inl (List.mem_filter.mp h).1
  | incrExpire ks ttl => exact mem_incrExpire h
  | commitUser loaded left =>
    simp only [exec] at h
    split at h
    · exact .inl h
    · exact .inl h
  | _ => exact .inl h

theorem absent_exec {c : Command} {s : Server} {k : Key} (h : Absent s.redis k)
    (hwrites : ¬ c.Writes k) : Absent (exec c s).2.redis k := by
  intro e he hk
  rcases mem_redis_exec he with he | he
  · exact h e he hk
  · exact hwrites (hk ▸ he)

theorem until_exec {c : Command} {s : Server} {k : Key} {t : Int} (h : Until s.redis k t)
    (hwrites : ¬ c.Writes k) : Until (exec c s).2.redis k t := by
  intro e he hk
  rcases mem_redis_exec he with he | he
  · exact h e he hk
  · exact absurd (hk ▸ he) hwrites

theorem incrExpire_fold {ttl : Int} {ks : List Key} {s : Server} :
    ks.foldl (Server.incrExpire ttl) s =
      { s with redis := (ks.foldl (Server.incrExpire ttl) s).redis } := by
  induction ks generalizing s with
  | nil => rfl
  | cons k ks ih => rw [List.foldl_cons, ih]; rfl

/-- The command leaves all but Redis and the users table alone. -/
def Command.Stores : Command → Prop
  | .mint .. => False
  | .secret => False
  | .sleep _ => False
  | .mailLink .. => False
  | _ => True

theorem exec_stores {c : Command} (h : c.Stores) (s : Server) :
    (exec c s).2 = { s with redis := (exec c s).2.redis, users := (exec c s).2.users } := by
  cases c with
  | mint type sub sid ttl => exact h.elim
  | secret => exact h.elim
  | sleep seconds => exact h.elim
  | mailLink userId token => exact h.elim
  | setNx k ttl =>
    simp only [exec]
    split
    · rfl
    · rfl
  | incrExpire ks ttl =>
    simp only [exec]
    rw [incrExpire_fold]
  | commitUser loaded left =>
    simp only [exec]
    split
    · rfl
    · rfl
  | _ => rfl

/-- Only a delay lets time pass. -/
theorem now_exec {c : Command} {s : Server} (h : ∀ n, c ≠ .sleep n) :
    (exec c s).2.now = s.now := by
  cases c with
  | sleep n => exact absurd rfl (h n)
  | mint type sub sid ttl => rfl
  | secret => rfl
  | mailLink userId token => rfl
  | _ =>
    rw [exec_stores]
    trivial

/-- A command that signs nothing leaves the tokens alone. -/
theorem issued_exec {c : Command} {s : Server} (hc : ∀ type sub sid ttl, c ≠ .mint type sub sid ttl) :
    (exec c s).2.issued = s.issued := by
  cases c with
  | mint type sub sid ttl => exact absurd rfl (hc type sub sid ttl)
  | secret => rfl
  | sleep seconds => rfl
  | mailLink userId token => rfl
  | _ =>
    rw [exec_stores]
    trivial

/-- A token that is issued was issued before, or the command signs it. -/
theorem mem_issued_exec {c : Command} {s : Server} {t : Token} (h : t ∈ (exec c s).2.issued) :
    t ∈ s.issued ∨
      ∃ type sub sid ttl, c = .mint type sub sid ttl ∧ t = s.newToken type sub sid ttl := by
  cases c with
  | mint type sub sid ttl =>
    rcases List.mem_cons.mp h with rfl | hold
    · exact .inr ⟨type, sub, sid, ttl, rfl, rfl⟩
    · exact .inl hold
  | _ =>
    rw [issued_exec (by simp)] at h
    exact .inl h

/-- Random values, signed tokens and mailed links only become more, and time
goes on. -/
structure Server.Grows (s s' : Server) : Prop where
  secrets : s.nextSecret ≤ s'.nextSecret
  tokens : ∀ t ∈ s.issued, t ∈ s'.issued
  links : ∀ l ∈ s.links, l ∈ s'.links
  time : s.now ≤ s'.now

theorem Server.Grows.refl (s : Server) : s.Grows s :=
  ⟨Nat.le_refl _, fun _ h => h, fun _ h => h, Int.le_refl _⟩

theorem Server.Grows.trans {s s' s'' : Server} (h : s.Grows s') (h' : s'.Grows s'') : s.Grows s'' :=
  ⟨Nat.le_trans h.secrets h'.secrets, fun t ht => h'.tokens t (h.tokens t ht),
    fun l hl => h'.links l (h.links l hl), Int.le_trans h.time h'.time⟩

theorem Server.grows_wait (s : Server) (seconds : Nat) : s.Grows (s.wait seconds) :=
  ⟨Nat.le_refl _, fun _ h => h, fun _ h => h, by simp only [Server.wait]; omega⟩

theorem grows_exec (c : Command) (s : Server) : s.Grows (exec c s).2 := by
  cases c with
  | mint type sub sid ttl =>
    exact ⟨Nat.le_succ _, fun t ht => List.mem_cons_of_mem _ ht, fun _ h => h, Int.le_refl _⟩
  | secret => exact ⟨Nat.le_succ _, fun _ h => h, fun _ h => h, Int.le_refl _⟩
  | sleep seconds => exact s.grows_wait seconds
  | mailLink userId token =>
    exact ⟨Nat.le_refl _, fun _ h => h, fun l hl => List.mem_cons_of_mem _ hl, Int.le_refl _⟩
  | _ =>
    rw [exec_stores]
    · exact ⟨Nat.le_refl _, fun _ h => h, fun _ h => h, Int.le_refl _⟩
    · trivial

/-- What the discipline takes for granted of a reply holds of it. -/
theorem possible_exec (c : Command) (s : Server) : Ledger.Possible c (exec c s).1 := by
  cases c with
  | mint type sub sid ttl => exact ⟨rfl, rfl, rfl⟩
  | selectUser id =>
    intro u hu
    simpa using List.find?_some hu
  | scanRefresh userId => exact fun k hk => (mem_scan.mp hk).1
  | _ => trivial

/-! ## Well-formed servers -/

/-- The random value a key is about. -/
def Key.secret? : Key → Option Nat
  | .refreshBlocked jti => some jti
  | .refreshActive _ jti => some jti
  | .sessionSeen sid => some sid
  | .pwreset token => some token
  | _ => none

/-- Every random value in use was drawn, and no two tokens share one. -/
structure Server.Wf (s : Server) : Prop where
  jti_lt : ∀ t ∈ s.issued, t.jti < s.nextSecret
  sid_lt : ∀ t ∈ s.issued, ∀ sid, t.sid = some sid → sid < s.nextSecret
  jti_inj : ∀ t ∈ s.issued, ∀ t' ∈ s.issued, t.jti = t'.jti → t = t'
  key_lt : ∀ e ∈ s.redis, ∀ n, e.key.secret? = some n → n < s.nextSecret

/-- What a call has seen is there. -/
structure Ledger.Wf (q : Ledger) (s : Server) : Prop where
  decoded : ∀ t ∈ q.decoded, t ∈ s.issued
  live : ∀ sid ∈ q.live, sid < s.nextSecret
  drawn : ∀ n ∈ q.drawn, n < s.nextSecret
  ended : ∀ sid ∈ q.ended, sid < s.nextSecret
  minted : ∀ t, q.phase = .minted t → t ∈ s.issued
  registered : ∀ t, q.phase = .registered t → t ∈ s.issued

theorem Ledger.wf_empty (s : Server) : Ledger.Wf {} s where
  decoded := by simp
  live := by simp
  drawn := by simp
  ended := by simp
  minted := by simp
  registered := by simp

theorem Ledger.Wf.grows {q : Ledger} {s s' : Server} (h : q.Wf s) (hgrows : s.Grows s') :
    q.Wf s' where
  decoded := fun t ht => hgrows.tokens t (h.decoded t ht)
  live := fun sid hsid => Nat.lt_of_lt_of_le (h.live sid hsid) hgrows.secrets
  drawn := fun n hn => Nat.lt_of_lt_of_le (h.drawn n hn) hgrows.secrets
  ended := fun sid hsid => Nat.lt_of_lt_of_le (h.ended sid hsid) hgrows.secrets
  minted := fun t ht => hgrows.tokens t (h.minted t ht)
  registered := fun t ht => hgrows.tokens t (h.registered t ht)

theorem Ledger.Wf.holds_lt {q : Ledger} {s : Server} {sid : Nat} (h : q.Wf s) (hsid : q.Holds sid) :
    sid < s.nextSecret :=
  hsid.elim (h.live sid) (h.drawn sid)

/-! ## Every allowed command keeps it -/

section Kept

variable {cfg : Settings} {own : Option Token} {q : Ledger} {c : Command} {s : Server}

/-- What a command writes, its sender may write. -/
theorem Ledger.Allows.mayWrite {k : Key} (h : q.Allows cfg own c) (hwrites : c.Writes k) :
    q.MayWrite k := by
  cases c with
  | setex k' ttl v =>
    cases hwrites
    exact h.1
  | setNx k' ttl =>
    cases hwrites
    obtain ⟨userId, step, rfl⟩ := h
    trivial
  | incrExpire ks ttl =>
    obtain ⟨identity, rfl⟩ | ⟨ip, rfl⟩ := h k hwrites
    · trivial
    · trivial
  | _ => cases hwrites

/-- A key a call may write names a value that was drawn. -/
theorem Ledger.MayWrite.secret_lt {k : Key} {n : Nat} (h : q.MayWrite k) (hq : q.Wf s) (hs : s.Wf)
    (hn : k.secret? = some n) : n < s.nextSecret := by
  cases k with
  | refreshActive userId jti =>
    obtain ⟨t, hphase, hkey⟩ := h
    cases hn
    cases hkey
    exact hs.jti_lt t (hq.minted t hphase)
  | refreshBlocked jti =>
    obtain ⟨t, ht, rfl⟩ := h
    cases hn
    exact hs.jti_lt t (hq.decoded t ht)
  | sessionSeen sid =>
    cases hn
    exact hq.holds_lt h
  | pwreset token =>
    cases hn
    exact hq.drawn n h
  | _ => cases hn

theorem Server.Wf.sign {type : TokenType} {sub : Nat} {sid : Option Nat} {ttl : Int} (hs : s.Wf)
    (hsid : ∀ n, sid = some n → n < s.nextSecret) :
    (s.sign (s.newToken type sub sid ttl)).Wf where
  jti_lt := by
    intro t ht
    rcases List.mem_cons.mp ht with rfl | ht
    · exact Nat.lt_succ_self _
    · exact Nat.lt_succ_of_lt (hs.jti_lt t ht)
  sid_lt := by
    intro t ht n hn
    rcases List.mem_cons.mp ht with rfl | ht
    · exact Nat.lt_succ_of_lt (hsid n hn)
    · exact Nat.lt_succ_of_lt (hs.sid_lt t ht n hn)
  jti_inj := by
    intro t ht t' ht' hjti
    rcases List.mem_cons.mp ht with rfl | ht
    · rcases List.mem_cons.mp ht' with rfl | ht'
      · rfl
      · have hlt := hs.jti_lt t' ht'
        exact absurd hjti (Nat.ne_of_gt hlt)
    · rcases List.mem_cons.mp ht' with rfl | ht'
      · have hlt := hs.jti_lt t ht
        exact absurd hjti (Nat.ne_of_lt hlt)
      · exact hs.jti_inj t ht t' ht' hjti
  key_lt := fun e he n hn => Nat.lt_succ_of_lt (hs.key_lt e he n hn)

/-- The tokens a command signs carry a session its sender holds. -/
theorem Ledger.Allows.mint_sid {type : TokenType} {sub : Nat} {sid : Option Nat} {ttl : Int}
    (h : q.Allows cfg own (.mint type sub sid ttl)) : ∀ n, sid = some n → q.Holds n := by
  cases type with
  | access => exact h
  | refresh => exact h.1
  | mfa =>
    intro n hn
    cases h.1.symm.trans hn

theorem Server.Wf.exec (hs : s.Wf) (hq : q.Wf s) (h : q.Allows cfg own c) : (exec c s).2.Wf := by
  have hkeys : ∀ e ∈ (Auth.exec c s).2.redis, ∀ n, e.key.secret? = some n →
      n < (Auth.exec c s).2.nextSecret := by
    intro e he n hn
    refine Nat.lt_of_lt_of_le ?_ (grows_exec c s).secrets
    rcases mem_redis_exec he with he | hwrites
    · exact hs.key_lt e he n hn
    · exact (h.mayWrite hwrites).secret_lt hq hs hn
  cases c with
  | mint type sub sid ttl => exact hs.sign fun n hn => hq.holds_lt (h.mint_sid n hn)
  | secret =>
    refine ⟨fun t ht => ?_, fun t ht n hn => ?_, hs.jti_inj, hkeys⟩
    · exact Nat.lt_succ_of_lt (hs.jti_lt t ht)
    · exact Nat.lt_succ_of_lt (hs.sid_lt t ht n hn)
  | sleep seconds => exact ⟨hs.jti_lt, hs.sid_lt, hs.jti_inj, hkeys⟩
  | mailLink userId token => exact ⟨hs.jti_lt, hs.sid_lt, hs.jti_inj, hkeys⟩
  | _ =>
    rw [exec_stores] at hkeys ⊢
    · exact ⟨hs.jti_lt, hs.sid_lt, hs.jti_inj, hkeys⟩
    · trivial
    · trivial

theorem mem_of_decodes {t : Token} (h : s.decodes t = true) : t ∈ s.issued := by
  have hboth := Bool.and_eq_true_iff.mp h
  simpa using hboth.1

/-- A key that is found is in Redis. -/
theorem mem_of_has {k : Key} (h : s.has k = true) : ∃ e ∈ s.redis, e.key = k := by
  by_contra hno
  have habsent : Absent s.redis k := fun e he hk => hno ⟨e, he, hk⟩
  rw [Server.has, habsent.contains_eq_false] at h
  cases h

theorem Ledger.Wf.found {k : Key} (hq : q.Wf s) (hs : s.Wf) (hk : s.has k = true) :
    (q.found own k).Wf s := by
  unfold Ledger.found
  split
  · rename_i sid
    obtain ⟨e, he, hkey⟩ := mem_of_has hk
    have hlt : sid < s.nextSecret := hs.key_lt e he sid (by rw [hkey]; rfl)
    exact { hq with live := fun n hn => (List.mem_cons.mp hn).elim (fun h => h ▸ hlt) (hq.live n) }
  · split
    · exact { hq with
        minted := fun t ht => Phase.noConfusion ht
        registered := fun t ht => Phase.noConfusion ht }
    · exact hq
  · exact hq

theorem Ledger.Wf.written {k : Key} (hq : q.Wf s) : (q.written k).Wf s := by
  unfold Ledger.written
  split
  · split
    · rename_i t hphase
      exact { hq with
        minted := fun t' ht' => Phase.noConfusion ht'
        registered := fun t' ht' => Phase.registered.inj ht' ▸ hq.minted t hphase }
    · exact hq
  · exact hq

theorem Ledger.Wf.deleted {ks : List Key} (hq : q.Wf s) (hs : s.Wf)
    (h : ∀ sid, Key.sessionSeen sid ∈ ks → ∃ t ∈ q.decoded, t.sid = some sid) :
    (q.deleted own ks).Wf s := by
  have hphase : ∀ p, Ledger.phaseAfterDelete own ks p = .spent ∨
      Ledger.phaseAfterDelete own ks p = p := by
    intro p
    unfold Ledger.phaseAfterDelete
    split
    · exact .inl rfl
    · exact .inr rfl
  have hended : ∀ sid ∈ (q.deleted own ks).ended, sid < s.nextSecret := by
    intro sid hsid
    rcases List.mem_append.mp hsid with hsid | hsid
    · obtain ⟨k, hk, hkey⟩ := List.mem_filterMap.mp hsid
      cases k with
      | sessionSeen n =>
        cases hkey
        obtain ⟨t, ht, htsid⟩ := h sid hk
        exact hs.sid_lt t (hq.decoded t ht) sid htsid
      | _ => cases hkey
    · exact hq.ended sid hsid
  refine { hq with ended := hended, minted := fun t ht => ?_, registered := fun t ht => ?_ }
  · rcases hphase q.phase with h | h
    · cases h.symm.trans ht
    · exact hq.minted t (h.symm.trans ht)
  · rcases hphase q.phase with h | h
    · cases h.symm.trans ht
    · exact hq.registered t (h.symm.trans ht)

/-- The ledger of the sender after a command. -/
theorem Ledger.Wf.note (hq : q.Wf s) (hs : s.Wf) (h : q.Allows cfg own c) :
    (q.note own c (exec c s).1).Wf (exec c s).2 := by
  have hlater : q.Wf (Auth.exec c s).2 := hq.grows (grows_exec c s)
  cases c with
  | decode t =>
    change (q.note own (.decode t) (s.decodes t)).Wf s
    cases hok : s.decodes t with
    | true =>
      have ht := mem_of_decodes hok
      exact { hq with
        decoded := fun t' ht' => (List.mem_cons.mp ht').elim (fun h => h ▸ ht) (hq.decoded t') }
    | false => exact hq
  | mint type sub sid ttl =>
    cases type with
    | refresh =>
      exact { hlater with
        minted := fun t ht => Phase.minted.inj ht ▸ List.mem_cons_self
        registered := fun t ht => Phase.noConfusion ht }
    | _ => exact hlater
  | secret =>
    exact { hlater with
      drawn := fun n hn =>
        (List.mem_cons.mp hn).elim (fun h => h ▸ Nat.lt_succ_self _) (hlater.drawn n) }
  | «exists» k =>
    change (q.note own (.exists k) (s.has k)).Wf s
    cases hok : s.has k with
    | true => exact hq.found hs hok
    | false => exact hq
  | setex k ttl v => exact hlater.written
  | delete ks => exact (hq.deleted hs h).grows (grows_exec (.delete ks) s)
  | mailLink userId token =>
    exact { hlater with drawn := fun n hn => hlater.drawn n (List.mem_filter.mp hn).1 }
  | _ => exact hlater

end Kept

/-! ## What one command does to the phase of a call -/

/-- A step of one call, as far as refresh tokens are concerned. -/
inductive PhaseStep (own : Option Token) (s : Server) (c : Command) : Phase → Phase → Prop where
  | same (p : Phase) (hkeep : ∀ t : Token, ¬ c.Writes t.activeKey) : PhaseStep own s c p p
  | check (t : Token) (hown : own = some t) (hcommand : c = .exists t.activeKey)
      (hfound : s.has t.activeKey = true) : PhaseStep own s c .fresh .checked
  | spend (t : Token) (ks : List Key) (hown : own = some t) (hcommand : c = .delete ks)
      (hmem : t.activeKey ∈ ks) : PhaseStep own s c .checked .spent
  | mint (p : Phase) (r : Token) (hfresh : r.jti = s.nextSecret)
      (hkeep : ∀ t : Token, ¬ c.Writes t.activeKey)
      (hspent : own = none ∨ p = .spent) : PhaseStep own s c p (.minted r)
  | register (r : Token) (hwrites : ∀ k, c.Writes k → k = r.activeKey) :
      PhaseStep own s c (.minted r) (.registered r)

theorem phase_found {own : Option Token} {q : Ledger} {s : Server} {k : Key}
    (hfound : s.has k = true) :
    PhaseStep own s (.exists k) q.phase (q.found own k).phase := by
  unfold Ledger.found
  split
  · exact .same _ fun t h => h
  · split
    · rename_i userId jti hcond
      obtain ⟨t, hown, hkey⟩ := Option.map_eq_some_iff.mp hcond.2
      rw [hcond.1, ← hkey]
      exact .check t hown (by rw [hkey]) (hkey ▸ hfound)
    · exact .same _ fun t h => h
  · exact .same _ fun t h => h

theorem phase_deleted {own : Option Token} {q : Ledger} {s : Server} {ks : List Key} :
    PhaseStep own s (.delete ks) q.phase (q.deleted own ks).phase := by
  change PhaseStep own s (.delete ks) q.phase (Ledger.phaseAfterDelete own ks q.phase)
  unfold Ledger.phaseAfterDelete
  split
  · rename_i hcond
    obtain ⟨t, hown, hmem⟩ := (Option.any_eq_true ..).mp hcond.2
    rw [hcond.1]
    exact .spend t ks hown rfl (by simpa using hmem)
  · exact .same _ fun t h => h

/-- What a command the discipline allows does to the phase of its sender. -/
theorem phase_step {cfg : Settings} {own : Option Token} {q : Ledger} {c : Command} {s : Server}
    (h : q.Allows cfg own c) : PhaseStep own s c q.phase (q.note own c (exec c s).1).phase := by
  cases c with
  | decode t =>
    change PhaseStep own s _ q.phase (q.note own (.decode t) (s.decodes t)).phase
    cases s.decodes t with
    | true => exact .same _ fun t h => h
    | false => exact .same _ fun t h => h
  | mint type sub sid ttl =>
    cases type with
    | refresh =>
      refine .mint _ (s.newToken .refresh sub sid ttl) rfl (fun t h => h) ?_
      cases own with
      | none => exact .inl rfl
      | some t => exact .inr h.2
    | _ => exact .same _ fun t h => h
  | «exists» k =>
    change PhaseStep own s _ q.phase (q.note own (.exists k) (s.has k)).phase
    cases hok : s.has k with
    | true => exact phase_found hok
    | false => exact .same _ fun t h => h
  | setex k ttl v =>
    cases k with
    | refreshActive userId jti =>
      obtain ⟨r, hphase, hkey⟩ := h.1
      have hwritten : (q.written (.refreshActive userId jti)).phase = .registered r := by
        simp [Ledger.written, hphase]
      change PhaseStep own s _ q.phase (q.written (.refreshActive userId jti)).phase
      rw [hwritten, hphase]
      exact .register r fun k hk => hk.symm.trans hkey.symm
    | _ => exact .same _ fun t h => by cases h
  | setNx k ttl =>
    obtain ⟨userId, step, rfl⟩ := h
    exact .same _ fun t h => by cases h
  | delete ks => exact phase_deleted
  | incrExpire ks ttl =>
    refine .same _ fun t hk => ?_
    obtain ⟨_, hkey⟩ | ⟨_, hkey⟩ := h _ hk
    · cases hkey
    · cases hkey
  | _ => exact .same _ fun t h => h

/-! ## Sessions a call holds -/

section Holds

variable {own : Option Token} {q : Ledger} {c : Command} {s : Server} {sid : Nat}

theorem mem_live_found {k : Key} (h : sid ∈ (q.found own k).live) :
    sid ∈ q.live ∨ k = .sessionSeen sid := by
  unfold Ledger.found at h
  split at h
  · rcases List.mem_cons.mp h with rfl | h
    · exact .inr rfl
    · exact .inl h
  · split at h
    · exact .inl h
    · exact .inl h
  · exact .inl h

/-- A call comes to hold a session by finding its key, or by drawing it. -/
theorem holds_note (h : (q.note own c (exec c s).1).Holds sid) :
    q.Holds sid ∨ s.has (.sessionSeen sid) = true ∨ sid = s.nextSecret := by
  cases c with
  | decode t =>
    change (q.note own (.decode t) (s.decodes t)).Holds sid at h
    cases hok : s.decodes t with
    | true => rw [hok] at h; exact .inl h
    | false => rw [hok] at h; exact .inl h
  | mint type sub sid' ttl =>
    cases type with
    | _ => exact .inl h
  | secret =>
    rcases h with h | h
    · exact .inl (.inl h)
    · rcases List.mem_cons.mp h with h | h
      · exact .inr (.inr h)
      · exact .inl (.inr h)
  | «exists» k =>
    change (q.note own (.exists k) (s.has k)).Holds sid at h
    cases hok : s.has k with
    | true =>
      rw [hok] at h
      simp only [Ledger.note, if_true, Ledger.Holds, Ledger.found_drawn] at h
      rcases h with h | h
      · rcases mem_live_found h with h | rfl
        · exact .inl (.inl h)
        · exact .inr (.inl hok)
      · exact .inl (.inr h)
    | false => rw [hok] at h; exact .inl h
  | setex k ttl v => exact .inl (by simpa [Ledger.note, Ledger.Holds] using h)
  | mailLink userId token => exact .inl (h.imp_right fun h => (List.mem_filter.mp h).1)
  | _ => exact .inl h

end Holds

/-! ## One command among many calls -/

/-- A command of one among many calls: the others go on during a delay. -/
def execAmong : (c : Command) → Server → c.Reply × Server
  | .sleep _, s => ((), s)
  | c, s => exec c s

@[simp] theorem execAmong_now (c : Command) (s : Server) : (execAmong c s).2.now = s.now := by
  cases c with
  | sleep seconds => rfl
  | _ => exact now_exec (by simp)

/-! ## A small system -/

/-- Passwords are kept as they are, and every code is `000000`. -/
def plainPrimitives : Primitives where
  hashpw := fun plain _ => plain
  checkpw := fun plain hashed => plain == hashed
  codeAt := fun _ _ => "000000"
  base32 := fun _ => "SECRET"
  lower := fun text => text
  isDigit := Char.isDigit

/-- One registrator, and nobody signed in. -/
def frontDesk : Server where
  users :=
    [{ id := 1, fullName := "Registrator", email := some "desk@royd", passwordHash := some "parol",
       role := .registrator }]
  now := 0

theorem frontDesk_wf : frontDesk.Wf :=
  ⟨by simp [frontDesk], by simp [frontDesk], by simp [frontDesk], by simp [frontDesk]⟩

/-- The registrator signs in. -/
def deskLogin : AuthCall := .login "desk@royd" "parol" "10.0.0.1"

/-- The tokens of the registrator's session, which is number `0`. -/
def deskAccess : Token :=
  { type := .access, sub := 1, jti := 1, sid := some 0, iat := 0, exp := 900 }

def deskRefresh : Token :=
  { type := .refresh, sub := 1, jti := 2, sid := some 0, iat := 0, exp := 604800 }

end Royd.Auth
