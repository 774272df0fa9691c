/-
Royd.Auth.SpentOnce — one refresh token, presented by many calls.

A refresh looks whether its token is active and deletes the token's key some
exchanges later. Two calls that both look before either deletes are both
given a new pair (`raced_refresh_forks`). If every call finds its token only
while no other call stands between its own look and its deletion, at most one
call gets past the deletion, and the tokens that stem from one token form a
chain of which only the last can be valid (`spent_once`).
-/
import Royd.Auth.Atomic
import Royd.Auth.Interleaving
import Mathlib.Logic.Relation

namespace Royd.Auth

open ExpiringStore Programs Runs

variable {prims : Primitives} {cfg : Settings}

/-! ## The claim's words -/

/-- The token a phase has signed. -/
def Phase.signed? : Phase → Option Token
  | .minted t => some t
  | .registered t => some t
  | _ => none

/-- The own token is spent. -/
def Phase.isSpent : Phase → Bool
  | .fresh => false
  | .checked => false
  | _ => true

namespace Running

/-- The call presents the refresh token. -/
def presents (th : Running) (t : Token) : Bool := th.req.spends == some t

/-- The call has found its token active and has not deleted it yet. -/
def between (th : Running) : Bool := th.ledger.phase == .checked && th.next?.isSome

/-- The next command looks for the token and finds it. -/
def finds (th : Running) (s : Server) (t : Token) : Bool :=
  match th.next? with
  | some (.exists k) => k == t.activeKey && s.has k
  | _ => false

/-- The call has answered with a new pair. -/
def renewed (th : Running) : Bool :=
  match th.answer? with
  | some (.tokenPair ..) => true
  | _ => false

end Running

/-- A call finds its token only while no other call that presents the same
token stands between its look and its deletion. -/
def InTurn (w : World) : Message → Prop
  | .step i => ∀ th ∈ w.calls[i]?, ∀ t ∈ th.req.spends, th.finds w.server t = true →
      ∀ j < w.calls.length, j ≠ i → ∀ th' ∈ w.calls[j]?, th'.presents t = true → th'.between = false
  | _ => True

instance (w : World) (m : Message) : Decidable (InTurn w m) :=
  match m with
  | .step i => inferInstanceAs (Decidable
      (∀ th ∈ w.calls[i]?, ∀ t ∈ th.req.spends, th.finds w.server t = true →
        ∀ j < w.calls.length, j ≠ i → ∀ th' ∈ w.calls[j]?, th'.presents t = true →
          th'.between = false))
  | .start _ => .isTrue trivial
  | .drop _ => .isTrue trivial
  | .wait _ => .isTrue trivial
  | .writeUsers _ => .isTrue trivial

/-- Token `t` was exchanged for token `t'`. -/
def World.Exchanged (w : World) (t t' : Token) : Prop :=
  ∃ th ∈ w.calls, th.presents t = true ∧ th.ledger.phase.signed? = some t'

/-- Token `t'` stems from token `t`. -/
def World.Stems (w : World) : Token → Token → Prop := Relation.ReflTransGen w.Exchanged

/-- The refresh token decodes, and `is_refresh_jti_valid` says yes. -/
def Server.ValidRefresh (s : Server) (t : Token) : Prop :=
  s.decodes t = true ∧ t.type = .refresh ∧
    ((isRefreshJtiValid t.sub t.jti).atomically s).1 = .ok true

/-! ## What one command adds to a ledger -/

/-- A token that decoded is remembered. -/
theorem decoded_note {own : Option Token} {q : Ledger} {c : Command} {r : c.Reply} {t : Token}
    (h : t ∈ q.decoded) : t ∈ (q.note own c r).decoded := by
  cases c with
  | decode t' =>
    cases r with
    | true => exact List.mem_cons_of_mem _ h
    | false => exact h
  | mint type sub sid ttl =>
    cases type with
    | _ => exact h
  | «exists» k =>
    cases r with
    | true => simpa [Ledger.note] using h
    | false => exact h
  | setex k ttl v => simpa [Ledger.note] using h
  | _ => exact h

/-! ## Spent once -/

namespace Running

/-- The call has spent its token, or is about to. -/
def Engaged (th : Running) : Prop := th.ledger.phase.isSpent = true ∨ th.between = true

theorem engaged_of_signed {th : Running} {r : Token} (h : th.ledger.phase.signed? = some r) :
    th.ledger.phase.isSpent = true := by
  cases hphase : th.ledger.phase with
  | minted t => rfl
  | registered t => rfl
  | _ => rw [hphase] at h; cases h

end Running

/-- Of the calls that present one token, at most one has spent it or is about
to; the token is active no more once it was spent, and not yet before it is
registered. -/
structure World.Tickets (w : World) : Prop where
  once : ∀ (i j : Nat) (th th' : Running) (t : Token), w.calls[i]? = some th →
    w.calls[j]? = some th' → th.presents t = true → th'.presents t = true →
    th.Engaged → th'.Engaged → i = j
  spent : ∀ (i : Nat) (th : Running) (t : Token), w.calls[i]? = some th → th.presents t = true →
    th.ledger.phase.isSpent = true → Absent w.server.redis t.activeKey
  pending : ∀ (i : Nat) (th : Running) (r : Token), w.calls[i]? = some th →
    th.ledger.phase = .minted r → Absent w.server.redis r.activeKey
  unused : ∀ (i j : Nat) (th th' : Running) (r : Token), w.calls[i]? = some th →
    th.ledger.phase = .minted r → w.calls[j]? = some th' → th'.presents r = true → ¬ th'.Engaged
  signer : ∀ (i j : Nat) (th th' : Running) (r : Token), w.calls[i]? = some th →
    w.calls[j]? = some th' → th.ledger.phase.signed? = some r →
    th'.ledger.phase.signed? = some r → i = j
  known : ∀ (i : Nat) (th : Running) (t : Token), w.calls[i]? = some th → th.presents t = true →
    th.ledger.phase ≠ .fresh → t ∈ th.ledger.decoded

theorem World.tickets_init (s : Server) : World.Tickets { server := s } := by
  constructor
  all_goals simp

theorem Running.Engaged.ne_fresh {th : Running} (h : th.Engaged) : th.ledger.phase ≠ .fresh := by
  intro hphase
  rcases h with h | h
  · rw [hphase] at h
    cases h
  · simp [Running.between, hphase] at h

theorem Running.presents_iff {th : Running} {t : Token} :
    th.presents t = true ↔ th.req.spends = some t := beq_iff_eq

namespace World.Tickets

variable {w : World}

/-- A token that is presented for good was issued. -/
theorem issued {j : Nat} {th : Running} {t : Token} (h : w.Tickets) (hw : w.Wf cfg)
    (hj : w.calls[j]? = some th) (ht : th.presents t = true) (hengaged : th.Engaged) :
    t ∈ w.server.issued :=
  (hw.calls j th hj).2.decoded t (h.known j th t hj ht hengaged.ne_fresh)

/-- The key of a token that is not registered yet is not the key of one that
is presented for good. -/
theorem key_ne {i j : Nat} {th th' : Running} {r t : Token} (h : w.Tickets) (hw : w.Wf cfg)
    (hi : w.calls[i]? = some th) (hr : th.ledger.phase = .minted r) (hj : w.calls[j]? = some th')
    (ht : th'.presents t = true) (hengaged : th'.Engaged) : r.activeKey ≠ t.activeKey := by
  intro hkey
  have hissued := h.issued hw hj ht hengaged
  have hjti : r.jti = t.jti := by
    simp only [Token.activeKey, Key.refreshActive.injEq] at hkey
    exact hkey.2
  have heq : r = t := hw.server.jti_inj r ((hw.calls i th hi).2.minted r hr) t hissued hjti
  exact h.unused i j th th' r hi hr hj (heq ▸ ht) hengaged

/-! ### One call goes on -/

section After

variable {i : Nat} {th : Running} {c : Command} {k : c.Reply → Handler Answer}

/-- The phase of the call that goes on. -/
theorem phase_sent (hw : w.Wf cfg) (hth : w.calls[i]? = some th) (hprog : th.prog = .call c k) :
    PhaseStep th.req.spends w.server c th.ledger.phase
      (th.sent w.server c k).ledger.phase :=
  phase_step ((hw.calls i th hth).1.allows hprog)

/-- A call that is engaged after its command was so before it, or has just
found its token. -/
theorem engaged_sent {t : Token} (hw : w.Wf cfg) (hth : w.calls[i]? = some th)
    (hprog : th.prog = .call c k) (ht : th.presents t = true)
    (hengaged : (th.sent w.server c k).Engaged) :
    th.Engaged ∨ th.finds w.server t = true := by
  have hnext : th.next? = some c := by simp [Thread.next?, hprog]
  have hown := Running.presents_iff.mp ht
  have hphase := phase_sent hw hth hprog
  have hbetween : ∀ {p}, th.ledger.phase = p → p = .checked → th.Engaged := by
    intro p hp hchecked
    exact .inr (by simp [Running.between, hp, hchecked, hnext])
  generalize hp : th.ledger.phase = p at hphase
  generalize hp' : (th.sent w.server c k).ledger.phase = p'
    at hphase
  cases hphase with
  | same _ hkeep =>
    rcases hengaged with hspent | hchecked
    · exact .inl (.inl (by rw [hp, ← hp']; exact hspent))
    · simp only [Running.between, Bool.and_eq_true, beq_iff_eq] at hchecked
      exact .inl (hbetween hp (hp'.symm.trans hchecked.1))
  | check t' hown' hcommand hfound =>
    cases hown.symm.trans hown'
    exact .inr (by simp [Running.finds, hnext, hcommand, hfound])
  | spend t' ks hown' hcommand hmem => exact .inl (hbetween hp rfl)
  | mint _ r hfresh hkeep hspent =>
    rcases hspent with hnone | rfl
    · cases hown.symm.trans hnone
    · exact .inl (.inl (by rw [hp]; rfl))
  | register r hwrites => exact .inl (.inl (by rw [hp]; rfl))

/-- A key that is absent stays so, unless it is the key of the token that the
call registers. -/
theorem absent_sent {t : Token} (hw : w.Wf cfg) (hth : w.calls[i]? = some th)
    (hprog : th.prog = .call c k) (habsent : Absent w.server.redis t.activeKey)
    (hne : ∀ r, th.ledger.phase = .minted r →
      (th.sent w.server c k).ledger.phase = .registered r →
      r.activeKey ≠ t.activeKey) :
    Absent (exec c w.server).2.redis t.activeKey := by
  refine absent_exec habsent fun hwrites => ?_
  have hphase := phase_sent hw hth hprog
  generalize hp : th.ledger.phase = p at hphase hne
  generalize (th.sent w.server c k).ledger.phase = p'
    at hphase hne
  cases hphase with
  | same _ hkeep => exact hkeep t hwrites
  | check t' hown hcommand hfound => rw [hcommand] at hwrites; exact hwrites
  | spend t' ks hown hcommand hmem => rw [hcommand] at hwrites; exact hwrites
  | mint _ r hfresh hkeep hspent => exact hkeep t hwrites
  | register r hregister => exact hne r rfl rfl (hregister _ hwrites).symm

/-- The own token of a call that is spent was spent before, or its key is
deleted by the command. -/
theorem spent_sent {t : Token} (hw : w.Wf cfg) (hth : w.calls[i]? = some th)
    (hprog : th.prog = .call c k) (ht : th.presents t = true)
    (hspent : (th.sent w.server c k).ledger.phase.isSpent = true) :
    th.ledger.phase.isSpent = true ∨ ∃ ks, c = .delete ks ∧ t.activeKey ∈ ks := by
  have hown := Running.presents_iff.mp ht
  have hphase := phase_sent hw hth hprog
  generalize hp : th.ledger.phase = p at hphase
  generalize (th.sent w.server c k).ledger.phase = p'
    at hphase hspent
  cases hphase with
  | same _ hkeep => exact .inl hspent
  | check t' hown' hcommand hfound => cases hspent
  | spend t' ks hown' hcommand hmem =>
    cases hown.symm.trans hown'
    exact .inr ⟨ks, hcommand, hmem⟩
  | mint _ r hfresh hkeep hspent' =>
    rcases hspent' with hnone | rfl
    · cases hown.symm.trans hnone
    · exact .inl rfl
  | register r hwrites => exact .inl rfl

/-- The token a call has signed was signed before, or it is new. -/
theorem signed_after {j : Nat} {th' : Running} {r : Token} (hw : w.Wf cfg)
    (hth : w.calls[i]? = some th) (hprog : th.prog = .call c k)
    (hj : (w.after i th c k).calls[j]? = some th') (hr : th'.ledger.phase.signed? = some r) :
    (∃ th₀ : Running, w.calls[j]? = some th₀ ∧ th₀.ledger.phase.signed? = some r) ∨
      (j = i ∧ r.jti = w.server.nextSecret) := by
  rcases call_after hj with ⟨rfl, rfl⟩ | ⟨-, hold⟩
  · have hphase := phase_sent hw hth hprog
    generalize hp : th.ledger.phase = p at hphase
    generalize (th.sent w.server c k).ledger.phase = p'
      at hphase hr
    cases hphase with
    | same _ hkeep => exact .inl ⟨th, hth, by rw [hp]; exact hr⟩
    | check t' hown hcommand hfound => cases hr
    | spend t' ks hown hcommand hmem => cases hr
    | mint _ r' hfresh hkeep hspent =>
      cases hr
      exact .inr ⟨rfl, hfresh⟩
    | register r' hwrites => exact .inl ⟨th, hth, by rw [hp]; exact hr⟩
  · exact .inl ⟨th', hold, hr⟩

/-- A token that waits for its registration did so before, or it is new and
its key is not written. -/
theorem minted_after {j : Nat} {th' : Running} {r : Token} (hw : w.Wf cfg)
    (hth : w.calls[i]? = some th) (hprog : th.prog = .call c k)
    (hj : (w.after i th c k).calls[j]? = some th') (hr : th'.ledger.phase = .minted r) :
    (∃ th₀ : Running, w.calls[j]? = some th₀ ∧ th₀.ledger.phase = .minted r) ∨
      (r.jti = w.server.nextSecret ∧ ¬ c.Writes r.activeKey) := by
  rcases call_after hj with ⟨rfl, rfl⟩ | ⟨-, hold⟩
  · have hphase := phase_sent hw hth hprog
    rw [hr] at hphase
    generalize hp : th.ledger.phase = p at hphase
    cases hphase with
    | same _ hkeep => exact .inl ⟨th, hth, hp⟩
    | mint _ _ hfresh hkeep hspent => exact .inr ⟨hfresh, hkeep r⟩
  · exact .inl ⟨th', hold, hr⟩

/-- A call that is engaged was so before, or it has just found its token. -/
theorem engaged_after {j : Nat} {th' : Running} {t : Token} (hw : w.Wf cfg)
    (hth : w.calls[i]? = some th) (hprog : th.prog = .call c k)
    (hj : (w.after i th c k).calls[j]? = some th') (ht : th'.presents t = true)
    (hengaged : th'.Engaged) :
    ∃ th₀ : Running, w.calls[j]? = some th₀ ∧ th₀.presents t = true ∧
      (th₀.Engaged ∨ j = i ∧ th₀.finds w.server t = true) := by
  rcases call_after hj with ⟨rfl, rfl⟩ | ⟨-, hold⟩
  · refine ⟨th, hth, ht, ?_⟩
    exact (engaged_sent hw hth hprog ht hengaged).imp_right fun hfinds => ⟨rfl, hfinds⟩
  · exact ⟨th', hold, ht, .inl hengaged⟩

/-- What is found is there. -/
theorem has_of_finds {s : Server} {t : Token} (h : th.finds s t = true) : s.has t.activeKey = true := by
  unfold Running.finds at h
  split at h
  · simp only [Bool.and_eq_true, beq_iff_eq] at h
    exact h.1 ▸ h.2
  · cases h

/-- A key that is absent is not found. -/
theorem not_finds {s : Server} {t : Token} (h : Absent s.redis t.activeKey) :
    ¬ th.finds s t = true := by
  intro hfinds
  have hhas := has_of_finds hfinds
  rw [Server.has, h.contains_eq_false] at hhas
  cases hhas

/-- A call that finds its token in turn is the only one engaged with it. -/
theorem finds_alone {j : Nat} {th' : Running} {t : Token} (h : w.Tickets)
    (hturn : InTurn w (.step i)) (hth : w.calls[i]? = some th) (hfinds : th.finds w.server t = true)
    (ht : th.presents t = true) (hj : w.calls[j]? = some th') (ht' : th'.presents t = true)
    (hengaged : th'.Engaged) : j = i := by
  by_contra hne
  rcases hengaged with hspent | hbetween
  · exact not_finds (h.spent j th' t hj ht' hspent) hfinds
  · have hlt := (List.getElem?_eq_some_iff.mp hj).1
    rw [hturn th hth t (Running.presents_iff.mp ht) hfinds j hlt hne th' hj ht'] at hbetween
    cases hbetween

/-- A token a call has signed was issued. -/
theorem signed_lt {j : Nat} {th' : Running} {r : Token} (hw : w.Wf cfg) (hj : w.calls[j]? = some th')
    (hr : th'.ledger.phase.signed? = some r) : r.jti < w.server.nextSecret := by
  refine hw.server.jti_lt r ?_
  cases hphase : th'.ledger.phase with
  | minted r' =>
    rw [hphase] at hr
    cases hr
    exact (hw.calls j th' hj).2.minted r hphase
  | registered r' =>
    rw [hphase] at hr
    cases hr
    exact (hw.calls j th' hj).2.registered r hphase
  | _ => rw [hphase] at hr; cases hr

/-- A call that leaves its first phase has read its own token. -/
theorem decoded_sent {t : Token} (hw : w.Wf cfg) (hth : w.calls[i]? = some th)
    (hprog : th.prog = .call c k) (ht : th.presents t = true) (hwas : th.ledger.phase = .fresh)
    (hleft : (th.sent w.server c k).ledger.phase ≠ .fresh) : t ∈ th.ledger.decoded := by
  have hown := Running.presents_iff.mp ht
  have hphase := phase_sent hw hth hprog
  rw [hwas] at hphase
  generalize (th.sent w.server c k).ledger.phase = p' at hphase hleft
  cases hphase with
  | same _ hkeep => exact absurd rfl hleft
  | check t' hown' hcommand hfound =>
    have hallows := (hw.calls i th hth).1.allows hprog
    rw [hcommand] at hallows
    obtain ⟨t'', hmem, hown'', -⟩ := hallows
    cases hown.symm.trans hown''
    exact hmem
  | mint _ r hjti hkeep hspent =>
    rcases hspent with hnone | hspent
    · cases hown.symm.trans hnone
    · cases hspent

theorem after (h : w.Tickets) (hw : w.Wf cfg) (hturn : InTurn w (.step i))
    (hth : w.calls[i]? = some th) (hprog : th.prog = .call c k) : (w.after i th c k).Tickets where
  once := by
    intro j j' th₁ th₂ t hj hj' ht₁ ht₂ he₁ he₂
    obtain ⟨old₁, hold₁, hp₁, was₁⟩ := engaged_after hw hth hprog hj ht₁ he₁
    obtain ⟨old₂, hold₂, hp₂, was₂⟩ := engaged_after hw hth hprog hj' ht₂ he₂
    rcases was₁ with was₁ | ⟨rfl, hfinds₁⟩
    · rcases was₂ with was₂ | ⟨rfl, hfinds₂⟩
      · exact h.once j j' old₁ old₂ t hold₁ hold₂ hp₁ hp₂ was₁ was₂
      · exact h.finds_alone hturn hold₂ hfinds₂ hp₂ hold₁ hp₁ was₁
    · rcases was₂ with was₂ | ⟨rfl, -⟩
      · exact (h.finds_alone hturn hold₁ hfinds₁ hp₁ hold₂ hp₂ was₂).symm
      · rfl
  spent := by
    intro j th' t hj ht hspent
    have hkept : ∀ th₀ : Running, w.calls[j]? = some th₀ → th₀.presents t = true →
        th₀.ledger.phase.isSpent = true → Absent (exec c w.server).2.redis t.activeKey := by
      intro th₀ hth₀ ht₀ hspent₀
      refine absent_sent hw hth hprog (h.spent j th₀ t hth₀ ht₀ hspent₀) fun r hr _ => ?_
      exact h.key_ne hw hth hr hth₀ ht₀ (.inl hspent₀)
    rcases call_after hj with ⟨rfl, rfl⟩ | ⟨-, hold⟩
    · rcases spent_sent hw hth hprog ht hspent with hspent | ⟨ks, rfl, hmem⟩
      · exact hkept th hth ht hspent
      · exact absent_delete w.server.redis hmem
    · exact hkept th' hold ht hspent
  pending := by
    intro j th' r hj hr
    rcases minted_after hw hth hprog hj hr with ⟨th₀, hth₀, hr₀⟩ | ⟨hfresh, hkeep⟩
    · refine absent_sent hw hth hprog (h.pending j th₀ r hth₀ hr₀) fun r' hr' hregistered hkey => ?_
      have hjti : r'.jti = r.jti := by
        simp only [Token.activeKey, Key.refreshActive.injEq] at hkey
        exact hkey.2
      have heq : r' = r := hw.server.jti_inj r' ((hw.calls i th hth).2.minted r' hr') r
        ((hw.calls j th₀ hth₀).2.minted r hr₀) hjti
      subst heq
      have hij : j = i := h.signer j i th₀ th r' hth₀ hth (by rw [hr₀]; rfl) (by rw [hr']; rfl)
      subst hij
      rcases call_after hj with ⟨-, rfl⟩ | ⟨hne, -⟩
      · cases hr.symm.trans hregistered
      · exact hne rfl
    · refine absent_exec (fun e he hkey => ?_) hkeep
      have hlt := hw.server.key_lt e he r.jti (by rw [hkey]; rfl)
      exact absurd hfresh (Nat.ne_of_lt hlt)
  unused := by
    intro j j' th₁ th₂ r hj hr hj' ht hengaged
    obtain ⟨old₂, hold₂, hp₂, was₂⟩ := engaged_after hw hth hprog hj' ht hengaged
    rcases minted_after hw hth hprog hj hr with ⟨th₀, hth₀, hr₀⟩ | ⟨hfresh, -⟩
    · rcases was₂ with was₂ | ⟨rfl, hfinds⟩
      · exact h.unused j j' th₀ old₂ r hth₀ hr₀ hold₂ hp₂ was₂
      · exact not_finds (h.pending j th₀ r hth₀ hr₀) hfinds
    · rcases was₂ with was₂ | ⟨rfl, hfinds⟩
      · have hlt := hw.server.jti_lt r (h.issued hw hold₂ hp₂ was₂)
        exact absurd hfresh (Nat.ne_of_lt hlt)
      · obtain ⟨e, he, hkey⟩ := mem_of_has (has_of_finds hfinds)
        have hlt := hw.server.key_lt e he r.jti (by rw [hkey]; rfl)
        exact absurd hfresh (Nat.ne_of_lt hlt)
  signer := by
    intro j j' th₁ th₂ r hj hj' hr₁ hr₂
    rcases signed_after hw hth hprog hj hr₁ with ⟨old₁, hold₁, was₁⟩ | ⟨rfl, hfresh₁⟩
    · rcases signed_after hw hth hprog hj' hr₂ with ⟨old₂, hold₂, was₂⟩ | ⟨rfl, hfresh₂⟩
      · exact h.signer j j' old₁ old₂ r hold₁ hold₂ was₁ was₂
      · exact absurd hfresh₂ (Nat.ne_of_lt (signed_lt hw hold₁ was₁))
    · rcases signed_after hw hth hprog hj' hr₂ with ⟨old₂, hold₂, was₂⟩ | ⟨rfl, -⟩
      · exact absurd hfresh₁ (Nat.ne_of_lt (signed_lt hw hold₂ was₂))
      · rfl
  known := by
    intro j th' t hj ht hfresh
    rcases call_after hj with ⟨rfl, rfl⟩ | ⟨-, hold⟩
    · rw [ledger_sent]
      refine decoded_note ?_
      by_cases hwas : th.ledger.phase = .fresh
      · exact decoded_sent hw hth hprog ht hwas hfresh
      · exact h.known j th t hth ht hwas
    · exact h.known j th' t hold ht hfresh

end After

/-! ### Any message -/

/-- Messages that let no call go on leave everything as it is, for the calls
that have done something. -/
theorem of_calls {w' : World} (h : w.Tickets) (hredis : w'.server.redis = w.server.redis)
    (hcalls : ∀ (j : Nat) (th' : Running), w'.calls[j]? = some th' → th'.ledger.phase ≠ .fresh →
      ∃ th : Running, w.calls[j]? = some th ∧ th'.req = th.req ∧ th'.ledger = th.ledger ∧
        (th'.Engaged → th.Engaged)) : w'.Tickets := by
  have hpresents : ∀ {th th' : Running} {t : Token}, th'.req = th.req → th'.presents t = true →
      th.presents t = true := by
    intro th th' t hreq ht
    rwa [Running.presents, ← hreq]
  have hsigned : ∀ {th' : Running} {r : Token}, th'.ledger.phase.signed? = some r →
      th'.ledger.phase ≠ .fresh := by
    intro th' r hr hphase
    rw [hphase] at hr
    cases hr
  constructor
  · intro i j th th' t hi hj ht ht' he he'
    obtain ⟨old, hold, hreq, -, hwas⟩ := hcalls i th hi he.ne_fresh
    obtain ⟨old', hold', hreq', -, hwas'⟩ := hcalls j th' hj he'.ne_fresh
    exact h.once i j old old' t hold hold' (hpresents hreq ht) (hpresents hreq' ht') (hwas he)
      (hwas' he')
  · intro i th t hi ht hspent
    obtain ⟨old, hold, hreq, hledger, -⟩ := hcalls i th hi (Running.Engaged.ne_fresh (.inl hspent))
    rw [hredis]
    exact h.spent i old t hold (hpresents hreq ht) (hledger ▸ hspent)
  · intro i th r hi hr
    obtain ⟨old, hold, -, hledger, -⟩ := hcalls i th hi (by rw [hr]; simp)
    rw [hredis]
    exact h.pending i old r hold (hledger ▸ hr)
  · intro i j th th' r hi hr hj ht he
    obtain ⟨old, hold, -, hledger, -⟩ := hcalls i th hi (by rw [hr]; simp)
    obtain ⟨old', hold', hreq', -, hwas'⟩ := hcalls j th' hj he.ne_fresh
    exact h.unused i j old old' r hold (hledger ▸ hr) hold' (hpresents hreq' ht) (hwas' he)
  · intro i j th th' r hi hj hr hr'
    obtain ⟨old, hold, -, hledger, -⟩ := hcalls i th hi (hsigned hr)
    obtain ⟨old', hold', -, hledger', -⟩ := hcalls j th' hj (hsigned hr')
    exact h.signer i j old old' r hold hold' (hledger ▸ hr) (hledger' ▸ hr')
  · intro i th t hi ht hfresh
    obtain ⟨old, hold, hreq, hledger, -⟩ := hcalls i th hi hfresh
    rw [hledger] at hfresh ⊢
    exact h.known i old t hold (hpresents hreq ht) hfresh

theorem exchange (h : w.Tickets) (hw : w.Wf cfg) (m : Message) (hturn : InTurn w m) :
    (exchange prims cfg w m).Tickets := by
  cases m with
  | start call =>
    refine h.of_calls rfl fun j th' hj hfresh => ?_
    rcases call_start hj with hold | ⟨-, rfl⟩
    · exact ⟨th', hold, rfl, rfl, id⟩
    · exact absurd rfl hfresh
  | step i =>
    rcases exchange_step prims cfg w i with heq | ⟨th, c, k, hth, hprog, heq⟩
    · rw [heq]
      exact h
    · rw [heq]
      exact h.after hw hturn hth hprog
  | drop i =>
    refine h.of_calls rfl fun j th' hj _ => ?_
    rcases call_drop hj with hold | ⟨th, hold, rfl⟩
    · exact ⟨th', hold, rfl, rfl, id⟩
    · refine ⟨th, hold, rfl, rfl, fun he => ?_⟩
      rcases he with hspent | hbetween
      · exact .inl hspent
      · simp [Running.between, Running.abort, Thread.next?] at hbetween
  | wait seconds => exact ⟨h.once, h.spent, h.pending, h.unused, h.signer, h.known⟩
  | writeUsers users => exact ⟨h.once, h.spent, h.pending, h.unused, h.signer, h.known⟩

end World.Tickets

/-- The two invariants, along a run in which the calls look in turn. -/
theorem run_tickets {w : World} {ms : List Message} (hw : w.Wf cfg) (h : w.Tickets)
    (hrun : Along (exchange prims cfg) InTurn w ms) :
    (run (exchange prims cfg) w ms).Wf cfg ∧ (run (exchange prims cfg) w ms).Tickets :=
  run_invariant_along (I := fun w : World => w.Wf cfg ∧ w.Tickets)
    (fun _ m hw hm => ⟨hw.1.exchange m, hw.2.exchange hw.1 m hm⟩) ⟨hw, h⟩ hrun

/-! ## What it means -/

section Consequences

variable {w : World}

/-- A call that has answered with a new pair has spent its token. -/
theorem engaged_of_renewed {i : Nat} {th : Running} {t : Token} (hw : w.Wf cfg)
    (hi : w.calls[i]? = some th) (ht : th.presents t = true) (hrenewed : th.renewed = true) :
    th.Engaged := by
  unfold Running.renewed at hrenewed
  split at hrenewed
  · rename_i hanswer
    obtain ⟨r, hr⟩ := ((hw.calls i th hi).1.answered hanswer).spent t (Running.presents_iff.mp ht)
    exact .inl (by rw [hr]; rfl)
  · cases hrenewed

/-- Every token is exchanged for one other at most. -/
theorem World.Tickets.exchanged_unique (h : w.Tickets) : Relator.RightUnique w.Exchanged := by
  rintro t a b ⟨th, hmem, ht, ha⟩ ⟨th', hmem', ht', hb⟩
  obtain ⟨i, hi⟩ := List.mem_iff_getElem?.mp hmem
  obtain ⟨j, hj⟩ := List.mem_iff_getElem?.mp hmem'
  have hij := h.once i j th th' t hi hj ht ht' (.inl (Running.engaged_of_signed ha))
    (.inl (Running.engaged_of_signed hb))
  subst hij
  cases hi.symm.trans hj
  exact Option.some.inj (ha.symm.trans hb)

/-- A token that was exchanged is not valid any more. -/
theorem World.Tickets.not_valid_of_exchanged {t t' : Token} (h : w.Tickets)
    (hexchanged : w.Exchanged t t') : ¬ w.server.ValidRefresh t := by
  rintro ⟨-, -, hvalid⟩
  obtain ⟨th, hmem, ht, hsigned⟩ := hexchanged
  obtain ⟨i, hi⟩ := List.mem_iff_getElem?.mp hmem
  have habsent := h.spent i th t hi ht (Running.engaged_of_signed hsigned)
  have hgone : w.server.has t.activeKey = false := habsent.contains_eq_false w.server.now
  rw [isRefreshJtiValid_atomically, Server.jtiValid, ← Token.activeKey, hgone] at hvalid
  simp at hvalid

/-- Of the tokens that stem from one token, at most one is valid. -/
theorem World.Tickets.valid_unique {t a b : Token} (h : w.Tickets) (ha : w.Stems t a)
    (hb : w.Stems t b) (hvalidA : w.server.ValidRefresh a) (hvalidB : w.server.ValidRefresh b) :
    a = b := by
  have hlast : ∀ {x y}, w.Stems x y → w.server.ValidRefresh x → x = y := by
    intro x y hxy hvalid
    rcases hxy.cases_head with rfl | ⟨z, hxz, -⟩
    · rfl
    · exact absurd hvalid (h.not_valid_of_exchanged hxz)
  rcases ha.total_of_right_unique h.exchanged_unique hb with hab | hba
  · exact hlast hab hvalidA
  · exact (hlast hba hvalidB).symm

end Consequences

/-- In every run whose calls look for their token in turn, at most one call
that presents a token is given a new pair, and of the tokens that stem from
it at most one is valid. -/
theorem spent_once (prims : Primitives) (cfg : Settings) (s : Server) (hs : s.Wf)
    (ms : List Message) (hturn : Along (exchange prims cfg) InTurn { server := s } ms) (t : Token) :
    let w := run (exchange prims cfg) { server := s } ms
    (∀ (i j : Nat) (th th' : Running), w.calls[i]? = some th → w.calls[j]? = some th' →
      th.presents t = true → th'.presents t = true → th.renewed = true → th'.renewed = true →
      i = j) ∧
      ∀ a b, w.Stems t a → w.Stems t b → w.server.ValidRefresh a → w.server.ValidRefresh b →
        a = b := by
  obtain ⟨hw, htickets⟩ := run_tickets (.init hs) (World.tickets_init s) hturn
  refine ⟨fun i j th th' hi hj ht ht' hr hr' => ?_, fun a b => htickets.valid_unique⟩
  exact htickets.once i j th th' t hi hj ht ht' (engaged_of_renewed hw hi ht hr)
    (engaged_of_renewed hw hj ht' hr')

/-- Two calls present the registrator's refresh token. The second looks for
it after the first has spent it. -/
def refreshTwice : List Message :=
  .start deskLogin :: goes 0 8 ++ .start (.refresh none (some deskRefresh)) :: goes 1 11
    ++ .start (.refresh none (some deskRefresh)) :: goes 2 3

/-- The world after both calls. -/
def deskTwice : World := run (exchange plainPrimitives {}) { server := frontDesk } refreshTwice

theorem spent_once_desk :
    (∀ (i j : Nat) (th th' : Running), deskTwice.calls[i]? = some th → deskTwice.calls[j]? = some th' →
      th.presents deskRefresh = true → th'.presents deskRefresh = true →
      th.renewed = true → th'.renewed = true → i = j) ∧
      ∀ a b, deskTwice.Stems deskRefresh a → deskTwice.Stems deskRefresh b →
        deskTwice.server.ValidRefresh a → deskTwice.server.ValidRefresh b → a = b :=
  spent_once plainPrimitives {} frontDesk frontDesk_wf refreshTwice (by decide +kernel) deskRefresh

/-- Two calls look for the registrator's refresh token before either has
deleted it. -/
def refreshRace : List Message :=
  .start deskLogin :: goes 0 8
    ++ .start (.refresh none (some deskRefresh)) :: .start (.refresh none (some deskRefresh))
    :: goes 1 3 ++ goes 2 3 ++ goes 1 8 ++ goes 2 8

/-- Both calls are given a new pair, and both new refresh tokens are valid. -/
theorem raced_refresh_forks :
    let w := run (exchange plainPrimitives {}) { server := frontDesk } refreshRace
    (∀ i ∈ [1, 2], ∃ th ∈ w.calls[i]?, th.presents deskRefresh = true ∧ th.renewed = true) ∧
      ∀ jti ∈ [3, 5], w.server.jtiValid 1 jti = true := by
  decide +kernel

end Royd.Auth
