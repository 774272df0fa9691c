/-
Royd.Lib.Programs — programs that issue commands to a shared machine, run
alone or interleaved.

A program is a tree: it returns, it raises, or it issues a command and goes
on with the reply. What a command does is fixed by a machine `exec`; a
program is then run in one piece (`Prog.run`), or one command at a time as a
`Thread` among others (`Thread.step`).

`Obeys` is the logic of such programs. A monitor is an automaton that reads
the commands of one program with their replies; `allows q c` says that it
lets `c` be issued in state `q`, `possible c r` what is known of the reply.
A program obeys it from `q` if it issues only what is allowed, whatever the
replies are, and returns only values `post` accepts. The rules:

* `obeys_bind`, `Obeys.mono` — sequencing and consequence, as for Hoare
  triples;
* `Obeys.prod` — what two monitors say of a program, they say together;
* `Avoids.bind` — what none of the parts of a sequence raises, it does not;
* `Sends.obeys` — a program whose commands the monitor does not see leaves it
  where it is;
* `Obeys.run` — what the allowed commands keep, a run in one piece keeps;
* `Thread.Obeys.call` — a thread issues only what is allowed, and still obeys
  the monitor afterwards.
-/

namespace Programs

universe u

/-- A program that issues commands `c : C`, gets replies of type `R c`,
raises errors of type `ε` and returns an `α`. -/
inductive Prog (C : Type) (R : C → Type) (ε α : Type) where
  | pure (a : α)
  | raise (e : ε)
  | call (c : C) (k : R c → Prog C R ε α)

variable {C : Type} {R : C → Type} {ε α β : Type} {σ : Type u}

namespace Prog

/-- The program that goes on with what `p` returns. -/
def bind (p : Prog C R ε α) (f : α → Prog C R ε β) : Prog C R ε β :=
  match p with
  | pure a => f a
  | raise e => raise e
  | call c k => call c fun r => (k r).bind f

instance : Monad (Prog C R ε) where
  pure := Prog.pure
  bind := Prog.bind

/-- The program that issues one command and returns its reply. -/
def issue (c : C) : Prog C R ε (R c) := call c Prog.pure

/-- The program run in one piece. -/
def run (exec : (c : C) → σ → R c × σ) : Prog C R ε α → σ → Except ε α × σ
  | pure a, s => (.ok a, s)
  | raise e, s => (.error e, s)
  | call c k, s => run exec (k (exec c s).1) (exec c s).2

section Run

variable (exec : (c : C) → σ → R c × σ) (s : σ)

@[simp] theorem run_pure (a : α) : (Pure.pure a : Prog C R ε α).run exec s = (.ok a, s) := rfl

@[simp] theorem run_raise (e : ε) : (raise e : Prog C R ε α).run exec s = (.error e, s) := rfl

@[simp] theorem run_issue (c : C) :
    (issue c : Prog C R ε (R c)).run exec s = (.ok (exec c s).1, (exec c s).2) := rfl

/-- A sequence runs one program after the other, unless the first raises. -/
theorem run_bind (p : Prog C R ε α) (f : α → Prog C R ε β) :
    (p >>= f).run exec s =
      match p.run exec s with
      | (.ok a, s') => (f a).run exec s'
      | (.error e, s') => (.error e, s') := by
  induction p generalizing s with
  | pure a => rfl
  | raise e => rfl
  | call c k ih => exact ih _ _

variable {exec s}

/-- A sequence returned: the first program did, and the second from there. -/
theorem run_bind_eq_ok {p : Prog C R ε α} {f : α → Prog C R ε β} {b : β} {s' : σ} :
    (p >>= f).run exec s = (.ok b, s') ↔
      ∃ a s₁, p.run exec s = (.ok a, s₁) ∧ (f a).run exec s₁ = (.ok b, s') := by
  rw [run_bind]
  rcases p.run exec s with ⟨_ | a, s₁⟩
  · simp
  · constructor
    · exact fun h => ⟨a, s₁, rfl, h⟩
    · rintro ⟨a', s', heq, h⟩
      cases heq
      exact h

end Run

@[simp] theorem pure_bind (a : α) (f : α → Prog C R ε β) :
    (Pure.pure a : Prog C R ε α) >>= f = f a := rfl

@[simp] theorem raise_bind (e : ε) (f : α → Prog C R ε β) :
    (raise e : Prog C R ε α) >>= f = raise e := rfl

@[simp] theorem call_bind (c : C) (k : R c → Prog C R ε α) (f : α → Prog C R ε β) :
    (call c k) >>= f = call c fun r => k r >>= f := rfl

@[simp] theorem issue_bind (c : C) (f : R c → Prog C R ε β) :
    issue c >>= f = call c f := rfl

end Prog

/-! ## Monitors -/

/-- An automaton that reads the commands of one program. -/
structure Monitor (C : Type) (R : C → Type) (Q : Type) where
  allows : Q → C → Prop
  possible : (c : C) → R c → Prop
  next : Q → (c : C) → R c → Q

variable {Q : Type} (m : Monitor C R Q)

/-- From state `q` on, the program issues only allowed commands and returns
only what `post` accepts. -/
def Obeys (post : Q → α → Prop) : Q → Prog C R ε α → Prop
  | q, .pure a => post q a
  | _, .raise _ => True
  | q, .call c k => m.allows q c ∧ ∀ r, m.possible c r → Obeys post (m.next q c r) (k r)

variable {m}

section Rules

variable {post : Q → α → Prop} {q : Q}

@[simp] theorem obeys_pure {a : α} :
    Obeys m post q (Pure.pure a : Prog C R ε α) ↔ post q a := Iff.rfl

@[simp] theorem obeys_prog_pure {a : α} :
    Obeys m post q (Prog.pure a : Prog C R ε α) ↔ post q a := Iff.rfl

@[simp] theorem obeys_raise {e : ε} : Obeys m post q (.raise e : Prog C R ε α) := trivial

@[simp] theorem obeys_call {c : C} {k : R c → Prog C R ε α} :
    Obeys m post q (.call c k) ↔
      m.allows q c ∧ ∀ r, m.possible c r → Obeys m post (m.next q c r) (k r) := Iff.rfl

@[simp] theorem obeys_issue {c : C} {post : Q → R c → Prop} :
    Obeys m post q (Prog.issue c : Prog C R ε (R c)) ↔
      m.allows q c ∧ ∀ r, m.possible c r → post (m.next q c r) r := Iff.rfl

/-- Sequencing: the second program starts where the first one ends. -/
@[simp] theorem obeys_bind {post : Q → β → Prop} {p : Prog C R ε α} {f : α → Prog C R ε β} :
    Obeys m post q (p >>= f) ↔ Obeys m (fun q' a => Obeys m post q' (f a)) q p := by
  induction p generalizing q with
  | pure a => exact Iff.rfl
  | raise e => exact Iff.rfl
  | call c k ih => exact and_congr_right fun _ => forall_congr' fun r => imp_congr_right fun _ => ih r

@[simp] theorem obeys_ite {b : Prop} [Decidable b] {p p' : Prog C R ε α} :
    Obeys m post q (if b then p else p') ↔ (b → Obeys m post q p) ∧ (¬ b → Obeys m post q p') := by
  split
  · simp [*]
  · simp [*]

/-- Consequence. -/
theorem Obeys.mono {post' : Q → α → Prop} {p : Prog C R ε α} (hp : Obeys m post q p)
    (h : ∀ q' a, post q' a → post' q' a) : Obeys m post' q p := by
  induction p generalizing q with
  | pure a => exact h q a hp
  | raise e => trivial
  | call c k ih => exact ⟨hp.1, fun r hr => ih r (hp.2 r hr)⟩

end Rules

/-! ## Two monitors at once -/

/-- Both monitors read the commands, and both must let one through. -/
def Monitor.prod {Q' : Type} (m : Monitor C R Q) (m' : Monitor C R Q') : Monitor C R (Q × Q') where
  allows q c := m.allows q.1 c ∧ m'.allows q.2 c
  possible c r := m.possible c r ∧ m'.possible c r
  next q c r := (m.next q.1 c r, m'.next q.2 c r)

/-- A program that obeys each of two monitors obeys them together. -/
theorem Obeys.prod {Q' : Type} {m' : Monitor C R Q'} {post : Q → α → Prop} {post' : Q' → α → Prop}
    {p : Prog C R ε α} {q : Q} {q' : Q'} (hp : Obeys m post q p) (hp' : Obeys m' post' q' p) :
    Obeys (m.prod m') (fun q a => post q.1 a ∧ post' q.2 a) (q, q') p := by
  induction p generalizing q q' with
  | pure a => exact ⟨hp, hp'⟩
  | raise e => trivial
  | call c k ih => exact ⟨⟨hp.1, hp'.1⟩, fun r hr => ih r (hp.2 r hr.1) (hp'.2 r hr.2)⟩

/-! ## Errors a program does not raise -/

/-- Whatever the replies are that `possible` lets through, the program does
not raise an error that `bad` names. -/
def Avoids (possible : (c : C) → R c → Prop) (bad : ε → Prop) : Prog C R ε α → Prop
  | .pure _ => True
  | .raise e => ¬ bad e
  | .call c k => ∀ r, possible c r → Avoids possible bad (k r)

section Avoids

variable {possible : (c : C) → R c → Prop} {bad : ε → Prop}

@[simp] theorem avoids_pure {a : α} : Avoids possible bad (Pure.pure a : Prog C R ε α) := trivial

@[simp] theorem avoids_raise {e : ε} :
    Avoids possible bad (.raise e : Prog C R ε α) ↔ ¬ bad e := Iff.rfl

@[simp] theorem avoids_call {c : C} {k : R c → Prog C R ε α} :
    Avoids possible bad (.call c k) ↔ ∀ r, possible c r → Avoids possible bad (k r) := Iff.rfl

@[simp] theorem avoids_issue {c : C} :
    Avoids possible bad (Prog.issue c : Prog C R ε (R c)) := fun _ _ => trivial

/-- A sequence raises what one of its parts does. -/
theorem Avoids.bind {p : Prog C R ε α} {f : α → Prog C R ε β} (hp : Avoids possible bad p)
    (hf : ∀ a, Avoids possible bad (f a)) : Avoids possible bad (p >>= f) := by
  induction p with
  | pure a => exact hf a
  | raise e => exact hp
  | call c k ih => exact fun r hr => ih r (hp r hr)

end Avoids

/-! ## Commands a program does not send -/

/-- Whatever the replies are, the program sends only commands of `P`. -/
def Sends (P : C → Prop) : Prog C R ε α → Prop
  | .pure _ => True
  | .raise _ => True
  | .call c k => P c ∧ ∀ r, Sends P (k r)

/-- The monitor lets the command through in every state, and does not note it. -/
def Monitor.Blind (m : Monitor C R Q) (c : C) : Prop := ∀ q, m.allows q c ∧ ∀ r, m.next q c r = q

section Sends

variable {P : C → Prop}

theorem sends_pure (a : α) : Sends P (Pure.pure a : Prog C R ε α) := trivial

theorem sends_raise (e : ε) : Sends P (.raise e : Prog C R ε α) := trivial

theorem sends_issue {c : C} (h : P c) : Sends P (Prog.issue c : Prog C R ε (R c)) :=
  ⟨h, fun _ => trivial⟩

/-- A sequence sends what its parts do. -/
theorem Sends.bind {p : Prog C R ε α} {f : α → Prog C R ε β} (hp : Sends P p)
    (hf : ∀ a, Sends P (f a)) : Sends P (p >>= f) := by
  induction p with
  | pure a => exact hf a
  | raise e => trivial
  | call c k ih => exact ⟨hp.1, fun r => ih r (hp.2 r)⟩

/-- What the monitor does not see leaves it where it is. -/
theorem Sends.obeys {post : Q → α → Prop} {p : Prog C R ε α} {q : Q} (hp : Sends m.Blind p)
    (h : ∀ a, post q a) : Obeys m post q p := by
  induction p with
  | pure a => exact h a
  | raise e => trivial
  | call c k ih =>
    obtain ⟨hallows, hnext⟩ := hp.1 q
    refine ⟨hallows, fun r _ => ?_⟩
    rw [hnext r]
    exact ih r (hp.2 r)

end Sends

/-! ## Running -/

variable {exec : (c : C) → σ → R c × σ}

/-- What the allowed commands keep, a run of a program that issues no other
keeps; and what it returns is accepted in the state the monitor ends in. -/
theorem Obeys.run {I : Q → σ → Prop} {post : Q → α → Prop}
    (hreply : ∀ c s, m.possible c (exec c s).1)
    (hstep : ∀ q c s, m.allows q c → I q s → I (m.next q c (exec c s).1) (exec c s).2)
    {p : Prog C R ε α} {q : Q} {s : σ} (hp : Obeys m post q p) (hs : I q s) :
    ∃ q', I q' (p.run exec s).2 ∧ ∀ a, (p.run exec s).1 = .ok a → post q' a := by
  induction p generalizing q s with
  | pure a => exact ⟨q, hs, fun _ h => by cases h; exact hp⟩
  | raise e => exact ⟨q, hs, fun _ h => by cases h⟩
  | call c k ih => exact ih _ (hp.2 _ (hreply c s)) (hstep q c s hp.1 hs)

/-! ## Threads -/

/-- A program under way: the request it serves, what is left of it, and the
commands it has issued so far with their replies, the latest first. -/
structure Thread (ρ : Type) (C : Type) (R : C → Type) (ε α : Type) where
  req : ρ
  prog : Prog C R ε α
  trace : List ((c : C) × R c) := []

namespace Thread

variable {ρ : Type} (exec)

/-- The thread after it got the reply `r` to `c` and went on with `p`. -/
def goOn (t : Thread ρ C R ε α) (c : C) (r : R c) (p : Prog C R ε α) : Thread ρ C R ε α :=
  { t with prog := p, trace := ⟨c, r⟩ :: t.trace }

/-- The next command of a thread; a thread that is through does nothing. -/
def step (t : Thread ρ C R ε α) (s : σ) : Thread ρ C R ε α × σ :=
  match t.prog with
  | .pure _ => (t, s)
  | .raise _ => (t, s)
  | .call c k => (t.goOn c (exec c s).1 (k (exec c s).1), (exec c s).2)

/-- The command a thread is about to issue. -/
def next? (t : Thread ρ C R ε α) : Option C :=
  match t.prog with
  | .pure _ => none
  | .raise _ => none
  | .call c _ => some c

variable {exec} (m)

/-- The state of the monitor after a trace. -/
def after (q : Q) (trace : List ((c : C) × R c)) : Q :=
  trace.foldr (fun e q => m.next q e.1 e.2) q

/-- The thread obeyed the monitor so far, and what is left of it does. -/
def Obeys (post : Q → α → Prop) (q : Q) (t : Thread ρ C R ε α) : Prop :=
  Programs.Obeys m post (after m q t.trace) t.prog

variable {m}

theorem obeys_start {post : Q → α → Prop} {q : Q} {req : ρ} {p : Prog C R ε α}
    (h : Programs.Obeys m post q p) : Obeys m post q { req, prog := p } := h

theorem step_call {t : Thread ρ C R ε α} {c : C} {k : R c → Prog C R ε α}
    (h : t.prog = .call c k) (s : σ) :
    t.step exec s = (t.goOn c (exec c s).1 (k (exec c s).1), (exec c s).2) := by
  rw [step, h]

/-- A thread that is about to issue nothing stays as it is. -/
theorem step_none {t : Thread ρ C R ε α} (h : t.next? = none) (s : σ) : t.step exec s = (t, s) := by
  unfold next? at h
  unfold step
  split at h
  · rfl
  · rfl
  · cases h

theorem next?_eq_some {t : Thread ρ C R ε α} {c : C} (h : t.next? = some c) :
    ∃ k, t.prog = .call c k := by
  unfold next? at h
  split at h
  · cases h
  · cases h
  · rename_i k heq
    cases h
    exact ⟨k, heq⟩

/-- What a thread issues is allowed, and what is left obeys the monitor
whatever the reply is. -/
theorem Obeys.call {post : Q → α → Prop} {q : Q} {t : Thread ρ C R ε α} {c : C}
    {k : R c → Prog C R ε α} (h : Obeys m post q t) (hprog : t.prog = .call c k) :
    m.allows (after m q t.trace) c ∧
      ∀ r, m.possible c r → Obeys m post q (t.goOn c r (k r)) := by
  unfold Obeys at h
  rw [hprog] at h
  exact h

end Thread

end Programs
