/-
Royd.Lib.Pools — any number of programs under way at once over one shared
machine.

A move starts a program, lets one go on by one command, or is something the
environment does to the shared state. A thread keeps its place in the list,
also when it is through. `next_step` says what one step can do: nothing, or
one thread gets its next command executed and goes on with the reply.

Each thread may be held to a monitor that depends on its request
(`Disciplined`); programs that obey it when they start keep every pool
disciplined (`disciplined_next`), so a proof about a pool looks at the
states of the monitors only. `results` are the values the threads have
returned. `tally` counts the threads of a kind; a step moves at most one of
them.
-/
import Royd.Lib.Programs
import Royd.Lib.Runs
import Royd.Lib.Tables

namespace Pools

open Programs

universe u

variable {ρ C η Q : Type} {R : C → Type} {ε α : Type} {σ : Type u}

/-- The shared state and the threads. -/
structure Pool (ρ C : Type) (R : C → Type) (ε α : Type) (σ : Type u) where
  shared : σ
  threads : List (Thread ρ C R ε α) := []

/-- What can happen. -/
inductive Move (ρ η : Type) where
  | start (req : ρ)
  | step (i : Nat)
  | act (e : η)
  deriving DecidableEq, Repr

/-- The thread of a request that starts. -/
def fresh (prog : ρ → Prog C R ε α) (req : ρ) : Thread ρ C R ε α := { req, prog := prog req }

variable (exec : (c : C) → σ → R c × σ) (prog : ρ → Prog C R ε α) (act : η → σ → σ)

/-- The effect of a move. -/
def next (w : Pool ρ C R ε α σ) : Move ρ η → Pool ρ C R ε α σ
  | .start req => { w with threads := w.threads ++ [fresh prog req] }
  | .step i =>
    match w.threads[i]? with
    | none => w
    | some th => { shared := (th.step exec w.shared).2
                   threads := w.threads.set i (th.step exec w.shared).1 }
  | .act e => { w with shared := act e w.shared }

variable {exec prog act}

variable (exec prog act) in
/-- A step does nothing, or one thread sends its next command. -/
theorem next_step (w : Pool ρ C R ε α σ) (i : Nat) :
    next exec prog act w (.step i) = w ∨
      ∃ before th after c k, w.threads[i]? = some th ∧ w.threads = before ++ th :: after ∧
        th.prog = .call c k ∧
        next exec prog act w (.step i) =
          ⟨(exec c w.shared).2,
            before ++ th.goOn c (exec c w.shared).1 (k (exec c w.shared).1) :: after⟩ := by
  cases hth : w.threads[i]? with
  | none => exact .inl (by simp [next, hth])
  | some th =>
    obtain ⟨before, after, hthreads, hset, -⟩ := Tables.split_at hth
    cases hnext : th.next? with
    | none => exact .inl (by simp [next, hth, Thread.step_none hnext, hset th, ← hthreads])
    | some c =>
      obtain ⟨k, hprog⟩ := Thread.next?_eq_some hnext
      refine .inr ⟨before, th, after, c, k, rfl, hthreads, hprog, ?_⟩
      simp [next, hth, Thread.step_call hprog, hset]

/-! ## Discipline -/

section Discipline

variable {m : ρ → Monitor C R Q} {post : ρ → Q → α → Prop} {q₀ : Q}

/-- Every thread has kept to its monitor, and will. -/
def Disciplined (m : ρ → Monitor C R Q) (post : ρ → Q → α → Prop) (q₀ : Q)
    (w : Pool ρ C R ε α σ) : Prop :=
  ∀ th ∈ w.threads, Thread.Obeys (m := m th.req) (post th.req) q₀ th

theorem disciplined_next (hprog : ∀ req, Obeys (m req) (post req) q₀ (prog req))
    (hreply : ∀ req c s, (m req).possible c (exec c s).1) {w : Pool ρ C R ε α σ}
    (h : Disciplined m post q₀ w) (move : Move ρ η) :
    Disciplined m post q₀ (next exec prog act w move) := by
  cases move with
  | start req =>
    intro th hth
    rcases List.mem_append.mp hth with hth | hth
    · exact h th hth
    · rw [List.mem_singleton.mp hth]
      exact hprog req
  | step i =>
    rcases next_step exec prog act w i with
      heq | ⟨before, th, after, c, k, -, hthreads, hcall, heq⟩
    · rw [heq]
      exact h
    · rw [heq]
      intro th' hth'
      rcases Tables.mem_exchange hth' with rfl | hth'
      · exact ((h th (by simp [hthreads])).call hcall).2 _ (hreply th.req c w.shared)
      · exact h th' (hthreads ▸ hth')
  | act e => exact h

end Discipline

/-! ## What came out -/

/-- What a thread that is through returned. -/
def result? (th : Thread ρ C R ε α) : Option α :=
  match th.prog with
  | .pure a => some a
  | .raise _ => none
  | .call _ _ => none

/-- What the threads have returned. -/
def results (w : Pool ρ C R ε α σ) : List α := w.threads.filterMap result?

theorem result?_eq_some {th : Thread ρ C R ε α} {a : α} : result? th = some a ↔ th.prog = .pure a := by
  unfold result?
  cases th.prog with
  | pure b => simp
  | raise e => simp
  | call c k => simp

/-! ## Counting threads -/

/-- How many threads are of a kind. -/
def tally (p : Thread ρ C R ε α → Bool) (w : Pool ρ C R ε α σ) : Nat := w.threads.countP p

section Tally

variable {p : Thread ρ C R ε α → Bool} {before after : List (Thread ρ C R ε α)}
  {th : Thread ρ C R ε α}

@[simp] theorem tally_start (w : Pool ρ C R ε α σ) (req : ρ) :
    tally p (next exec prog act w (.start req)) = tally p w + (p (fresh prog req)).toNat := by
  unfold tally next
  rw [List.countP_append, List.countP_singleton]
  cases p (fresh prog req) <;> rfl

@[simp] theorem tally_act (w : Pool ρ C R ε α σ) (e : η) :
    tally p (next exec prog act w (.act e)) = tally p w := rfl

/-- The threads around one, and the one. -/
theorem tally_split (s : σ) : tally p ⟨s, before ++ th :: after⟩ =
    (before ++ after).countP p + (p th).toNat := by
  unfold tally
  rw [List.countP_append, List.countP_cons, List.countP_append]
  cases p th <;> simp; omega

variable (p before after th) in
/-- One thread goes on, and the count with it. -/
theorem tally_goOn (s s' : σ) (th' : Thread ρ C R ε α) :
    tally p ⟨s', before ++ th' :: after⟩ + (p th).toNat =
      tally p ⟨s, before ++ th :: after⟩ + (p th').toNat := by
  rw [tally_split, tally_split]
  omega

/-- Threads of two kinds are counted apart. -/
theorem tally_add {q r : Thread ρ C R ε α → Bool} (w : Pool ρ C R ε α σ)
    (h : ∀ th, (p th).toNat = (q th).toNat + (r th).toNat) : tally p w = tally q w + tally r w :=
  Tables.countP_split fun th _ => h th

end Tally

end Pools
