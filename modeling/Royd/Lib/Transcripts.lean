/-
Royd.Lib.Transcripts — the monitor that remembers everything.

Its state is the transcript of the program, the commands it issued with their
replies, the latest first; `allows` says what may be issued given what was
said before. It is the monitor to use for what must have come first.
`Records` is obedience to it, with what the transcript shows of the value
that is returned.
-/
import Royd.Lib.Programs

namespace Programs

variable {C : Type} {R : C → Type} {ε α β : Type}

/-- The commands a program has issued, with their replies. -/
abbrev Transcript (C : Type) (R : C → Type) := List ((c : C) × R c)

/-- The monitor whose state is the transcript. -/
def recorder (allows : Transcript C R → C → Prop) (possible : (c : C) → R c → Prop) :
    Monitor C R (Transcript C R) where
  allows := allows
  possible := possible
  next q c r := ⟨c, r⟩ :: q

variable {allows : Transcript C R → C → Prop} {possible : (c : C) → R c → Prop}

/-- What the recorder has seen of a thread is the thread's trace. -/
@[simp] theorem after_recorder (trace : Transcript C R) :
    Thread.after (recorder allows possible) [] trace = trace := by
  induction trace with
  | nil => rfl
  | cons e rest ih => exact congrArg (e :: ·) ih

/-- From transcript `q` on, the program issues only what is allowed, and what
it returns is as `out` says of the transcript it ends with. -/
def Records (allows : Transcript C R → C → Prop) (possible : (c : C) → R c → Prop)
    (q : Transcript C R) (p : Prog C R ε α) (out : Transcript C R → α → Prop) : Prop :=
  Obeys (recorder allows possible) (fun q' a => q ⊆ q' ∧ out q' a) q p

variable {q : Transcript C R} {p : Prog C R ε α} {out : Transcript C R → α → Prop}

theorem records_pure {a : α} (h : out q a) :
    Records allows possible q (pure a : Prog C R ε α) out := ⟨fun _ he => he, h⟩

theorem records_raise (e : ε) : Records allows possible q (.raise e : Prog C R ε α) out := trivial

theorem records_issue {c : C} {out : Transcript C R → R c → Prop} (hallows : allows q c)
    (h : ∀ r, possible c r → out (⟨c, r⟩ :: q) r) :
    Records allows possible q (Prog.issue c : Prog C R ε (R c)) out :=
  ⟨hallows, fun r hr => ⟨fun _ he => List.mem_cons_of_mem _ he, h r hr⟩⟩

/-- Sequencing: nothing that was said is forgotten. -/
theorem Records.bind {f : α → Prog C R ε β} {out' : Transcript C R → β → Prop}
    (hp : Records allows possible q p out)
    (hf : ∀ q' a, q ⊆ q' → out q' a → Records allows possible q' (f a) out') :
    Records allows possible q (p >>= f) out' := by
  unfold Records
  rw [obeys_bind]
  refine Obeys.mono hp ?_
  rintro q' a ⟨hsub, hout⟩
  exact Obeys.mono (hf q' a hsub hout) fun q'' b h => ⟨List.Subset.trans hsub h.1, h.2⟩

theorem Records.mono {out' : Transcript C R → α → Prop} (hp : Records allows possible q p out)
    (h : ∀ q' a, q ⊆ q' → out q' a → out' q' a) : Records allows possible q p out' :=
  Obeys.mono hp fun q' a h' => ⟨h'.1, h q' a h'.1 h'.2⟩

/-- A program whose commands are allowed at any time. -/
theorem records_of_sends (hp : Sends (fun c => ∀ q, allows q c) p) :
    Records allows possible q p fun _ _ => True := by
  induction p generalizing q with
  | pure a => exact ⟨fun _ he => he, trivial⟩
  | raise e => trivial
  | call c k ih =>
    refine ⟨hp.1 q, fun r _ => ?_⟩
    exact Obeys.mono (ih r (hp.2 r)) fun q' a h =>
      ⟨fun e he => h.1 (List.mem_cons_of_mem _ he), trivial⟩

/-- Obedience, whatever is returned. -/
theorem Records.obeys (hp : Records allows possible q p out) :
    Obeys (recorder allows possible) (fun _ _ => True) q p :=
  Obeys.mono hp fun _ _ _ => trivial

end Programs
