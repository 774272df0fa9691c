/-
Royd.Lib.TaggedCaches — a cache of query results that is kept honest by tags.

A query result carries tags (`provides`), a mutation names tags when its reply
comes in (`invalidates`), and a result that carries one of them is stale.
Queries and mutations are under way at the same time: a result may be read
before a mutation and arrive after its reply, so the named tags wait until
nothing is under way.

The one condition (`Endpoints.Sound`): a mutation leaves every result alone
that carries none of its tags, but for differences that are let pass (`Same`).
Then, whatever order calls and replies come in, a result that is not stale and
that no tag is due for is what the source would still answer (`run_honest`).
-/
import Royd.Lib.Runs

namespace TaggedCaches

variable {S Q M T I : Type} {A : Q → Type}

/-- The calls of an interface over the states `S`. A query is answered in some
circumstance `I`, such as the time of day, or fails. -/
structure Endpoints (S Q M T I : Type) (A : Q → Type) where
  answer : (q : Q) → I → S → Option (A q)
  exec : M → S → S
  provides : (q : Q) → A q → List T
  invalidates : M → List T

/-- A result and the circumstance it was read in. -/
structure Entry (Q I : Type) (A : Q → Type) where
  query : Q
  readAt : I
  value : A query
  stale : Bool := false

/-- The cache, the source behind it and the calls between them. -/
structure Client (S Q M T I : Type) (A : Q → Type) where
  source : S
  entries : List (Entry Q I A) := []
  /-- Results that were read and have not arrived. -/
  reads : List (Entry Q I A) := []
  /-- Mutations that were made and are not replied to. -/
  writes : List M := []
  /-- Tags that wait until nothing is under way. -/
  waiting : List T := []

/-- What may happen next. -/
inductive Action (Q M I : Type) where
  | ask (q : Q) (readAt : I)
  | arrive (i : Nat)
  | forget (i : Nat)
  | write (m : M)
  | reply (i : Nat)
  | settle
  deriving DecidableEq

namespace Endpoints

variable (api : Endpoints S Q M T I A)

/-- The result carries one of the tags. -/
def Hit (tags : List T) (e : Entry Q I A) : Prop := ∃ t ∈ tags, t ∈ api.provides e.query e.value

instance [DecidableEq T] (tags : List T) (e : Entry Q I A) : Decidable (api.Hit tags e) :=
  inferInstanceAs (Decidable (∃ t ∈ tags, t ∈ api.provides e.query e.value))

/-- One step. A result takes the place of the one there was for its query. -/
def step [DecidableEq Q] [DecidableEq T] (c : Client S Q M T I A) :
    Action Q M I → Client S Q M T I A
  | .ask q readAt =>
    match api.answer q readAt c.source with
    | some value => { c with reads := c.reads ++ [{ query := q, readAt, value }] }
    | none => c
  | .arrive i =>
    match c.reads[i]? with
    | some e =>
      { c with
        reads := c.reads.eraseIdx i
        entries := c.entries.filter (·.query ≠ e.query) ++ [e] }
    | none => c
  | .forget i => { c with entries := c.entries.eraseIdx i }
  | .write m => { c with source := api.exec m c.source, writes := c.writes ++ [m] }
  | .reply i =>
    match c.writes[i]? with
    | some m =>
      { c with writes := c.writes.eraseIdx i, waiting := c.waiting ++ api.invalidates m }
    | none => c
  | .settle =>
    if c.reads.isEmpty && c.writes.isEmpty then
      { c with
        waiting := []
        entries := c.entries.map fun e =>
          { e with stale := e.stale || decide (api.Hit c.waiting e) } }
    else c

/-- In every state that is `Ok`, a mutation leaves every result the `Same` that
carries none of its tags. -/
structure Sound (Ok : S → Prop) (Same : (q : Q) → A q → A q → Prop) : Prop where
  refl : ∀ q a, Same q a a
  trans : ∀ {q a b c}, Same q a b → Same q b c → Same q a c
  tags : ∀ {q a b}, Same q a b → api.provides q b = api.provides q a
  keeps : ∀ {s} m, Ok s → Ok (api.exec m s)
  frame : ∀ {s m q i a}, Ok s → api.answer q i s = some a →
    (∀ t ∈ api.invalidates m, t ∉ api.provides q a) →
    ∃ b, api.answer q i (api.exec m s) = some b ∧ Same q a b

/-- The tags that wait or will. -/
def tagsDue (c : Client S Q M T I A) : List T := c.waiting ++ c.writes.flatMap api.invalidates

/-- A result that is not stale is the source's, unless a tag is due for it. -/
structure Honest (Ok : S → Prop) (Same : (q : Q) → A q → A q → Prop) (c : Client S Q M T I A) :
    Prop where
  ok : Ok c.source
  results : ∀ e ∈ c.entries ++ c.reads, e.stale = false → api.Hit (api.tagsDue c) e ∨
    ∃ a, api.answer e.query e.readAt c.source = some a ∧ Same e.query e.value a

variable {api} {Ok : S → Prop} {Same : (q : Q) → A q → A q → Prop} {c : Client S Q M T I A}

theorem Hit.mono {tags tags' : List T} {e : Entry Q I A} (h : api.Hit tags e)
    (hsub : tags ⊆ tags') : api.Hit tags' e := by
  obtain ⟨t, ht, hprovides⟩ := h
  exact ⟨t, hsub ht, hprovides⟩

theorem Honest.write (hsound : api.Sound Ok Same) (h : api.Honest Ok Same c) (m : M) :
    api.Honest Ok Same { c with source := api.exec m c.source, writes := c.writes ++ [m] } := by
  refine ⟨hsound.keeps m h.ok, fun e he hfresh => ?_⟩
  have hdue : api.tagsDue { c with source := api.exec m c.source, writes := c.writes ++ [m] } =
      api.tagsDue c ++ api.invalidates m := by
    simp [tagsDue]
  rw [hdue]
  rcases h.results e he hfresh with hhit | ⟨a, hanswer, hsame⟩
  · exact .inl (hhit.mono (List.subset_append_left _ _))
  · by_cases hhit : api.Hit (api.invalidates m) e
    · exact .inl (hhit.mono (List.subset_append_right _ _))
    · obtain ⟨b, hanswer', hsame'⟩ := hsound.frame h.ok hanswer fun t ht hprovides =>
        hhit ⟨t, ht, hsound.tags hsame ▸ hprovides⟩
      exact .inr ⟨b, hanswer', hsound.trans hsame hsame'⟩

/-- A reply moves tags from those to come to those that wait. -/
theorem tagsDue_reply {i : Nat} {m : M} (hm : c.writes[i]? = some m) :
    api.tagsDue c ⊆ api.tagsDue
      { c with writes := c.writes.eraseIdx i, waiting := c.waiting ++ api.invalidates m } := by
  intro t ht
  simp only [tagsDue, List.mem_append, List.mem_flatMap] at ht ⊢
  rcases ht with ht | ⟨m', hm', ht⟩
  · exact .inl (.inl ht)
  · obtain ⟨j, hj⟩ := List.mem_iff_getElem?.mp hm'
    by_cases hij : j = i
    · subst hij
      cases hm.symm.trans hj
      exact .inl (.inr ht)
    · exact .inr ⟨m', List.mem_eraseIdx_iff_getElem?.mpr ⟨j, hij, hj⟩, ht⟩

theorem Honest.settle [DecidableEq T] (h : api.Honest Ok Same c) (hreads : c.reads = [])
    (hwrites : c.writes = []) :
    api.Honest Ok Same { c with
      waiting := []
      entries := c.entries.map fun e =>
        { e with stale := e.stale || decide (api.Hit c.waiting e) } } := by
  refine ⟨h.ok, fun e he hfresh => .inr ?_⟩
  dsimp only at he
  rw [hreads, List.append_nil] at he
  obtain ⟨old, hold, rfl⟩ := List.mem_map.mp he
  dsimp only at hfresh ⊢
  rw [Bool.or_eq_false_iff, decide_eq_false_iff_not] at hfresh
  have hdue : api.tagsDue c = c.waiting := by simp [tagsDue, hwrites]
  rcases h.results old (List.mem_append_left _ hold) hfresh.1 with hhit | hsame
  · exact absurd (hdue ▸ hhit) hfresh.2
  · exact hsame

theorem Honest.step [DecidableEq Q] [DecidableEq T] (hsound : api.Sound Ok Same)
    (h : api.Honest Ok Same c) (x : Action Q M I) : api.Honest Ok Same (api.step c x) := by
  cases x with
  | ask q readAt =>
    unfold Endpoints.step
    dsimp only
    cases hanswer : api.answer q readAt c.source with
    | none => exact h
    | some value =>
      refine ⟨h.ok, fun e he hfresh => ?_⟩
      simp only [← List.append_assoc] at he
      rcases List.mem_append.mp he with he | he
      · exact h.results e he hfresh
      · rw [List.mem_singleton.mp he]
        exact .inr ⟨value, hanswer, hsound.refl q value⟩
  | arrive i =>
    unfold Endpoints.step
    dsimp only
    cases hread : c.reads[i]? with
    | none => exact h
    | some e =>
      refine ⟨h.ok, fun e' he' hfresh => h.results e' ?_ hfresh⟩
      simp only [List.append_assoc, List.mem_append, List.mem_singleton] at he' ⊢
      rcases he' with hold | rfl | hold
      · exact .inl (List.mem_filter.mp hold).1
      · exact .inr (List.mem_of_getElem? hread)
      · exact .inr (List.mem_of_mem_eraseIdx hold)
  | forget i =>
    refine ⟨h.ok, fun e he hfresh => h.results e ?_ hfresh⟩
    rcases List.mem_append.mp he with he | he
    · exact List.mem_append_left _ (List.mem_of_mem_eraseIdx he)
    · exact List.mem_append_right _ he
  | write m => exact h.write hsound m
  | reply i =>
    unfold Endpoints.step
    dsimp only
    cases hm : c.writes[i]? with
    | none => exact h
    | some m =>
      exact ⟨h.ok, fun e he hfresh =>
        (h.results e he hfresh).imp_left fun hhit => hhit.mono (tagsDue_reply hm)⟩
  | settle =>
    unfold Endpoints.step
    dsimp only
    split
    · rename_i hquiet
      rw [Bool.and_eq_true, List.isEmpty_iff, List.isEmpty_iff] at hquiet
      exact h.settle hquiet.1 hquiet.2
    · exact h

/-- Every run keeps the cache honest. -/
theorem run_honest [DecidableEq Q] [DecidableEq T] (hsound : api.Sound Ok Same) {s : S} (hs : Ok s)
    (xs : List (Action Q M I)) : api.Honest Ok Same (Runs.run api.step { source := s } xs) :=
  Runs.run_invariant (fun _ x h => h.step hsound x) ⟨hs, by simp⟩ xs

/-- Once nothing is under way and the tags are settled, a result that is not
stale is what the source would answer. -/
theorem Honest.settled [DecidableEq Q] [DecidableEq T] (hsound : api.Sound Ok Same)
    (h : api.Honest Ok Same c) (hreads : c.reads = []) (hwrites : c.writes = []) :
    ∀ e ∈ (api.step c .settle).entries, e.stale = false →
      ∃ a, api.answer e.query e.readAt (api.step c .settle).source = some a ∧
        Same e.query e.value a := by
  intro e he hfresh
  refine ((h.step hsound .settle).results e (List.mem_append_left _ he) hfresh).resolve_left ?_
  rintro ⟨t, ht, -⟩
  have hnone : api.tagsDue (api.step c .settle) = [] := by
    unfold Endpoints.step tagsDue
    simp [hreads, hwrites]
  rw [hnone] at ht
  exact absurd ht List.not_mem_nil

end Endpoints

end TaggedCaches
