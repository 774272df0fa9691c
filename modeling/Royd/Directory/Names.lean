/-
Royd.Directory.Names — is there one faculty to a name, and one group to a
name and a faculty?

`unambiguous_iff` says in which runs there is throughout, so that no lookup
meets two rows and no call fails for it: in those whose commits bring no
name that another row has taken. A submission looks a name up before it
inserts a row of that name (`obeys_handle`), so what it has to fear is a row
committed since; an administrator looks nothing up.
-/
import Royd.Directory.Organisation
import Royd.Lib.Runs
import Royd.Lib.Tables
import Mathlib.Data.List.Nodup

namespace Royd.Organisation

open Programs Runs

/-! ## Unambiguous tables -/

/-- One faculty to a name, one group to a name and a faculty. -/
structure Registry.Unambiguous (r : Registry) : Prop where
  faculties : (r.faculties.map (·.name)).Nodup
  groups : (r.groups.map (·.key)).Nodup

/-- What the constraints of the database keep. -/
structure Registry.Keyed (r : Registry) : Prop where
  facultyIds : (r.faculties.map (·.id)).Nodup
  groupIds : (r.groups.map (·.id)).Nodup
  codes : (r.faculties.map (·.code)).Nodup

/-- The rows a single-row lookup found. -/
def rowsFound : (c : Command) → c.Reply → Nat
  | .facultiesNamed _, rows => rows.length
  | .facultiesCoded _, rows => rows.length
  | .groupsNamed .., rows => rows.length
  | _, _ => 0

/-- `MultipleResultsFound`. -/
def multipleRows : Exc := .value "Multiple rows were found when one or none was required"

/-- The call failed on a lookup that met two rows. -/
def Running.ambiguous (th : Running) : Bool :=
  match th.prog with
  | .raise e => e == multipleRows
  | _ => false

/-- The tables are unambiguous, no lookup has met two rows, and no call has
failed for it. -/
structure World.Unambiguous (w : World) : Prop where
  registry : w.registry.Unambiguous
  lookups : ∀ th ∈ w.calls, ∀ e ∈ th.trace, rowsFound e.1 e.2 ≤ 1
  served : ∀ th ∈ w.calls, th.ambiguous = false

/-! ## Look before you insert -/

/-- The rows a call's lookups by name have shown it. -/
structure Seen where
  faculties : List FacultyRow := []
  groups : List GroupRow := []
  deriving DecidableEq, Repr

/-- What a command adds. -/
def Seen.note (q : Seen) : (c : Command) → c.Reply → Seen
  | .facultiesNamed _, rows => { q with faculties := rows ++ q.faculties }
  | .groupsNamed .., rows => { q with groups := rows ++ q.groups }
  | _, _ => q

/-- A row is inserted only if the call has seen none of its name. -/
def Seen.permits (q : Seen) : Command → Prop
  | .commit (.rows faculty group) =>
    (∀ f ∈ faculty, ∀ row ∈ q.faculties, row.name ≠ f.name) ∧
      ∀ g ∈ group, ∀ row ∈ q.groups, row.key ≠ g.key
  | _ => True

def lookFirst : Monitor Command Command.Reply Seen where
  allows := Seen.permits
  possible _ _ := True
  next := Seen.note

/-- What a call has seen. -/
def Running.seen (th : Running) : Seen := Thread.after lookFirst {} th.trace

/-- What is known of a reply, as long as no lookup meets two rows. -/
def Ordinary : (c : Command) → c.Reply → Prop
  | .commit _, reply => reply ≠ .error multipleRows
  | c, reply => rowsFound c reply ≤ 1

/-- No call fails on a lookup unless it met two rows. -/
abbrev Served {α : Type} (h : Handler α) : Prop := Avoids Ordinary (· = multipleRows) h

section Handlers

variable {α : Type} {q : Seen} (upper : String → String) (fuel : Nat)

theorem scalarOneOrNone_ok {rows : List α} (h : rows.length ≤ 1) :
    ∃ row, scalarOneOrNone rows = .ok row := by
  match rows with
  | [] => exact ⟨none, rfl⟩
  | [row] => exact ⟨some row, rfl⟩
  | _ :: _ :: _ => simp at h

/-- A lookup returned no row, so it found none. -/
theorem scalarOneOrNone_eq_none {rows : List α} (h : scalarOneOrNone rows = .ok none) :
    rows = [] := by
  match rows with
  | [] => rfl
  | [row] => cases h
  | _ :: _ :: _ => cases h

theorem obeys_selectOne {query : Handler (List α)} {post : Seen → Option α → Prop} :
    Obeys lookFirst post q (selectOne query) ↔
      Obeys lookFirst (fun q' rows => ∀ row, scalarOneOrNone rows = .ok row → post q' row) q
        query := by
  unfold selectOne
  rw [obeys_bind]
  refine iff_of_eq (congrArg (fun p => Obeys lookFirst p q query) ?_)
  funext q' rows
  cases scalarOneOrNone rows with
  | ok row => simp
  | error e => simp

theorem obeys_freeCode (code : String) (suffix : Nat) :
    Obeys lookFirst (fun q' _ => q' = q) q (freeCode code fuel suffix) := by
  induction fuel generalizing suffix with
  | zero => exact obeys_raise
  | succ fuel ih =>
    unfold freeCode
    rw [obeys_bind, obeys_selectOne]
    refine ⟨trivial, fun rows _ row _ => ?_⟩
    cases row with
    | none => rfl
    | some row => exact ih (suffix + 1)

/-- A faculty is new only if the lookup found none of its name. -/
theorem obeys_upsertFaculty (name : String) :
    Obeys lookFirst
      (fun q (row : Option (FacultyRow × Bool)) =>
        q.groups = [] ∧ ((inserted row).isSome → q.faculties = []))
      {} (upsertFaculty upper fuel name) := by
  unfold upsertFaculty
  split
  · simp [inserted]
  · rw [obeys_bind, obeys_selectOne]
    refine ⟨trivial, fun rows _ row hrow => ?_⟩
    cases row with
    | some row => exact ⟨rfl, by simp [inserted]⟩
    | none =>
      obtain rfl := scalarOneOrNone_eq_none hrow
      rw [obeys_bind]
      refine (obeys_freeCode fuel _ 0).mono ?_
      rintro q' code rfl
      exact ⟨trivial, fun id _ => ⟨rfl, fun _ => rfl⟩⟩

/-- A group is new only if the lookup found none of its name and faculty. -/
theorem obeys_upsertStudentGroup (name : String) (facultyId : Option Nat) (hq : q.groups = []) :
    Obeys lookFirst
      (fun q' (row : Option (GroupRow × Bool)) =>
        q'.faculties = q.faculties ∧ ((inserted row).isSome → q'.groups = []))
      q (upsertStudentGroup name facultyId) := by
  unfold upsertStudentGroup
  split
  · simp [inserted]
  · rw [obeys_bind, obeys_selectOne]
    refine ⟨trivial, fun rows _ row hrow => ?_⟩
    cases row with
    | some row => exact ⟨rfl, by simp [inserted]⟩
    | none =>
      obtain rfl := scalarOneOrNone_eq_none hrow
      exact ⟨trivial, fun id _ => ⟨rfl, fun _ => hq⟩⟩

theorem obeys_commit {w : Write} (h : q.permits (.commit w)) :
    Obeys lookFirst (fun _ _ => True) q (commit w) := by
  refine ⟨h, fun reply _ => ?_⟩
  cases reply with
  | ok u => trivial
  | error e => trivial

theorem obeys_sent {field : Option (Option α)} {current : α} :
    Obeys lookFirst (fun q' _ => q' = q) q (sent field current) := by
  rcases field with _ | _ | value
  · rfl
  · trivial
  · rfl

/-- Every call looks a name up before it inserts a row that carries it, or
does not look at all. -/
theorem obeys_handle (call : Call) :
    Obeys lookFirst (fun _ _ => True) {} (handle upper fuel call) := by
  cases call with
  | submit faculty group =>
    show Obeys _ _ _ (submit upper fuel faculty group)
    unfold submit
    rw [obeys_bind]
    refine (obeys_upsertFaculty upper fuel faculty).mono fun q₁ row₁ h₁ => ?_
    rw [obeys_bind]
    refine (obeys_upsertStudentGroup group _ h₁.1).mono fun q₂ row₂ h₂ => ?_
    refine obeys_commit ⟨fun f hf row hrow => ?_, fun g hg row hrow => ?_⟩
    · rw [h₂.1, h₁.2 (Option.isSome_of_mem hf)] at hrow
      cases hrow
    · rw [h₂.2 (Option.isSome_of_mem hg)] at hrow
      cases hrow
  | createFaculty data =>
    refine ⟨trivial, fun id _ => obeys_commit ⟨?_, ?_⟩⟩
    · intro f _ row hrow
      cases hrow
    · intro g _ row hrow
      cases hrow
  | updateFaculty facultyId data =>
    show Obeys _ _ _ (updateFaculty facultyId data)
    unfold updateFaculty
    rw [obeys_bind]
    refine ⟨trivial, fun row _ => ?_⟩
    cases row with
    | none => trivial
    | some fac =>
      simp only [obeys_prog_pure, obeys_bind]
      refine obeys_sent.mono fun q₁ name h₁ => obeys_sent.mono fun q₂ code h₂ => ?_
      exact obeys_sent.mono fun q₃ isActive h₃ => obeys_commit (by trivial)
  | updateStudentGroup groupId data =>
    show Obeys _ _ _ (updateStudentGroup groupId data)
    unfold updateStudentGroup
    rw [obeys_bind]
    refine ⟨trivial, fun row _ => ?_⟩
    cases row with
    | none => trivial
    | some group =>
      simp only [obeys_prog_pure, obeys_bind]
      refine obeys_sent.mono fun q₁ name h₁ => ?_
      exact obeys_sent.mono fun q₂ isActive h₂ => obeys_commit (by trivial)

theorem served_commit (w : Write) : Served (commit w) := by
  intro reply hreply
  cases reply with
  | ok u => trivial
  | error e =>
    intro he
    exact hreply (congrArg Except.error he)

theorem served_sent {field : Option (Option α)} {current : α} : Served (sent field current) := by
  rcases field with _ | _ | value
  · trivial
  · intro h
    cases h
  · trivial

/-- A lookup that met one row at most does not raise. -/
theorem served_found {rows : List α} (h : rows.length ≤ 1) :
    Served (match scalarOneOrNone rows with
      | .ok row => (pure row : Handler (Option α))
      | .error e => .raise e) := by
  obtain ⟨row, hrow⟩ := scalarOneOrNone_ok h
  rw [hrow]
  trivial

theorem served_freeCode (code : String) (suffix : Nat) : Served (freeCode code fuel suffix) := by
  induction fuel generalizing suffix with
  | zero => simp [Served, freeCode, multipleRows]
  | succ fuel ih =>
    unfold freeCode
    refine Avoids.bind (fun rows hrows => served_found hrows) fun row => ?_
    cases row with
    | none => trivial
    | some row => exact ih (suffix + 1)

theorem served_upsertFaculty (name : String) : Served (upsertFaculty upper fuel name) := by
  unfold upsertFaculty
  split
  · trivial
  · refine Avoids.bind (fun rows hrows => served_found hrows) fun row => ?_
    cases row with
    | some row => trivial
    | none => exact (served_freeCode fuel _ 0).bind fun code id _ => trivial

theorem served_upsertStudentGroup (name : String) (facultyId : Option Nat) :
    Served (upsertStudentGroup name facultyId) := by
  unfold upsertStudentGroup
  split
  · trivial
  · refine Avoids.bind (fun rows hrows => served_found hrows) fun row => ?_
    cases row with
    | some row => trivial
    | none => exact fun id _ => trivial

theorem served_handle (call : Call) : Served (handle upper fuel call) := by
  cases call with
  | submit faculty group =>
    refine (served_upsertFaculty upper fuel faculty).bind fun row => ?_
    exact (served_upsertStudentGroup group _).bind fun row' => served_commit _
  | createFaculty data => exact fun id _ => served_commit _
  | updateFaculty facultyId data =>
    show Served (updateFaculty facultyId data)
    refine Avoids.bind avoids_issue fun row => ?_
    cases row with
    | none =>
      intro h
      cases h
    | some fac =>
      refine served_sent.bind fun name => served_sent.bind fun code => ?_
      exact served_sent.bind fun isActive => served_commit _
  | updateStudentGroup groupId data =>
    show Served (updateStudentGroup groupId data)
    refine Avoids.bind avoids_issue fun row => ?_
    cases row with
    | none =>
      intro h
      cases h
    | some group =>
      exact served_sent.bind fun name => served_sent.bind fun isActive => served_commit _

end Handlers

/-! ## What a commit may bring -/

/-- A write that brings no name another row has taken: a row it adds has the
name of no row but those the call was shown, and a row it changes gets the
name of no other row. -/
def Registry.Fresh (r : Registry) (seen : Seen) : Write → Prop
  | .rows faculty group =>
    (∀ f ∈ faculty, ∀ row ∈ r.faculties, row.name = f.name → row ∈ seen.faculties) ∧
      ∀ g ∈ group, ∀ row ∈ r.groups, row.key = g.key → row ∈ seen.groups
  | .faculty loaded left =>
    ∀ row ∈ r.faculties, row.id = loaded.id →
      ∀ other ∈ r.faculties, other.id ≠ row.id → other.name ≠ (row.write loaded left).name
  | .group loaded left =>
    ∀ row ∈ r.groups, row.id = loaded.id →
      ∀ other ∈ r.groups, other.id ≠ row.id → other.key ≠ (row.write loaded left).key

/-- What is committed is fresh. -/
def Registry.Undisturbed (r : Registry) (seen : Seen) : Command → Prop
  | .commit w => (r.apply w).check = .ok () → r.Fresh seen w
  | _ => True

instance (r : Registry) (seen : Seen) (w : Write) : Decidable (r.Fresh seen w) :=
  match w with
  | .rows faculty group => inferInstanceAs (Decidable
      ((∀ f ∈ faculty, ∀ row ∈ r.faculties, row.name = f.name → row ∈ seen.faculties) ∧
        ∀ g ∈ group, ∀ row ∈ r.groups, row.key = g.key → row ∈ seen.groups))
  | .faculty loaded left => inferInstanceAs (Decidable
      (∀ row ∈ r.faculties, row.id = loaded.id →
        ∀ other ∈ r.faculties, other.id ≠ row.id → other.name ≠ (row.write loaded left).name))
  | .group loaded left => inferInstanceAs (Decidable
      (∀ row ∈ r.groups, row.id = loaded.id →
        ∀ other ∈ r.groups, other.id ≠ row.id → other.key ≠ (row.write loaded left).key))

instance (r : Registry) (seen : Seen) (c : Command) : Decidable (r.Undisturbed seen c) :=
  match c with
  | .commit w => inferInstanceAs (Decidable ((r.apply w).check = .ok () → r.Fresh seen w))
  | .facultiesNamed _ => .isTrue trivial
  | .facultiesCoded _ => .isTrue trivial
  | .groupsNamed .. => .isTrue trivial
  | .getFaculty _ => .isTrue trivial
  | .getGroup _ => .isTrue trivial
  | .draw => .isTrue trivial

namespace Registry

variable {r : Registry}

theorem check_keyed (h : r.check = .ok ()) : r.Keyed := by
  unfold check at h
  split at h
  · cases h
  · rename_i hkeyed
    split at h
    · cases h
    · rename_i hcoded
      simp only [keyed, coded, Bool.not_eq_false, Bool.and_eq_true, decide_eq_true_eq]
        at hkeyed hcoded
      exact ⟨hkeyed.1, hkeyed.2, hcoded⟩

theorem check_ne_multipleRows (r : Registry) : r.check ≠ .error multipleRows := by
  unfold check
  split
  · simp [constraintConflict, multipleRows]
  · split
    · simp [multipleRows]
    · split
      · simp [multipleRows]
      · simp

/-- A command leaves the tables alone, or commits what the constraints
accept. -/
theorem exec_registry (c : Command) (r : Registry) :
    (exec c r).2.faculties = r.faculties ∧ (exec c r).2.groups = r.groups ∨
      ∃ w, c = .commit w ∧ (r.apply w).check = .ok () ∧ (exec c r).2 = r.apply w := by
  cases c with
  | commit w =>
    cases hcheck : (r.apply w).check with
    | ok u => exact .inr ⟨w, rfl, hcheck, by simp [exec, hcheck]⟩
    | error e => exact .inl (by simp [exec, hcheck])
  | _ => exact .inl ⟨rfl, rfl⟩

theorem exec_keyed (c : Command) (h : r.Keyed) : (exec c r).2.Keyed := by
  rcases exec_registry c r with ⟨hf, hg⟩ | ⟨w, -, hcheck, hr⟩
  · exact ⟨hf ▸ h.facultyIds, hg ▸ h.groupIds, hf ▸ h.codes⟩
  · rw [hr]
    exact check_keyed hcheck

/-- A write leaves the tables unambiguous exactly if it is fresh. -/
theorem apply_unambiguous_iff {seen : Seen} {w : Write} (hkeyed : r.Keyed) (h : r.Unambiguous)
    (hpermits : seen.permits (.commit w)) : (r.apply w).Unambiguous ↔ r.Fresh seen w := by
  cases w with
  | rows faculty group =>
    have hfaculties := Tables.nodup_append_iff h.faculties faculty
    have hgroups := Tables.nodup_append_iff h.groups group
    constructor
    · rintro ⟨hf, hg⟩
      refine ⟨fun f hmem row hrow heq => ?_, fun g hmem row hrow heq => ?_⟩
      · exact absurd heq (hfaculties.mp hf f hmem row hrow)
      · exact absurd heq (hgroups.mp hg g hmem row hrow)
    · rintro ⟨hf, hg⟩
      refine ⟨hfaculties.mpr fun f hmem row hrow heq => ?_, hgroups.mpr fun g hmem row hrow heq => ?_⟩
      · exact hpermits.1 f hmem row (hf f hmem row hrow heq) heq
      · exact hpermits.2 g hmem row (hg g hmem row hrow heq) heq
  | faculty loaded left =>
    have hupdate := Tables.nodup_update_iff (f := fun row => row.write loaded left) (i := loaded.id)
      hkeyed.facultyIds h.faculties
    exact ⟨fun hafter => hupdate.mp hafter.faculties, fun hfree => ⟨hupdate.mpr hfree, h.groups⟩⟩
  | group loaded left =>
    have hupdate := Tables.nodup_update_iff (f := fun row => row.write loaded left) (i := loaded.id)
      hkeyed.groupIds h.groups
    exact ⟨fun hafter => hupdate.mp hafter.groups, fun hfree => ⟨h.faculties, hupdate.mpr hfree⟩⟩

/-- A command leaves the tables unambiguous exactly if it is undisturbed. -/
theorem exec_unambiguous_iff {seen : Seen} {c : Command} (hkeyed : r.Keyed) (h : r.Unambiguous)
    (hpermits : seen.permits c) : (exec c r).2.Unambiguous ↔ r.Undisturbed seen c := by
  cases c with
  | commit w =>
    show (exec (.commit w) r).2.Unambiguous ↔ ((r.apply w).check = .ok () → r.Fresh seen w)
    cases hcheck : (r.apply w).check with
    | ok u => simp [exec, hcheck, apply_unambiguous_iff hkeyed h hpermits]
    | error e => simp [exec, hcheck, h]
  | draw => exact ⟨fun _ => trivial, fun _ => ⟨h.faculties, h.groups⟩⟩
  | _ => exact ⟨fun _ => trivial, fun _ => h⟩

/-- Where names and codes are unique, a lookup finds one row at most. -/
theorem rowsFound_le (c : Command) (hkeyed : r.Keyed) (h : r.Unambiguous) :
    rowsFound c (exec c r).1 ≤ 1 := by
  cases c with
  | facultiesNamed name => exact Tables.length_lookup_le h.faculties (k := name) (by simp)
  | facultiesCoded code => exact Tables.length_lookup_le hkeyed.codes (k := code) (by simp)
  | groupsNamed name facultyId =>
    exact Tables.length_lookup_le h.groups (k := (name, facultyId)) (by simp [GroupRow.key])
  | _ => exact Nat.zero_le 1

/-- A commit does not fail as a lookup does. -/
theorem exec_ordinary {c : Command} (h : rowsFound c (exec c r).1 ≤ 1) :
    Ordinary c (exec c r).1 := by
  cases c with
  | commit w =>
    show (exec (.commit w) r).1 ≠ .error multipleRows
    cases hcheck : (r.apply w).check with
    | ok u => simp [exec, hcheck]
    | error e =>
      have hne := check_ne_multipleRows (r.apply w)
      rw [hcheck] at hne
      simpa [exec, hcheck] using hne
  | _ => exact h

end Registry

/-! ## Runs -/

/-- The call keeps looking first, and fails on no lookup unless it met two
rows. -/
structure Running.Disciplined (th : Running) : Prop where
  obeys : Thread.Obeys lookFirst (fun _ _ => True) {} th
  served : (∀ e ∈ th.trace, rowsFound e.1 e.2 ≤ 1) → Served th.prog

/-- The tables keep their constraints, and the calls are those of the
endpoints. -/
structure World.Wf (w : World) : Prop where
  keyed : w.registry.Keyed
  calls : ∀ th ∈ w.calls, th.Disciplined

/-- The call that goes on is not about to commit a name that is taken. -/
def Undisturbed (w : World) : Message → Prop
  | .step i => ∀ th ∈ w.calls[i]?, ∀ c ∈ th.next?, w.registry.Undisturbed th.seen c
  | _ => True

instance (w : World) (m : Message) : Decidable (Undisturbed w m) :=
  match m with
  | .start .. => .isTrue trivial
  | .drop _ => .isTrue trivial
  | .step i => inferInstanceAs (Decidable
      (∀ th ∈ w.calls[i]?, ∀ c ∈ th.next?, w.registry.Undisturbed th.seen c))

/-- The call after it has sent `c` and got the reply. -/
def Running.sent (th : Running) (r : Registry) (c : Command) (k : c.Reply → Handler Unit) :
    Running :=
  th.goOn c (exec c r).1 (k (exec c r).1)

namespace Running

variable {th : Running} (r : Registry) (upper : String → String)

theorem Disciplined.begin (call : Call) (fuel : Nat) : (begin upper call fuel).Disciplined :=
  ⟨Thread.obeys_start (obeys_handle upper fuel call), fun _ => served_handle upper fuel call⟩

theorem Disciplined.abort (th : Running) : th.abort.Disciplined := by
  refine ⟨?_, fun _ => ?_⟩
  · trivial
  · simp [Running.abort, Served, multipleRows]

/-- What a call is about to send is permitted. -/
theorem Disciplined.permits {c : Command} {k : c.Reply → Handler Unit} (h : th.Disciplined)
    (hprog : th.prog = .call c k) : th.seen.permits c :=
  (h.obeys.call hprog).1

theorem Disciplined.goOn {c : Command} {k : c.Reply → Handler Unit} (h : th.Disciplined)
    (hprog : th.prog = .call c k) :
    (th.sent r c k).Disciplined := by
  refine ⟨(h.obeys.call hprog).2 _ trivial, fun hfound => ?_⟩
  have hlast := hfound _ List.mem_cons_self
  have hbefore := h.served fun e he => hfound e (List.mem_cons_of_mem _ he)
  rw [hprog] at hbefore
  exact hbefore _ (Registry.exec_ordinary hlast)

/-- A call whose lookups met one row at most has not failed on one. -/
theorem Disciplined.not_ambiguous (h : th.Disciplined)
    (hfound : ∀ e ∈ th.trace, rowsFound e.1 e.2 ≤ 1) : th.ambiguous = false := by
  have hserved := h.served hfound
  unfold Running.ambiguous
  split
  · rename_i e hprog
    rw [hprog] at hserved
    exact beq_eq_false_iff_ne.mpr hserved
  · rfl

end Running

variable (upper : String → String)

/-- What a step does: nothing, or one call sends its next command. -/
theorem exchange_step (w : World) (i : Nat) :
    exchange upper w (.step i) = w ∧ Undisturbed w (.step i) ∨
      ∃ th ∈ w.calls, ∃ c k, th.prog = .call c k ∧
        (exchange upper w (.step i)).registry = (exec c w.registry).2 ∧
        (exchange upper w (.step i)).calls = w.calls.set i (th.sent w.registry c k) ∧
        (Undisturbed w (.step i) ↔ w.registry.Undisturbed th.seen c) := by
  cases hth : w.calls[i]? with
  | none => exact .inl (by simp [exchange, Undisturbed, hth])
  | some th =>
    cases hnext : th.next? with
    | none =>
      have hset : w.calls.set i th = w.calls := by
        obtain ⟨hi, rfl⟩ := List.getElem?_eq_some_iff.mp hth
        exact List.set_getElem_self hi
      exact .inl (by simp [exchange, Undisturbed, hth, hnext, Thread.step_none hnext, hset])
    | some c =>
      obtain ⟨k, hprog⟩ := Thread.next?_eq_some hnext
      refine .inr ⟨th, List.mem_of_getElem? hth, c, k, hprog, ?_, ?_, ?_⟩
      · simp [exchange, hth, Thread.step_call hprog]
      · simp [exchange, hth, Thread.step_call hprog, Running.sent]
      · simp [Undisturbed, hth, hnext]

/-- Where the calls of a world come from. -/
theorem calls_exchange {upper : String → String} {w : World} {m : Message} {th : Running}
    (h : th ∈ (exchange upper w m).calls) :
    th ∈ w.calls ∨ (∃ call fuel, th = begin upper call fuel) ∨
      (∃ th' ∈ w.calls, th = Running.abort th') ∨
      ∃ th' ∈ w.calls, ∃ c k, th'.prog = .call c k ∧ th = th'.sent w.registry c k := by
  cases m with
  | start call fuel =>
    rcases List.mem_append.mp h with hold | hnew
    · exact .inl hold
    · exact .inr (.inl ⟨call, fuel, List.mem_singleton.mp hnew⟩)
  | drop i =>
    obtain ⟨j, hj⟩ := List.mem_iff_getElem?.mp h
    simp only [exchange, List.getElem?_modify] at hj
    obtain ⟨th', hth', heq⟩ := Option.map_eq_some_iff.mp hj
    split at heq
    · exact .inr (.inr (.inl ⟨th', List.mem_of_getElem? hth', heq.symm⟩))
    · exact .inl (heq ▸ List.mem_of_getElem? hth')
  | step i =>
    obtain ⟨hsame, -⟩ | ⟨th', hth', c, k, hprog, -, hcalls, -⟩ := exchange_step upper w i
    · exact .inl (hsame ▸ h)
    · rw [hcalls] at h
      rcases List.mem_or_eq_of_mem_set h with hold | rfl
      · exact .inl hold
      · exact .inr (.inr (.inr ⟨th', hth', c, k, hprog, rfl⟩))

theorem wf_exchange (w : World) (m : Message) (h : w.Wf) : (exchange upper w m).Wf := by
  constructor
  · cases m with
    | start call fuel => exact h.keyed
    | drop i => exact h.keyed
    | step i =>
      obtain ⟨hsame, -⟩ | ⟨th, -, c, k, -, hregistry, -, -⟩ := exchange_step upper w i
      · rw [hsame]
        exact h.keyed
      · exact hregistry ▸ Registry.exec_keyed c h.keyed
  · intro th hth
    obtain hold | ⟨call, fuel, rfl⟩ | ⟨th', -, rfl⟩ | ⟨th', hth', c, k, hprog, rfl⟩ :=
      calls_exchange hth
    · exact h.calls th hold
    · exact .begin upper call fuel
    · exact .abort th'
    · exact (h.calls th' hth').goOn w.registry hprog

/-- From unambiguous tables a lookup meets one row at most. -/
theorem lookups_exchange {w : World} (m : Message) (hw : w.Wf) (h : w.Unambiguous) :
    ∀ th ∈ (exchange upper w m).calls, ∀ e ∈ th.trace, rowsFound e.1 e.2 ≤ 1 := by
  intro th hth e he
  obtain hold | ⟨call, fuel, rfl⟩ | ⟨th', hth', rfl⟩ | ⟨th', hth', c, k, -, rfl⟩ :=
    calls_exchange hth
  · exact h.lookups th hold e he
  · cases he
  · exact h.lookups th' hth' e he
  · rcases List.mem_cons.mp he with rfl | he
    · exact Registry.rowsFound_le c hw.keyed h.registry
    · exact h.lookups th' hth' e he

/-- From unambiguous tables a step leads to unambiguous tables exactly if it
is undisturbed. -/
theorem registry_exchange_iff {w : World} (m : Message) (hw : w.Wf) (h : w.Unambiguous) :
    (exchange upper w m).registry.Unambiguous ↔ Undisturbed w m := by
  cases m with
  | start call fuel => exact ⟨fun _ => trivial, fun _ => h.registry⟩
  | drop i => exact ⟨fun _ => trivial, fun _ => h.registry⟩
  | step i =>
    obtain ⟨hsame, hcond⟩ | ⟨th, hth, c, k, hprog, hregistry, -, hcond⟩ :=
      exchange_step upper w i
    · rw [hsame]
      exact ⟨fun _ => hcond, fun _ => h.registry⟩
    · rw [hregistry, hcond]
      exact Registry.exec_unambiguous_iff hw.keyed h.registry ((hw.calls th hth).permits hprog)

theorem unambiguous_exchange_iff (w : World) (m : Message) (hw : w.Wf) (h : w.Unambiguous) :
    (exchange upper w m).Unambiguous ↔ Undisturbed w m := by
  rw [← registry_exchange_iff upper m hw h]
  refine ⟨fun hafter => hafter.registry, fun hregistry => ?_⟩
  have hlookups := lookups_exchange upper m hw h
  have hcalls := (wf_exchange upper w m hw).calls
  exact ⟨hregistry, hlookups, fun th hth => (hcalls th hth).not_ambiguous (hlookups th hth)⟩

/-- Unambiguous tables, and nothing under way. -/
structure Start (w : World) : Prop where
  keyed : w.registry.Keyed
  registry : w.registry.Unambiguous
  calls : w.calls = []

theorem Start.wf {w : World} (h : Start w) : w.Wf :=
  ⟨h.keyed, by simp [h.calls]⟩

theorem Start.unambiguous {w : World} (h : Start w) : w.Unambiguous :=
  ⟨h.registry, by simp [h.calls], by simp [h.calls]⟩

/-- There is one faculty to a name and one group to a name and a faculty,
and every lookup meets one row at most, throughout exactly the runs in which
nothing is committed under a name that is taken. -/
theorem unambiguous_iff {w : World} (h : Start w) (ms : List Message) :
    Always (exchange upper) World.Unambiguous w ms ↔ Along (exchange upper) Undisturbed w ms :=
  always_iff_along (wf_exchange upper) (unambiguous_exchange_iff upper) h.wf h.unambiguous ms

/-- A faculty is created, a student of one of its groups files a request, and
so does another one of the group; then the group is renamed. -/
def campusDay : List Message :=
  [.start (.createFaculty { name := "Fizika", code := "FIZ" }) 0, .step 0, .step 0,
    .start (.submit "Fizika" "101-A") 9, .step 1, .step 1, .step 1, .step 1,
    .start (.submit "Fizika" "101-A") 9, .step 2, .step 2, .step 2,
    .start (.updateStudentGroup 1 { name := some (some "201-A") }) 0, .step 3, .step 3]

theorem unambiguous_iff_campusDay :
    Always (exchange id) World.Unambiguous {} campusDay ∧
      (run (exchange id) {} campusDay).registry.groups.map (·.key) = [("201-A", some 0)] :=
  ⟨(unambiguous_iff id ⟨⟨by simp, by simp, by simp⟩, ⟨by simp, by simp⟩, rfl⟩ campusDay).mpr
    (by decide +kernel), by decide +kernel⟩

/-- Two students of a new group file their first requests at once. -/
def firstSubmissions : List Message :=
  [.start (.createFaculty { name := "Fizika", code := "FIZ" }) 0, .step 0, .step 0,
    .start (.submit "Fizika" "101-A") 9, .start (.submit "Fizika" "101-A") 9,
    .step 1, .step 1, .step 2, .step 2, .step 1, .step 1, .step 2, .step 2]

/-- Each looks the group up before the other has committed it, so there are
two; and the next submission from that group is refused. -/
theorem group_twice :
    ¬ Always (exchange id) World.Unambiguous {} firstSubmissions ∧
      ((run (exchange id) {} (firstSubmissions ++
        [.start (.submit "Fizika" "101-A") 9, .step 3, .step 3])).calls[3]?.map
          Running.ambiguous) = some true :=
  ⟨fun h => absurd h.last.registry.groups (by decide +kernel), by decide +kernel⟩

end Royd.Organisation
