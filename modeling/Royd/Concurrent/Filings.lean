/-
Royd.Concurrent.Filings — what the steps of one submission do to the view of
the tables: who its caller is, what `file_request` makes of it, and what a
commit adds.
-/
import Royd.Concurrent.Registry

namespace Royd

namespace Submissions

open Api

variable {cfg : Settings}

/-! ## Identities -/

theorem identities_append (us vs : List User) :
    identities (us ++ vs) = identities us ++ identities vs := List.filterMap_append

/-- A change of people that keeps ids and HEMIS numbers keeps who is who. -/
theorem identities_map {us : List User} {f : User → User}
    (hf : ∀ u ∈ us, (f u).id = u.id ∧ (f u).hemisId = u.hemisId) :
    (us.map f).map (·.id) = us.map (·.id) ∧ identities (us.map f) = identities us := by
  constructor
  · rw [List.map_map]
    exact List.map_congr_left fun u hu => (hf u hu).1
  · unfold identities
    rw [List.filterMap_map]
    refine List.filterMap_congr fun u hu => ?_
    dsimp only [Function.comp]
    rw [(hf u hu).1, (hf u hu).2]

/-- Writing an update that keeps the HEMIS number keeps the stored one. -/
theorem User.write_hemisId {stored loaded left : User} (h : loaded.hemisId = left.hemisId) :
    (stored.write loaded left).hemisId = stored.hemisId := by
  have hget : ∀ u : User, (u.studentProfile.getD {}).externalStudentId = u.hemisId := fun u => by
    unfold User.hemisId
    cases u.studentProfile <;> rfl
  show column _ _ _ = _
  rw [hget, hget, hget, h, column_unchanged]

/-- The upsert of an identity that is there changes none. -/
theorem applySync_found {db : Db} {sync : StudentSync} {u : User} (hfound : sync.found = some u)
    (hid : u.hemisId = sync.user.hemisId) :
    (db.applySync sync).users.map (·.id) = db.users.map (·.id) ∧
      identities (db.applySync sync).users = identities db.users := by
  unfold Db.applySync
  rw [hfound]
  refine identities_map fun stored _ => ?_
  split
  · exact ⟨rfl, User.write_hemisId hid⟩
  · exact ⟨rfl, rfl⟩

/-- The upsert of a new identity adds it. -/
theorem applySync_new (db : Db) {sync : StudentSync} (hfound : sync.found = none) :
    (db.applySync sync).users = db.users ++ [sync.user] := by
  unfold Db.applySync
  rw [hfound]

theorem mem_identities {us : List User} {u : User} {h : String} (hu : u ∈ us)
    (hh : u.hemisId = some h) : (u.id, h) ∈ identities us :=
  List.mem_filterMap.mpr ⟨u, hu, by rw [hh, Option.map_some]⟩

theorem scalarOneOrNone_eq_ok {α : Type} {rows : List α} {found : Option α}
    (h : scalarOneOrNone rows = .ok found) : rows = found.toList := by
  unfold scalarOneOrNone at h
  split at h
  · cases h
    rfl
  · cases h
    rfl
  · cases h

/-- What the upsert of a student finds or makes. -/
theorem syncStudent_eq_ok {db : Db} {profile : StudentProfile} {sync : StudentSync}
    (h : syncStudent db profile = .ok sync) :
    sync.nextId = db.nextId + 3 ∧ sync.user.hemisId = some profile.studentIdNumber ∧
      match sync.found with
      | none => sync.user.id = db.nextId + 2
      | some u => u ∈ db.users ∧ u.hemisId = some profile.studentIdNumber ∧ u.id = sync.user.id := by
  obtain ⟨sync', hsync, h⟩ := bind_eq_ok.mp h
  split at h
  · cases h
    unfold syncStudentFromProfile at hsync
    split at hsync
    · cases hsync
    · obtain ⟨found, hfound, hsync⟩ := bind_eq_ok.mp hsync
      obtain ⟨faculty, _, hsync⟩ := bind_eq_ok.mp hsync
      obtain ⟨group, _, hsync⟩ := bind_eq_ok.mp hsync
      cases hsync
      refine ⟨rfl, rfl, ?_⟩
      cases found with
      | none => rfl
      | some u =>
        have hmem : u ∈ db.users.filter (hasHemisId profile.studentIdNumber) := by
          rw [scalarOneOrNone_eq_ok hfound]
          simp
        obtain ⟨hu, hhemis⟩ := List.mem_filter.mp hmem
        refine ⟨hu, ?_, rfl⟩
        unfold hasHemisId at hhemis
        unfold User.hemisId
        cases hsp : u.studentProfile with
        | none => rw [hsp] at hhemis; cases hhemis
        | some sp => simpa [hsp] using hhemis
  · cases h

/-- The caller of a submission: a committed identity, or a fresh one. -/
theorem identify_eq_ok {db : Db} {origin : Origin} {caller : Caller}
    (h : identify db origin = .ok caller) :
    caller.Formed ∧ (caller.fresh? = none → caller.Settled db.view) ∧
      ∀ n, caller.fresh? = some n → n = db.nextId + 2 ∧ n < caller.nextId := by
  cases origin with
  | student userId =>
    obtain ⟨user, huser, h⟩ := bind_eq_ok.mp h
    cases h
    have hmem : user ∈ db.users := by
      obtain ⟨user', hcurrent, huser⟩ := bind_eq_ok.mp huser
      split at huser
      · cases huser
        unfold currentUser at hcurrent
        split at hcurrent
        · cases hcurrent
        · rename_i u hu
          split at hcurrent
          · cases hcurrent
            exact List.mem_of_find?_eq_some hu
          · cases hcurrent
      · cases huser
    refine ⟨fun _ hsync => ?_, fun _ => ⟨?_, fun hemisId hh => ?_⟩, fun n hn => ?_⟩
    · cases hsync
    · exact List.mem_map_of_mem hmem
    · exact mem_identities hmem hh
    · cases hn
  | client c profile =>
    obtain ⟨sync, hsync, h⟩ := bind_eq_ok.mp h
    cases h
    obtain ⟨hnext, hhemis, hfound⟩ := syncStudent_eq_ok hsync
    cases hf : sync.found with
    | none =>
      rw [hf] at hfound
      refine ⟨fun _ heq u hu => ?_, fun hnone => ?_, fun n hn => ?_⟩
      · cases heq
        rw [hf] at hu
        cases hu
      · simp [Caller.fresh?, hf] at hnone
      · have hid : sync.user.id = n := by simpa [Caller.fresh?, hf] using hn
        rw [← hid, hfound]
        refine ⟨rfl, ?_⟩
        show db.nextId + 2 < sync.nextId
        omega
    | some u =>
      rw [hf] at hfound
      obtain ⟨hmem, hhemis', hid⟩ := hfound
      refine ⟨fun _ heq u' hu' => ?_, fun _ => ⟨?_, fun hemisId hh => ?_⟩, fun n hn => ?_⟩
      · cases heq
        rw [hf] at hu'
        cases hu'
        exact ⟨hid, hhemis'.trans hhemis.symm⟩
      · show sync.user.id ∈ _
        rw [← hid]
        exact List.mem_map_of_mem hmem
      · have hh' : sync.user.hemisId = some hemisId := hh
        show (sync.user.id, hemisId) ∈ _
        rw [← hid]
        exact mem_identities hmem (hhemis'.trans (hhemis.symm.trans hh'))
      · simp [Caller.fresh?, hf] at hn

/-! ## Filing -/

/-- What `file_request` makes of a submission: its caller's entry under a new
id. -/
theorem file_eq_ok {db : Db} {c : Caller} {data : RequestCreate} {trackingNo : String}
    {key : Option String} {now : Int} {f : Filing}
    (h : c.file cfg db data trackingNo key now = .ok f) :
    f.sync = c.sync? ∧ f.req.entry = c.entry key f.req.id ∧ db.nextId ≤ f.req.id ∧
      f.req.id < f.session.nextId := by
  have hfile : ∀ {base : Db} {student : User} {client : Option ApiClient} {req : Request}
      {s : Session}, fileRequest cfg base student data trackingNo key client now = .ok (req, s) →
      req.entry = ⟨req.id, student.id, key, client.map (·.id)⟩ ∧ req.id = base.nextId ∧
        req.id < s.nextId := by
    intro base student client req s hfile
    obtain ⟨category, first, second, fs, hfiled, -, hholds⟩ := fileRequest_filed hfile
    refine ⟨?_, hfiled.id, ?_⟩
    · obtain ⟨⟨req₀, s₀⟩, hcreate, hfile⟩ := bind_eq_ok.mp hfile
      cases hfile
      obtain ⟨_, _, hcreate⟩ := bind_eq_ok.mp hcreate
      obtain ⟨_, _, hcreate⟩ := bind_eq_ok.mp hcreate
      obtain ⟨_, _, hcreate⟩ := bind_eq_ok.mp hcreate
      cases hcreate
      unfold newRequest
      dsimp only
      split <;> rfl
    · rw [hfiled.id, Session.nextId, hholds.start]
      omega
  cases c with
  | student user =>
    obtain ⟨⟨req, s⟩, hcreate, h⟩ := bind_eq_ok.mp h
    cases h
    obtain ⟨hentry, hid, hlt⟩ := hfile hcreate
    exact ⟨rfl, hentry, hid.ge, hlt⟩
  | client c sync =>
    obtain ⟨⟨req, s⟩, hcreate, h⟩ := bind_eq_ok.mp h
    cases h
    obtain ⟨hentry, hid, hlt⟩ := hfile hcreate
    exact ⟨rfl, hentry, hid.ge.trans' (Nat.le_max_left _ _), hlt⟩

theorem checkUnique_eq_ok {db : Db} {f : Filing} {u : Unit} (h : checkUnique db f = .ok u) :
    (∀ sync, f.sync = some sync → sync.found = none → ∀ hemisId, sync.user.hemisId = some hemisId →
      hemisId ∉ (identities db.users).map Prod.snd) ∧
    ∀ e ∈ db.view.registry, e.Distinct f.req.entry := by
  unfold checkUnique at h
  split at h
  · cases h
  rename_i hperson
  split at h
  · cases h
  split at h
  · cases h
  rename_i hkey
  constructor
  · intro sync hsync hfound hemisId hh hmem
    obtain ⟨⟨id, taken⟩, htaken, heq⟩ := List.mem_map.mp hmem
    obtain ⟨user, huser, htaken⟩ := List.mem_filterMap.mp htaken
    obtain ⟨hemisId', hh', hpair⟩ := Option.map_eq_some_iff.mp htaken
    cases hpair
    dsimp only at heq
    subst heq
    obtain ⟨sp, hsp, hext⟩ := Option.bind_eq_some_iff.mp hh
    obtain ⟨sp', hsp', hext'⟩ := Option.bind_eq_some_iff.mp hh'
    refine hperson ?_
    rw [hsync, Option.any_some, hfound, hsp, Option.any_some]
    simp only [Option.isNone_none, Bool.true_and, List.any_eq_true]
    exact ⟨user, huser, by simp [hsp', hext, hext']⟩
  · intro e he hsame
    obtain ⟨r, hr, rfl⟩ := List.mem_map.mp he
    obtain ⟨hsome, hstudent, href⟩ := hsame
    refine hkey ?_
    rw [List.any_eq_true]
    refine ⟨r, hr, ?_⟩
    simp only [Bool.and_eq_true, beq_iff_eq]
    exact ⟨⟨hsome, hstudent⟩, href⟩

/-- A commit adds the caller's entry, and its identity if that is new. -/
theorem commitFiling_grows {db db' : Db} {p : Party} {f : Filing} (hp : p.Ok db.view)
    (hstage : p.stage = .committing f) (hpeople : ((identities db.users).map Prod.snd).Nodup)
    (h : commitFiling db f = .ok db') :
    db.view.Grows db'.view p.fresh?.toList p.brings [f.req.entry] ∧
      ((identities db'.users).map Prod.snd).Nodup ∧
      ∀ e ∈ db.view.registry, e.Distinct f.req.entry := by
  obtain ⟨hunique, rfl⟩ := commitFiling_eq_ok h
  obtain ⟨hperson, hkey⟩ := checkUnique_eq_ok hunique
  obtain ⟨hsync, -⟩ := hp.pending f hstage
  have hfresh : p.fresh? = p.caller.fresh? := by rw [Party.fresh?, hstage]
  have hreq : ∀ base : Db, base.requests = db.requests →
      (base.requests ++ [f.req]).map Request.entry = db.view.registry ++ [f.req.entry] :=
    fun base hbase => by rw [hbase, List.map_append]; rfl
  cases hc : p.caller with
  | student user =>
    rw [hc] at hsync hfresh
    have hsync' : f.sync = none := hsync
    have hnone : p.fresh? = none := hfresh
    unfold insertFiling Party.brings
    rw [hsync', hnone]
    exact ⟨⟨Nat.le_max_left _ _, (List.append_nil _).symm, (List.append_nil _).symm, hreq db rfl⟩,
      hpeople, hkey⟩
  | client c sync =>
    have hsync' : f.sync = some sync := by rw [hsync, hc]; rfl
    have hle : db.nextId ≤ (db.applySync sync).nextId := Nat.le_max_left _ _
    have hreqs : (db.applySync sync).requests = db.requests := rfl
    cases hf : sync.found with
    | some u =>
      obtain ⟨-, hhemis⟩ := hp.formed sync (by rw [hc]; rfl) u hf
      obtain ⟨hids, hident⟩ := applySync_found hf hhemis
      have hnone : p.fresh? = none := by rw [hfresh, hc]; simp [Caller.fresh?, hf]
      unfold insertFiling Party.brings
      rw [hsync', hnone]
      refine ⟨⟨hle.trans (Nat.le_max_left _ _), ?_, ?_, hreq _ hreqs⟩, ?_, hkey⟩
      · exact hids.trans (List.append_nil _).symm
      · exact hident.trans (List.append_nil _).symm
      · show ((identities (db.applySync sync).users).map Prod.snd).Nodup
        rwa [hident]
    | none =>
      have hnew := applySync_new db hf
      have hsome : p.fresh? = some sync.user.id := by rw [hfresh, hc]; simp [Caller.fresh?, hf]
      have hbrings : p.brings = identities [sync.user] := by
        unfold Party.brings identities
        rw [hsome, hc]
        show (sync.user.hemisId.map _).toList = _
        cases hh : sync.user.hemisId <;> simp [hh]
      unfold insertFiling
      rw [hsync', hsome, hbrings]
      refine ⟨⟨hle.trans (Nat.le_max_left _ _), ?_, ?_, hreq _ hreqs⟩, ?_, hkey⟩
      · show (db.applySync sync).users.map (·.id) = _
        rw [hnew, List.map_append]
        rfl
      · show identities (db.applySync sync).users = _
        rw [hnew, identities_append]
        rfl
      · show ((identities (db.applySync sync).users).map Prod.snd).Nodup
        rw [hnew, identities_append, List.map_append, List.nodup_append]
        refine ⟨hpeople, ?_, ?_⟩
        · unfold identities
          cases hh : sync.user.hemisId <;> simp [hh]
        · intro taken htaken hemisId hmem heq
          have hh : sync.user.hemisId = some hemisId := by
            unfold identities at hmem
            cases hh : sync.user.hemisId <;> simp [hh] at hmem ⊢
            exact hmem.symm
          exact hperson sync hsync' hf hemisId hh (heq ▸ htaken)

end Submissions

end Royd
