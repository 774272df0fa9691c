/-
Royd.Directory.References — the references of a request stay good.

A request names its student and its service. No operation deletes either row,
so along every run of the office both are found, and the page of a request
(`get_detail`) opens for everybody who may see it (`Db.Whole.opens_iff`).
-/
import Royd.Api.FailedAnswers
import Royd.Directory.Owners
import Royd.Lifecycle.Acts
import Royd.Lifecycle.Reports

namespace Royd

open Api Runs

variable {cfg : Settings} {db db' : Db} {now : Int}

/-- Every request has its student among the users. -/
def Db.Owned (db : Db) : Prop :=
  ∀ r ∈ db.requests, ∃ u ∈ db.users, u.id = r.studentId

/-- The tables are well formed, and a request's student and service are in them. -/
structure Db.Whole (db : Db) : Prop where
  wf : db.Wf
  userIds : db.UserIds
  owned : db.Owned
  categorized : db.Categorized

/-! ## Users stay -/

theorem exists_id_replaceUser {users : List User} {user left : User} (hid : left.id = user.id)
    {id : Nat} (h : ∃ u ∈ users, u.id = id) : ∃ u ∈ replaceUser users user left, u.id = id := by
  obtain ⟨u, hu, rfl⟩ := h
  by_cases hsame : u.id = user.id
  · exact ⟨left, List.mem_map.mpr ⟨u, hu, if_pos hsame⟩, hid.trans hsame.symm⟩
  · exact ⟨u, List.mem_map.mpr ⟨u, hu, if_neg hsame⟩, rfl⟩

/-- An edit takes no user away. -/
theorem Edits.keeps_users {e : UserEdit} {users : List User} (h : Edits db e users) {id : Nat}
    (hid : ∃ u ∈ db.users, u.id = id) : ∃ u ∈ users, u.id = id := by
  cases h with
  | refused => exact hid
  | created =>
    obtain ⟨u, hu, rfl⟩ := hid
    exact ⟨u, List.mem_append_left _ hu, rfl⟩
  | updated => exact exists_id_replaceUser (by rfl) hid
  | deleted => exact exists_id_replaceUser (by rfl) hid
  | joined =>
    obtain ⟨u, hu, rfl⟩ := hid
    exact ⟨u, List.mem_append_left _ hu, rfl⟩
  | synced listed was id => exact exists_id_replaceUser id hid

theorem happens_keeps_users (hids : db.UserIds) (hwf : db.Wf) {e : OfficeEvent}
    (hforeign : e.isForeign = false) {id : Nat} (h : ∃ u ∈ db.users, u.id = id) :
    ∃ u ∈ (happens cfg db e).users, u.id = id := by
  cases e with
  | request e =>
    rcases (step_users hids hwf hforeign).2 with hsame | ⟨profile, hedits⟩
    · exact hsame ▸ h
    · exact hedits.keeps_users h
  | user e => exact (edit_edits hids e).1.keeps_users h

/-- The student a submission is for is in the table it leaves. -/
theorem applySync_student {profile : StudentProfile} {sync : StudentSync}
    (h : syncStudentFromProfile db profile = .ok sync) :
    ∃ u ∈ (db.applySync sync).users, u.id = sync.user.id := by
  unfold syncStudentFromProfile at h
  split at h
  · cases h
  obtain ⟨found, hfound, h⟩ := bind_eq_ok.mp h
  obtain ⟨faculty, -, h⟩ := bind_eq_ok.mp h
  obtain ⟨group, -, h⟩ := bind_eq_ok.mp h
  cases h
  cases found with
  | none => exact ⟨_, List.mem_append_right _ (List.mem_singleton_self _), rfl⟩
  | some user =>
    have hmem : user ∈ db.users := by
      unfold scalarOneOrNone at hfound
      split at hfound
      · cases hfound
      · rename_i row hrows
        cases hfound
        exact List.mem_of_mem_filter (hrows ▸ List.mem_singleton_self user)
      · cases hfound
    exact ⟨_, List.mem_map.mpr ⟨user, hmem, if_pos rfl⟩, rfl⟩

/-! ## Owners stay -/

theorem Change.studentId {start : Nat} {r req' : Request} {s : Session}
    (h : Change cfg start now r req' s) : req'.studentId = r.studentId := by
  cases h with
  | assigned => rfl
  | moved _ _ applied => rw [applied.shape]
  | answered _ _ _ _ applied => rw [applied.shape]
  | said => rfl
  | attached => rfl
  | noticed => rfl

/-- Every request belongs to a student some request belonged to. -/
def SameOwners (db db' : Db) : Prop :=
  ∀ r' ∈ db'.requests, ∃ r ∈ db.requests, r.studentId = r'.studentId

theorem SameOwners.refl (db : Db) : SameOwners db db := fun r hr => ⟨r, hr, rfl⟩

theorem SameOwners.trans {db₁ db₂ db₃ : Db} (h : SameOwners db₁ db₂) (h' : SameOwners db₂ db₃) :
    SameOwners db₁ db₃ := by
  intro r₃ hr₃
  obtain ⟨r₂, hr₂, h₂⟩ := h' r₃ hr₃
  obtain ⟨r₁, hr₁, h₁⟩ := h r₂ hr₂
  exact ⟨r₁, hr₁, h₁.trans h₂⟩

theorem finish_sameOwners {w : Work} (hwf : db.Wf) (hmem : w.loaded ∈ db.requests)
    (hchange : Change cfg db.nextId now w.loaded w.req w.session) :
    SameOwners db (db.finish w) := by
  intro r' hr'
  rcases mem_finish_requests hwf hmem hchange hr' with rfl | hr'
  · exact ⟨w.loaded, hmem, hchange.studentId.symm⟩
  · exact ⟨r', hr', rfl⟩

/-- The filings apart, no step gives a request to another student. -/
theorem step_owners (hwf : db.Wf) (e : Event) {r' : Request}
    (hr' : r' ∈ (step cfg db e).requests) :
    (∃ r ∈ db.requests, r.studentId = r'.studentId) ∨
      ∃ u ∈ (step cfg db e).users, u.id = r'.studentId := by
  obtain ⟨now, s⟩ := e
  unfold step at hr' ⊢
  cases happly : s.apply cfg db now with
  | error _ =>
    rw [happly] at hr'
    exact .inl (SameOwners.refl db r' hr')
  | ok db' =>
    rw [happly] at hr'
    dsimp only at hr' ⊢
    cases s with
    | create userId data key trackingNo =>
      obtain ⟨student, hstudent, rfl | ⟨req, session, hfile, rfl⟩⟩ := runCreate_eq_ok happly
      · exact .inl (SameOwners.refl _ r' hr')
      · rcases List.mem_append.mp hr' with hr' | hr'
        · exact .inl (SameOwners.refl db r' hr')
        · obtain rfl := List.mem_singleton.mp hr'
          obtain ⟨first, second, fs, hopened⟩ := fileRequest_opened hfile
          obtain ⟨user, hcurrent, hrole⟩ := bind_eq_ok.mp hstudent
          split at hrole
          · cases hrole
            have hmem := (getUser_eq_some (currentUser_eq_ok.mp hcurrent).1).1
            exact .inr ⟨student, hmem, hopened.owner.symm⟩
          · cases hrole
    | clientCreate client profile data key trackingNo =>
      obtain ⟨sync, hsync, rfl | ⟨req, session, hfile, rfl⟩⟩ := runClientCreate_eq_ok happly
      · exact .inl (SameOwners.refl _ r' hr')
      · rcases List.mem_append.mp hr' with hr' | hr'
        · exact .inl (SameOwners.refl db r' hr')
        · obtain rfl := List.mem_singleton.mp hr'
          obtain ⟨first, second, fs, hopened⟩ := fileRequest_opened hfile
          obtain ⟨sync', hsync', hactive⟩ := bind_eq_ok.mp hsync
          split at hactive
          · cases hactive
            obtain ⟨u, hu, hid⟩ := applySync_student hsync'
            exact .inr ⟨u, hu, hid.trans hopened.owner.symm⟩
          · cases hactive
    | call c =>
      obtain ⟨w, hhandle, happly⟩ := bind_eq_ok.mp happly
      cases happly
      obtain ⟨hmem, -, hchange⟩ := handle_change hhandle
      exact .inl (finish_sameOwners hwf hmem hchange r' hr')
    | sweep useLock won =>
      cases happly
      exact .inl (sweep_relates (R := SameOwners) .refl .trans (fun db r hwf hr hneeds =>
        finish_sameOwners hwf hr (sweepOne_change (needsNotice_running hneeds))) hwf useLock won
        r' hr')
    | catalogue edit =>
      rw [(catalogueEdit_tables happly).2.1] at hr'
      exact .inl (SameOwners.refl db r' hr')
    | people users departments faculties studentGroups =>
      cases happly
      exact .inl (SameOwners.refl db r' hr')

/-! ## Every run -/

theorem happens_owned (hwf : db.Wf) (hids : db.UserIds) (h : db.Owned) {e : OfficeEvent}
    (hforeign : e.isForeign = false) : (happens cfg db e).Owned := by
  have hkeep : ∀ r ∈ db.requests, ∃ u ∈ (happens cfg db e).users, u.id = r.studentId :=
    fun r hr => happens_keeps_users hids hwf hforeign (h r hr)
  intro r' hr'
  cases e with
  | request e =>
    rcases step_owners hwf e hr' with ⟨r, hr, howner⟩ | howned
    · exact howner ▸ hkeep r hr
    · exact howned
  | user e => exact hkeep r' (edit_requests db e ▸ hr')

theorem happens_categorized (hwf : db.Wf) (h : db.Categorized) (e : OfficeEvent) :
    (happens cfg db e).Categorized := by
  cases e with
  | request e => exact step_categorized cfg hwf h e
  | user e =>
    intro r hr
    obtain ⟨n, users, faculties, studentGroups, logs, -, heq⟩ := edit_outside db e
    rw [happens, heq] at hr ⊢
    exact h r hr

theorem happens_whole (h : db.Whole) {e : OfficeEvent} (hforeign : e.isForeign = false) :
    (happens cfg db e).Whole :=
  ⟨happens_wf h.wf e, happens_ids h.userIds h.wf hforeign,
    happens_owned h.wf h.userIds h.owned hforeign, happens_categorized h.wf h.categorized e⟩

theorem Start.whole (h : Start db) (hids : db.UserIds) : db.Whole := by
  refine ⟨h.wf, hids, fun r hr => ?_, fun r hr => ?_⟩
  · rw [h.requests] at hr
    cases hr
  · rw [h.requests] at hr
    cases hr

theorem run_whole (cfg : Settings) {db₀ : Db} (h : Start db₀) (hids : db₀.UserIds) :
    ∀ es : List OfficeEvent, (∀ e ∈ es, e.isForeign = false) →
      (run (happens cfg) db₀ es).Whole := by
  intro es
  induction es using List.reverseRecOn with
  | nil => exact fun _ => h.whole hids
  | append_singleton es e ih =>
    intro hes
    rw [run_concat]
    exact happens_whole (ih fun e he => hes e (List.mem_append_left _ he)) (hes e (by simp))

/-! ## What a page shows -/

variable {updatedAt : Nat → Int} {userId requestId : Nat}

variable (now updatedAt) in
/-- A request can be shown, with its own status and handler. -/
theorem Db.Whole.forViewer_eq_ok (h : db.Whole) {r : Request} (hr : r ∈ db.requests)
    (includeInternal : Bool) :
    ∃ d, forViewer db updatedAt now includeInternal r = .ok d ∧ d.status = r.status ∧
      d.assignedTo = r.assignedTo := by
  obtain ⟨service, hservice⟩ : ∃ service, db.getCategory r.categoryId = some service := by
    obtain ⟨cat, hcat, hid⟩ := h.categorized r hr
    exact Option.isSome_iff_exists.mp (List.find?_isSome.mpr ⟨cat, hcat, by simp [hid]⟩)
  obtain ⟨student, hstudent⟩ : ∃ student, db.getUser r.studentId = some student := by
    obtain ⟨u, hu, hid⟩ := h.owned r hr
    exact Option.isSome_iff_exists.mp (List.find?_isSome.mpr ⟨u, hu, by simp [hid]⟩)
  unfold forViewer
  rw [hservice, hstudent]
  exact ⟨_, rfl, rfl, rfl⟩

/-- The page of a request opens exactly for the users who may see it. -/
theorem Db.Whole.opens_iff (h : db.Whole) {user : User}
    (huser : currentUser db userId = .ok user) {P : RequestStatus → Option Nat → Prop} :
    (∃ d, getDetail db updatedAt now userId requestId = .ok d ∧ P d.status d.assignedTo) ↔
      ∃ r, db.getRequest requestId = some r ∧ assertCanView r user = .ok () ∧
        P r.status r.assignedTo := by
  have hdetail : getDetail db updatedAt now userId requestId =
      (getRequestForUser db requestId user >>= fun w =>
        forViewer db updatedAt now (seesInternal user) w.req) := by
    unfold getDetail
    rw [huser]
    rfl
  rw [hdetail]
  constructor
  · rintro ⟨d, hd, hP⟩
    obtain ⟨w, hw, hview⟩ := bind_eq_ok.mp hd
    obtain ⟨r, hfound, hcan, rfl⟩ := getRequestForUser_iff.mp hw
    obtain ⟨d', hd', hstatus, hassigned⟩ :=
      h.forViewer_eq_ok now updatedAt (getRequest_mem hfound).1 (seesInternal user)
    cases hd'.symm.trans hview
    exact ⟨r, hfound, hcan, hstatus ▸ hassigned ▸ hP⟩
  · rintro ⟨r, hfound, hcan, hP⟩
    obtain ⟨d, hd, hstatus, hassigned⟩ :=
      h.forViewer_eq_ok now updatedAt (getRequest_mem hfound).1 (seesInternal user)
    refine ⟨d, bind_eq_ok.mpr ⟨_, getRequestForUser_iff.mpr ⟨r, hfound, hcan, rfl⟩, hd⟩, ?_⟩
    rw [hstatus, hassigned]
    exact hP

end Royd
