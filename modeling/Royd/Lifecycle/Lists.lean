/-
Royd.Lifecycle.Lists — the list of requests, read page by page while people
work.

What a filing fixes of a row (`Request.fixed`) no event writes to, and no row
is ever removed, so along a run the fixed parts of the table only grow at the
end (`run_fixed`). A list whose filters look at nothing else can be read by
limit and offset without missing a row (`paging_misses_nothing`).

The list is sorted by `created_at` alone. What the database does with requests
of one instant is up to it at each page, so it is asked that they do not change
places in between.
-/
import Royd.Api.Deeds
import Royd.Api.Views
import Royd.Lib.Paging
import Royd.Lifecycle.Runs
import Mathlib.Data.List.Sort

namespace Royd

open Api

/-! ## What a filing fixes -/

/-- The columns of a request that are never assigned to again. -/
structure FixedColumns where
  id : Nat
  trackingNo : String
  studentId : Nat
  categoryId : Nat
  title : String
  description : String
  createdAt : Int
  deriving DecidableEq, Repr

def Request.fixed (r : Request) : FixedColumns where
  id := r.id
  trackingNo := r.trackingNo
  studentId := r.studentId
  categoryId := r.categoryId
  title := r.title
  description := r.description
  createdAt := r.createdAt

/-- The fixed columns of every request, in the order they were filed. -/
def Db.fixed (db : Db) : List FixedColumns := db.requests.map (·.fixed)

variable {cfg : Settings} {now : Int} {cats : List RequestCategory} {db db' : Db}

theorem effect_fixed (h : Effect cfg now cats db db') : db.fixed <+: db'.fixed := by
  cases h with
  | outside requests =>
    have hsame : db'.fixed = db.fixed := congrArg (List.map Request.fixed) requests
    exact hsame ▸ List.prefix_rfl
  | filed => exact ⟨_, (List.map_append).symm⟩
  | @changed w committed change =>
    have hsame : (db.finish w).fixed = db.fixed := by
      unfold Db.fixed Db.finish Db.updateRequest Db.commit
      dsimp only
      rw [List.map_map]
      refine List.map_congr_left fun row _ => ?_
      dsimp only [Function.comp_apply]
      split <;> rfl
    exact hsame ▸ List.prefix_rfl

theorem effects_fixed (h : Effects cfg now cats db db') : db.fixed <+: db'.fixed := by
  induction h with
  | refl => exact List.prefix_rfl
  | tail _ hlast ih => exact ih.trans (effect_fixed hlast)

/-- Along a run requests are added, and their fixed columns stay. -/
theorem run_fixed (cfg : Settings) (hwf : db.Wf) (es : List Event) :
    db.fixed <+: (Runs.run (step cfg) db es).fixed := by
  refine (Runs.run_invariant (I := fun db' : Db => db'.Wf ∧ db.fixed <+: db'.fixed) ?_
    ⟨hwf, List.prefix_rfl⟩ es).2
  intro db' e hdb
  exact ⟨(step_life cfg hdb.1 e).1, hdb.2.trans (effects_fixed (step_effects hdb.1 e))⟩

/-! ## Steady lists -/

/-- The filters look at nothing that changes after the filing. -/
structure Steady (f : RequestFilters) : Prop where
  status : f.status = none
  facultyId : f.facultyId = none
  assignedTo : f.assignedTo = none
  unassigned : f.unassigned.getD false = false
  overdue : f.overdue.getD false = false

/-- What is left of the `where` for such filters. -/
def steadyFilter (ilike : String → String → Bool) (role : Role) (userId : Nat)
    (f : RequestFilters) (c : FixedColumns) : Bool :=
  (if role = .student then c.studentId == userId else true)
    && f.categoryId.all (c.categoryId == ·)
    && (f.search.all fun text => text.isEmpty
      || [c.title, c.description, c.trackingNo].any (ilike · ("%" ++ text ++ "%")))

variable {ilike : String → String → Bool} {f : RequestFilters} {user : User}

theorem where_steady (hsteady : Steady f) (hrole : user.role ≠ .staff) (now : Int) (r : Request) :
    (inScope user r && matchesFilters now ilike f none r) =
      steadyFilter ilike user.role user.id f r.fixed := by
  have hscope : inScope user r = if user.role = .student then r.studentId == user.id else true := by
    unfold inScope
    cases hr : user.role with
    | staff => exact absurd hr hrole
    | _ => rfl
  unfold matchesFilters steadyFilter
  rw [hscope, hsteady.facultyId, hsteady.assignedTo, hsteady.unassigned, hsteady.overdue]
  simp [Request.fixed, Bool.and_assoc]

/-- A page as the list of all that pass the filters has it. -/
theorem listRequestsIn_eq_ok {updatedAt : Nat → Int} {sort : List Request → List Request}
    {userId : Nat} {bounds : PageBounds} {p : Page RequestSummary} (hsteady : Steady f)
    (h : listRequestsIn db updatedAt now sort ilike userId f bounds = .ok p) :
    ∃ user, currentUser db userId = .ok user ∧
      p = pageIn updatedAt now sort (db.requests.filter fun r =>
        inScope user r && matchesFilters now ilike f none r) bounds := by
  obtain ⟨user, huser, h⟩ := bind_eq_ok.mp h
  obtain ⟨status, hstatus, h⟩ := bind_eq_ok.mp h
  rw [hsteady.status] at hstatus
  cases hstatus
  cases h
  exact ⟨user, huser, rfl⟩

/-- A sort of the list: the newest first, and those of one instant in any order. -/
structure NewestFirst (sort : List Request → List Request) : Prop where
  perm : ∀ rows, (sort rows).Perm rows
  sorted : ∀ rows, (sort rows).Pairwise fun a b => b.createdAt ≤ a.createdAt

theorem newestFirst_orderBy : NewestFirst (orderBy fun r => -r.createdAt) where
  perm rows := List.perm_insertionSort _ rows
  sorted rows := (List.pairwise_insertionSort _ rows).imp fun h => Int.le_of_neg_le_neg h

/-- The fixed columns of the rows that are kept. -/
theorem fixed_filter (db : Db) (keep : FixedColumns → Bool) :
    (db.requests.filter fun r => keep r.fixed).map (·.fixed) = db.fixed.filter keep := by
  unfold Db.fixed
  rw [List.filter_map]
  rfl

/-- Before in the list: filed later, or at the same instant and before in `before`. -/
def Ahead (before : Nat → Nat → Prop) (a b : FixedColumns) : Prop :=
  b.createdAt < a.createdAt ∨ (a.createdAt = b.createdAt ∧ before a.id b.id)

theorem ahead_antisymm {before : Nat → Nat → Prop} (h : ∀ a b, before a b → ¬ before b a) :
    Std.Antisymm (Ahead before) where
  antisymm a b hab hba := by
    rcases hab with hlt | ⟨heq, hab⟩
    · rcases hba with hlt' | ⟨heq', -⟩
      · exact absurd hlt' hlt.asymm
      · exact absurd heq' hlt.ne
    · rcases hba with hlt' | ⟨-, hba⟩
      · exact absurd heq hlt'.ne
      · exact absurd hba (h _ _ hab)

/-- Two lists in one order, of which the one has the rows of the other and more. -/
theorem sorted_sublist {before : Nat → Nat → Prop} (h : ∀ a b, before a b → ¬ before b a)
    {rows rows' : List FixedColumns} (hnodup : rows.Nodup) (hsub : rows ⊆ rows')
    (hrows : rows.Pairwise (Ahead before)) (hrows' : rows'.Pairwise (Ahead before)) :
    rows.Sublist rows' :=
  have := ahead_antisymm h
  List.sublist_of_subperm_of_pairwise (List.subperm_of_subset hnodup hsub) hrows hrows'

/-! ## What is listed can be opened -/

/-- The row filter of the list is the check of the detail. -/
theorem assertCanView_iff {r : Request} :
    (assertCanView r user = .ok ()) ↔ inScope user r = true := by
  unfold assertCanView inScope
  cases hrole : user.role with
  | student => by_cases h : r.studentId = user.id <;> simp [h]
  | staff => by_cases h : r.assignedTo = some user.id <;> simp [h]
  | _ => simp

theorem opens_iff (hwf : db.Wf) {r : Request} (hr : r ∈ db.requests) :
    (∃ w, getRequestForUser db r.id user = .ok w) ↔ inScope user r = true := by
  unfold getRequestForUser
  rw [hwf.getRequest hr, ← assertCanView_iff]
  dsimp only
  constructor
  · rintro ⟨w, hw⟩
    obtain ⟨_, hview, -⟩ := bind_eq_ok.mp hw
    exact hview
  · exact fun hview => ⟨_, bind_eq_ok.mpr ⟨(), hview, rfl⟩⟩

/-- A page shows requests its reader may open. -/
theorem page_opens (hwf : db.Wf) {updatedAt : Nat → Int} {sort : List Request → List Request}
    (hsort : NewestFirst sort) {userId : Nat} {bounds : PageBounds} {p : Page RequestSummary}
    (hpage : listRequestsIn db updatedAt now sort ilike userId f bounds = .ok p) {item : RequestSummary} (hitem : item ∈ p.items) :
    ∃ user w, currentUser db userId = .ok user ∧ getRequestForUser db item.id user = .ok w := by
  obtain ⟨user, huser, hpage⟩ := bind_eq_ok.mp hpage
  obtain ⟨status, -, hpage⟩ := bind_eq_ok.mp hpage
  cases hpage
  obtain ⟨r, hr, rfl⟩ := List.mem_map.mp hitem
  have hlisted := (hsort.perm _).mem_iff.mp (List.mem_of_mem_drop (List.mem_of_mem_take hr))
  obtain ⟨hmem, hkept⟩ := List.mem_filter.mp hlisted
  obtain ⟨w, hw⟩ := (opens_iff hwf hmem).mpr (Bool.and_eq_true_iff.mp hkept).1
  exact ⟨user, w, huser, hw⟩

/-! ## Reading the list -/

/-- A list read page by page, by a caller who keeps their role, from some
state of a run on. Anything may happen between two pages, and each is sorted on
its own. -/
structure Reading (cfg : Settings) (ilike : String → String → Bool) (db₀ : Db)
    (f : RequestFilters) (userId : Nat) (role : Role) where
  limit : Nat
  /-- The number of the last page that is read. -/
  last : Nat
  db : ℕ → Db
  updatedAt : ℕ → Nat → Int
  now : ℕ → Int
  sort : ℕ → List Request → List Request
  bounds : ℕ → PageBounds
  pages : ℕ → Page RequestSummary
  first : ∃ es, db 0 = Runs.run (step cfg) db₀ es
  next : ∀ k, ∃ es, db (k + 1) = Runs.run (step cfg) (db k) es
  sorts : ∀ k, NewestFirst (sort k)
  window : ∀ k, (bounds k).limit = limit ∧ (bounds k).offset = k * limit
  served : ∀ k ≤ last,
    listRequestsIn (db k) (updatedAt k) (now k) (sort k) ilike userId f (bounds k) = .ok (pages k)
  reader : ∀ k ≤ last, ∀ user, currentUser (db k) userId = .ok user → user.role = role

/-- The last page reaches the end of the list. -/
def Reading.Whole {ilike : String → String → Bool} {db₀ : Db} {userId : Nat} {role : Role}
    (w : Reading cfg ilike db₀ f userId role) : Prop :=
  (w.pages w.last).total ≤ (w.last + 1) * w.limit

/-- The list that a page is a page of, where the filters are steady. -/
def Reading.rows {ilike : String → String → Bool} {db₀ : Db} {userId : Nat} {role : Role}
    (w : Reading cfg ilike db₀ f userId role) (k : ℕ) : List Request :=
  w.sort k ((w.db k).requests.filter fun r => steadyFilter ilike role userId f r.fixed)

/-- Requests that were filed at one instant come in one order on all pages. -/
def Reading.TiesKept {ilike : String → String → Bool} {db₀ : Db} {userId : Nat} {role : Role}
    (w : Reading cfg ilike db₀ f userId role) : Prop :=
  ∃ before : Nat → Nat → Prop, (∀ a b, before a b → ¬ before b a) ∧
    ∀ k ≤ w.last, (w.rows k).Pairwise fun a b => a.createdAt = b.createdAt → before a.id b.id

variable {db₀ : Db} {userId : Nat} {role : Role}

theorem Reading.wf (w : Reading cfg ilike db₀ f userId role) (h : Start db₀) :
    ∀ k, (w.db k).Wf := by
  intro k
  induction k with
  | zero =>
    obtain ⟨es, hes⟩ := w.first
    exact hes ▸ run_wf cfg h.wf es
  | succ k ih =>
    obtain ⟨es, hes⟩ := w.next k
    exact hes ▸ run_wf cfg ih es

theorem Reading.rows_perm (w : Reading cfg ilike db₀ f userId role) (k : ℕ) :
    (w.rows k).Perm
      ((w.db k).requests.filter fun r => steadyFilter ilike role userId f r.fixed) :=
  (w.sorts k).perm _

/-- Where no two were filed at one instant there is nothing to keep. -/
theorem Reading.tiesKept_of_distinct (w : Reading cfg ilike db₀ f userId role)
    (h : ∀ k ≤ w.last, ((w.db k).requests.map (·.createdAt)).Nodup) : w.TiesKept := by
  refine ⟨fun _ _ => False, fun _ _ hfalse => hfalse.elim, fun k hk => ?_⟩
  have hdistinct : ((w.rows k).map (·.createdAt)).Nodup :=
    ((w.rows_perm k).map _).nodup_iff.mpr ((h k hk).sublist (List.filter_sublist.map _))
  exact List.pairwise_map.mp hdistinct

/-- A page is a page of the list. -/
theorem Reading.pages_eq (w : Reading cfg ilike db₀ f userId role) (hrole : role ≠ .staff)
    (hsteady : Steady f) {k : ℕ} (hk : k ≤ w.last) :
    (w.pages k).total = (w.rows k).length ∧
      (w.pages k).items.map (·.id) = Paging.page w.limit k ((w.rows k).map (·.id)) := by
  obtain ⟨reader, hreader, hpage⟩ := listRequestsIn_eq_ok hsteady (w.served k hk)
  have hreaderRole := w.reader k hk reader hreader
  have hreaderId : reader.id = userId := (Tables.find?_mem (currentUser_eq_ok.mp hreader).1).2
  have hfilter : ((w.db k).requests.filter fun r =>
        inScope reader r && matchesFilters (w.now k) ilike f none r) =
      (w.db k).requests.filter fun r => steadyFilter ilike role userId f r.fixed := by
    refine List.filter_congr fun r _ => ?_
    rw [where_steady hsteady (hreaderRole ▸ hrole), hreaderRole, hreaderId]
  rw [hpage, hfilter]
  constructor
  · exact (w.rows_perm k).length_eq.symm
  · obtain ⟨hlimit, hoffset⟩ := w.window k
    unfold pageIn Paging.page Reading.rows
    dsimp only
    rw [hlimit, hoffset, List.map_map, ← List.map_drop, ← List.map_take]
    rfl

theorem Reading.ids_nodup (w : Reading cfg ilike db₀ f userId role) (h : Start db₀) (k : ℕ) :
    ((w.rows k).map (·.id)).Nodup :=
  ((w.rows_perm k).map _).nodup_iff.mpr
    ((w.wf h k).requestIds.sublist (List.filter_sublist.map _))

/-- The list keeps its order and gets more rows. -/
theorem Reading.grows (w : Reading cfg ilike db₀ f userId role) (h : Start db₀)
    (hties : w.TiesKept) {k : ℕ} (hk : k < w.last) :
    ((w.rows k).map (·.id)).Sublist ((w.rows (k + 1)).map (·.id)) := by
  obtain ⟨before, hasymm, hbefore⟩ := hties
  have hsorted : ∀ j ≤ w.last, ((w.rows j).map (·.fixed)).Pairwise (Ahead before) := by
    intro j hj
    rw [List.pairwise_map]
    refine (((w.sorts j).sorted _).and (hbefore j hj)).imp fun {a b} hab => ?_
    rcases hab.1.lt_or_eq with hlt | heq
    · exact .inl hlt
    · exact .inr ⟨heq.symm, hab.2 heq.symm⟩
  have hperm : ∀ j, ((w.rows j).map (·.fixed)).Perm
      ((w.db j).fixed.filter (steadyFilter ilike role userId f)) := fun j =>
    fixed_filter (w.db j) _ ▸ (w.rows_perm j).map _
  have hnodup : ((w.rows k).map (·.fixed)).Nodup := by
    refine List.Nodup.of_map (·.id) ?_
    rw [List.map_map]
    exact w.ids_nodup h k
  have hsub : (w.rows k).map (·.fixed) ⊆ (w.rows (k + 1)).map (·.fixed) := by
    obtain ⟨es, hes⟩ := w.next k
    have hmore := (hes ▸ run_fixed cfg (w.wf h k) es : (w.db k).fixed <+: (w.db (k + 1)).fixed)
    intro c hc
    have hc' := List.mem_filter.mp ((hperm k).mem_iff.mp hc)
    exact (hperm (k + 1)).mem_iff.mpr (List.mem_filter.mpr ⟨hmore.subset hc'.1, hc'.2⟩)
  have hrows := (sorted_sublist hasymm hnodup hsub (hsorted k hk.le) (hsorted (k + 1) hk)).map
    (·.id)
  rwa [List.map_map, List.map_map] at hrows

/-- Reading the list page by page misses nothing. A student or an office role
that reads the pages of a list with steady filters up to its end has seen
every request that was in the list at first and that it could open then,
whatever happened in between, as long as requests of one instant do not change
places; and whatever is on a page can be opened by its reader when the page is
served. -/
theorem paging_misses_nothing (cfg : Settings) (ilike : String → String → Bool) {db₀ : Db}
    (h : Start db₀) {f : RequestFilters} {userId : Nat} {role : Role}
    (w : Reading cfg ilike db₀ f userId role) (hrole : role ≠ .staff) (hsteady : Steady f)
    (hties : w.TiesKept) (hend : w.Whole) :
    (∀ r ∈ (w.db 0).requests, ∀ user opened, currentUser (w.db 0) userId = .ok user →
      getRequestForUser (w.db 0) r.id user = .ok opened →
      matchesFilters (w.now 0) ilike f none r = true →
      ∃ k ≤ w.last, ∃ item ∈ (w.pages k).items, item.id = r.id) ∧
    ∀ k ≤ w.last, ∀ item ∈ (w.pages k).items, ∃ user opened,
      currentUser (w.db k) userId = .ok user ∧
        getRequestForUser (w.db k) item.id user = .ok opened := by
  refine ⟨fun r hr user opened huser hopens hmatches => ?_, fun k hk item hitem =>
    page_opens (w.wf h k) (w.sorts k) (w.served k hk) hitem⟩
  have hlast : ((w.rows w.last).map (·.id)).length ≤ (w.last + 1) * w.limit := by
    rw [List.length_map, ← (w.pages_eq hrole hsteady (Nat.le_refl w.last)).1]
    exact hend
  have huserRole := w.reader 0 (Nat.zero_le _) user huser
  have huserId : user.id = userId := (Tables.find?_mem (currentUser_eq_ok.mp huser).1).2
  have hkept : steadyFilter ilike role userId f r.fixed = true := by
    have hscope := (opens_iff (w.wf h 0) hr).mp ⟨opened, hopens⟩
    have hwhere : (inScope user r && matchesFilters (w.now 0) ilike f none r) =
        steadyFilter ilike user.role user.id f r.fixed :=
      where_steady hsteady (huserRole ▸ hrole) (w.now 0) r
    rw [huserRole, huserId, hscope, hmatches] at hwhere
    exact hwhere.symm
  have hin : r.id ∈ (w.rows 0).map (·.id) :=
    List.mem_map_of_mem ((w.rows_perm 0).mem_iff.mpr (List.mem_filter.mpr ⟨hr, hkept⟩))
  obtain ⟨k, hk, hfound⟩ := Paging.walk_finds (fun k _ => w.ids_nodup h k)
    (fun k hk => w.grows h hties hk) hlast hin
  rw [← (w.pages_eq hrole hsteady hk).2] at hfound
  obtain ⟨item, hitem, hid⟩ := List.mem_map.mp hfound
  exact ⟨k, hk, item, hitem, hid⟩

/-- The student of the office files once more while reading the list. -/
def refiling (k : ℕ) : Db :=
  Runs.run (step {}) office (([("REQ-1", 0), ("REQ-2", 1), ("REQ-3", 2)].take (k + 2)).map
    fun (trackingNo, at') => ⟨at', .create 1
      { categoryId := 4, title := "Ariza", description := "Matn" } none trackingNo⟩)

/-- One request a page. -/
def rereading : Reading {} (fun _ _ => false) office {} 1 .student where
  limit := 1
  last := 2
  db := refiling
  updatedAt _ _ := 0
  now _ := 3
  sort _ := orderBy fun r => -r.createdAt
  bounds k := { limit := 1, offset := k * 1 }
  pages k :=
    match listRequests (refiling k) (fun _ => 0) 3 (fun _ _ => false) 1 {}
      { limit := 1, offset := k * 1 } with
    | .ok page => page
    | .error _ => { items := [], total := 0, limit := 1, offset := k * 1 }
  first := ⟨_, rfl⟩
  next k := by
    rcases k with _ | k
    · exact ⟨[⟨2, .create 1 { categoryId := 4, title := "Ariza", description := "Matn" } none
        "REQ-3"⟩], rfl⟩
    · exact ⟨[], by simp [refiling]⟩
  sorts _ := newestFirst_orderBy
  window _ := ⟨rfl, rfl⟩
  served k hk := by
    have hcases : k = 0 ∨ k = 1 ∨ k = 2 := by omega
    rcases hcases with rfl | rfl | rfl <;> rfl
  reader k hk user huser := by
    have hcases : k = 0 ∨ k = 1 ∨ k = 2 := by omega
    rcases hcases with rfl | rfl | rfl <;> (cases huser; rfl)

theorem paging_misses_nothing_office :
    (rereading.db 0).requests.map (·.trackingNo) = ["REQ-1", "REQ-2"] ∧
    (∀ r ∈ (rereading.db 0).requests, ∀ user opened,
      currentUser (rereading.db 0) 1 = .ok user →
      getRequestForUser (rereading.db 0) r.id user = .ok opened →
      matchesFilters (rereading.now 0) (fun _ _ => false) {} none r = true →
      ∃ k ≤ rereading.last, ∃ item ∈ (rereading.pages k).items, item.id = r.id) ∧
    ∀ k ≤ rereading.last, ∀ item ∈ (rereading.pages k).items, ∃ user opened,
      currentUser (rereading.db k) 1 = .ok user ∧
        getRequestForUser (rereading.db k) item.id user = .ok opened :=
  ⟨by decide +kernel, paging_misses_nothing {} (fun _ _ => false) office_start rereading
    (by decide) ⟨rfl, rfl, rfl, rfl, rfl⟩ (rereading.tiesKept_of_distinct (by decide +kernel))
    (by unfold Reading.Whole; decide +kernel)⟩

end Royd
