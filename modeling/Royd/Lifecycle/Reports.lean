/-
Royd.Lifecycle.Reports — the dashboard, the list of requests and the KPI
report tell the same story.

All four count the same classes of requests, in different ways: the
dashboard sums groups and subtracts the breached from the closed, the report
counts row by row which were closed in time. `totalsOf_eq` and `statsOf_eq`
bring both to `List.countP`. The two compliance figures then differ on a
request that is closed and has no closing time, or is open and has one;
`Life.Sound` knows of no such request.
-/
import Royd.Api.Views
import Royd.Lifecycle.Catalogue
import Royd.Lifecycle.States
import Royd.Services.Stats
import Mathlib.Data.List.Dedup

namespace Royd

open Api

/-! ## Counting -/

section Counting

variable {α : Type}

/-- Counting the members of some values, one value after another. -/
theorem sum_count [DecidableEq α] (xs : List α) : ∀ {ss : List α}, ss.Nodup →
    (ss.map (xs.count ·)).sum = xs.countP (ss.contains ·)
  | [], _ => by simp
  | s :: ss, h => by
    obtain ⟨hnew, hnodup⟩ := List.nodup_cons.mp h
    have hsplit : xs.countP ((s :: ss).contains ·) = xs.countP (· == s) + xs.countP (ss.contains ·) := by
      refine Tables.countP_split fun x _ => ?_
      by_cases hx : x = s
      · subst hx
        simp [hnew]
      · simp [hx]
    rw [List.map_cons, List.sum_cons, sum_count xs hnodup, hsplit, List.count]

end Counting

/-! ## Percentages -/

/-- What is shown lies between 0 and 100. -/
def Percent (shown : Option ℚ) : Prop := ∀ q ∈ shown, 0 ≤ q ∧ q ≤ 100

/-- A share as it is shown. -/
def shownShare (part : Int) (whole : Nat) : Option ℚ :=
  rounded (Decimal.quotient (100 * part) whole)

theorem share_eq (part : Int) (whole : Nat) :
    share part whole = .ok (Decimal.quotient (100 * part) whole) :=
  Decimal.ratio_eq _ _ _

theorem average_eq (values : List ℚ) :
    average values = .ok (Decimal.quotient values.sum values.length) :=
  Decimal.ratio_eq _ _ _

/-- Rounding keeps a share of a whole between 0 and 100. -/
theorem percent_shownShare {part : Int} {whole : Nat} (hpart : 0 ≤ part) (hle : part ≤ whole) :
    Percent (shownShare part whole) := by
  intro q hq
  obtain ⟨figure, hfigure, rfl⟩ := Option.mem_map.mp hq
  obtain ⟨hlow, hhigh⟩ := Decimal.quotient_bounds (by exact_mod_cast hpart)
    (by exact_mod_cast hle) hfigure
  have hlow' := Decimal.le_roundTo 1 (m := 0) (by simpa using hlow)
  have hhigh' := Decimal.roundTo_le 1 (m := 100) (by simpa using hhigh)
  exact ⟨by simpa using hlow', by simpa using hhigh'⟩

/-! ## The report's counters -/

section Report

variable {now : Int}

/-- A counter of the report, after all rows. -/
theorem foldl_countIf {f : Acc → Nat} {p : ReportRow → Bool}
    (hadd : ∀ acc row, f (acc.add row now) = countIf (f acc) (p row)) :
    ∀ (rows : List ReportRow) (acc : Acc),
      f (rows.foldl (fun acc row => acc.add row now) acc) = f acc + rows.countP p
  | [], _ => rfl
  | row :: rows, acc => by
    rw [List.foldl_cons, foldl_countIf hadd rows, hadd, List.countP_cons]
    unfold countIf
    split <;> omega

/-- The request was closed by its deadline. -/
def ReportRow.onTime (row : ReportRow) : Bool :=
  row.closedAt.any fun closedAt => decide (closedAt ≤ row.slaDeadline)

/-- The clock runs and the deadline is past. -/
def ReportRow.overdue (now : Int) (row : ReportRow) : Bool :=
  RequestStatus.slaRunning.contains row.status && decide (row.slaDeadline < now)

theorem add_closedOnTime (acc : Acc) (row : ReportRow) :
    (acc.add row now).closedOnTime = countIf acc.closedOnTime row.onTime := by
  unfold Acc.add ReportRow.onTime
  cases row.closedAt <;> rfl

/-- What the report counts, said of all rows at once. -/
theorem totalsOf_eq (rows : List ReportRow) (now : Int) :
    (totalsOf rows now).total = rows.length ∧
      (totalsOf rows now).openCount =
        rows.countP (fun row => RequestStatus.opens.contains row.status) ∧
      (totalsOf rows now).completed = rows.countP (fun row => row.status == .completed) ∧
      (totalsOf rows now).rejected = rows.countP (fun row => row.status == .rejected) ∧
      (totalsOf rows now).overdueOpen = rows.countP (ReportRow.overdue now) ∧
      (totalsOf rows now).closedOnTime = rows.countP ReportRow.onTime := by
  have hcount {f : Acc → Nat} {p : ReportRow → Bool} (hzero : f {} = 0)
      (hadd : ∀ acc row, f (acc.add row now) = countIf (f acc) (p row)) :
      f (totalsOf rows now) = rows.countP p := by
    unfold totalsOf
    rw [foldl_countIf hadd, hzero, Nat.zero_add]
  have htotal := hcount (f := Acc.total) (p := fun _ => true) rfl fun _ _ => rfl
  rw [List.countP_true] at htotal
  exact ⟨htotal, hcount rfl fun _ _ => rfl, hcount rfl fun _ _ => rfl, hcount rfl fun _ _ => rfl,
    hcount rfl fun _ _ => rfl, hcount rfl add_closedOnTime⟩

/-! ## Its rows -/

/-- Nothing is counted among the closed that is not. -/
structure Acc.Fair (acc : Acc) : Prop where
  onTime : acc.closedOnTime ≤ acc.closed
  returned : acc.returnedOnce ≤ acc.total

/-- The closed requests are those with a closing time. -/
def ReportRow.Settled (row : ReportRow) : Prop :=
  row.closedAt.isSome = true ↔ row.status ∈ RequestStatus.closed

theorem fair_zero : ({} : Acc).Fair := ⟨le_rfl, le_rfl⟩

theorem Acc.Fair.add {acc : Acc} (h : acc.Fair) {row : ReportRow} (hrow : row.Settled) (now : Int) :
    (acc.add row now).Fair := by
  have hclosed : (acc.add row now).closed =
      countIf acc.completed (row.status == .completed) + countIf acc.rejected (row.status == .rejected) :=
    rfl
  have honTime := h.onTime
  have hreturned := h.returned
  unfold Acc.closed at honTime
  constructor
  · rw [add_closedOnTime, hclosed]
    unfold ReportRow.onTime countIf
    cases hclosedAt : row.closedAt with
    | none =>
      simp only [Option.any_none, Bool.false_eq_true, if_false]
      split_ifs <;> omega
    | some closedAt =>
      have hstatus := hrow.mp (by simp [hclosedAt])
      simp only [RequestStatus.closed, List.mem_cons, List.not_mem_nil, or_false] at hstatus
      rcases hstatus with hstatus | hstatus
      · simp only [hstatus, beq_self_eq_true, if_true]
        split_ifs <;> omega
      · simp only [hstatus, beq_self_eq_true, if_true]
        split_ifs <;> omega
  · show countIf acc.returnedOnce row.wasReturned ≤ acc.total + 1
    unfold countIf
    split <;> omega

theorem totalsOf_fair {rows : List ReportRow} (hrows : ∀ row ∈ rows, row.Settled) (now : Int) :
    (totalsOf rows now).Fair :=
  List.foldlRecOn rows _ fair_zero fun _ hacc row hmem => Acc.Fair.add hacc (hrows row hmem) now

theorem addToGroup_fair {key : Option Nat} {row : ReportRow} (hrow : row.Settled) (now : Int) :
    ∀ {groups : List (Option Nat × Acc)}, (∀ group ∈ groups, group.2.Fair) →
      ∀ group ∈ addToGroup key row now groups, group.2.Fair
  | [], _ => by
    intro group hgroup
    rw [List.mem_singleton.mp hgroup]
    exact fair_zero.add hrow now
  | (k, acc) :: rest, h => by
    obtain ⟨hacc, hrest⟩ := List.forall_mem_cons.mp h
    unfold addToGroup
    split
    · exact List.forall_mem_cons.mpr ⟨hacc.add hrow now, hrest⟩
    · exact List.forall_mem_cons.mpr ⟨hacc, addToGroup_fair hrow now hrest⟩

theorem groupsOf_fair {rows : List KeyedRow} (hrows : ∀ row ∈ rows, row.toReportRow.Settled)
    (groupBy : GroupBy) (now : Int) : ∀ group ∈ groupsOf groupBy rows now, group.2.Fair := by
  unfold groupsOf
  refine List.foldlRecOn rows _ (motive := fun groups : List (Option Nat × Acc) =>
    ∀ group ∈ groups, group.2.Fair) ?_ ?_
  · intro group hgroup
    cases hgroup
  · intro groups hgroups row hmem
    exact addToGroup_fair (hrows row hmem) now hgroups

/-- A row of the report, with its figures worked out. -/
def Acc.shown (acc : Acc) (key : Option Nat) (label : String) : KpiRow where
  key := key
  label := label
  total := acc.total
  openCount := acc.openCount
  completed := acc.completed
  rejected := acc.rejected
  overdueOpen := acc.overdueOpen
  slaCompliancePct := shownShare acc.closedOnTime acc.closed
  rejectionPct := shownShare acc.rejected acc.closed
  returnedPct := shownShare acc.returnedOnce acc.total
  avgAcceptHours := rounded (Decimal.quotient (acc.acceptTimes.map inHours).sum
    (acc.acceptTimes.map inHours).length)
  avgResolutionHours := rounded (Decimal.quotient (acc.resolutionTimes.map inHours).sum
    (acc.resolutionTimes.map inHours).length)

/-- No division of a row is by zero. -/
theorem asRow_eq (acc : Acc) (key : Option Nat) (label : String) :
    acc.asRow key label = .ok (acc.shown key label) := by
  simp only [Acc.asRow, Acc.slaCompliance, share_eq, average_eq]
  rfl

/-- Every percentage of the row is one. -/
structure KpiRow.Percentages (row : KpiRow) : Prop where
  slaCompliance : Percent row.slaCompliancePct
  rejection : Percent row.rejectionPct
  returned : Percent row.returnedPct

theorem Acc.Fair.percentages {acc : Acc} (h : acc.Fair) (key : Option Nat) (label : String) :
    (acc.shown key label).Percentages where
  slaCompliance := percent_shownShare (Int.natCast_nonneg _) (by exact_mod_cast h.onTime)
  rejection := percent_shownShare (Int.natCast_nonneg _)
    (by exact_mod_cast Nat.le_add_left acc.rejected acc.completed)
  returned := percent_shownShare (Int.natCast_nonneg _) (by exact_mod_cast h.returned)

/-- The rows of the report before they are sorted. -/
def kpiRows (labels : GroupBy → Nat → Option String) (groupBy : GroupBy) (rows : List KeyedRow)
    (now : Int) : List KpiRow :=
  (groupsOf groupBy rows now).map fun group =>
    group.2.shown group.1 (groupLabel labels groupBy group.1)

theorem kpiReport_eq (cfg : Settings) (db : Db) (labels : GroupBy → Nat → Option String)
    (groupBy : GroupBy) (dateFrom dateTo now : Int) :
    kpiReport cfg db labels groupBy dateFrom dateTo now =
      .ok ⟨groupBy, dateFrom, dateTo,
        (kpiRows labels groupBy (reportRows cfg db dateFrom dateTo) now).mergeSort KpiRow.before,
        (totalsOf ((reportRows cfg db dateFrom dateTo).map (·.toReportRow)) now).shown none "Jami"⟩ := by
  unfold kpiReport kpiRows
  simp only [asRow_eq]
  rw [show (Except.ok : KpiRow → Except Exc KpiRow) = pure from rfl, List.mapM_pure]
  rfl

end Report

/-! ## The dashboard -/

section Dashboard

variable (visible : List Request)

/-- `by_status.get` finds the size of the group. -/
theorem statusCount_byStatus (s : RequestStatus) :
    statusCount (byStatus visible) s = (visible.map (·.status)).count s := by
  have hkeys : ((byStatus visible).map Prod.fst).Nodup := by
    simp [byStatus, Function.comp_def, List.nodup_dedup]
  unfold statusCount
  by_cases hs : s ∈ visible.map (·.status)
  · have hgroup : (s, (visible.map (·.status)).count s) ∈ byStatus visible :=
      List.mem_map.mpr ⟨s, List.mem_dedup.mpr hs, rfl⟩
    rw [Tables.find?_of_mem hkeys hgroup]
    rfl
  · have hnone : (byStatus visible).find? (·.1 == s) = none := by
      refine Tables.find?_absent fun group hgroup heq => hs ?_
      obtain ⟨s', hs', rfl⟩ := List.mem_map.mp hgroup
      exact heq ▸ List.mem_dedup.mp hs'
    rw [hnone, List.count_eq_zero_of_not_mem hs]
    rfl

/-- The groups of some statuses together. -/
theorem sum_statusCount {ss : List RequestStatus} (h : ss.Nodup) :
    (ss.map (statusCount (byStatus visible))).sum =
      visible.countP fun r => ss.contains r.status := by
  have hcounts : ss.map (statusCount (byStatus visible)) =
      ss.map ((visible.map (·.status)).count ·) :=
    List.map_congr_left fun s _ => statusCount_byStatus visible s
  rw [hcounts, sum_count _ h, List.countP_map]
  rfl

theorem sum_byStatus : ((byStatus visible).map (·.2)).sum = visible.length := by
  have hsum := List.sum_map_count_dedup_eq_length (visible.map (·.status))
  rw [List.length_map] at hsum
  rw [← hsum, byStatus, List.map_map]
  rfl

theorem closedTotal_eq :
    closedTotal visible = visible.countP fun r => RequestStatus.closed.contains r.status :=
  sum_statusCount visible (by decide)

theorem breached_le : breached visible ≤ closedTotal visible := by
  rw [closedTotal_eq]
  refine List.countP_mono_left fun r _ h => ?_
  simp only [Bool.and_eq_true] at h
  exact h.1

/-- The dashboard divides by no zero. -/
theorem slaCompliance_eq : slaCompliance visible =
    .ok (Decimal.quotient (100 * ((closedTotal visible : Int) - breached visible : Int))
      (closedTotal visible)) :=
  share_eq _ _

theorem statsOf_ok (db : Db) (user : User) (now : Int) : ∃ stats,
    statsOf db user visible now = .ok stats ∧
      stats.total = visible.length ∧
      stats.openCount = (visible.countP fun r => RequestStatus.opens.contains r.status) ∧
      stats.overdue = (visible.countP fun r =>
        RequestStatus.slaRunning.contains r.status && decide (r.slaDeadline < now)) ∧
      stats.slaCompliancePct =
        shownShare ((closedTotal visible : Int) - breached visible) (closedTotal visible) := by
  unfold statsOf
  rw [slaCompliance_eq]
  exact ⟨_, rfl, sum_byStatus visible, sum_statusCount visible (by decide), rfl, rfl⟩

theorem percent_slaCompliance :
    Percent (shownShare ((closedTotal visible : Int) - breached visible) (closedTotal visible)) := by
  have hle := breached_le visible
  exact percent_shownShare (by omega) (by omega)

end Dashboard

/-! ## One story -/

/-- A dashboard and a row of the report, of the same requests. -/
structure SameFigures (stats : DashboardStats) (row : KpiRow) : Prop where
  total : stats.total = row.total
  openCount : stats.openCount = row.openCount
  overdue : stats.overdue = row.overdueOpen
  slaCompliance : stats.slaCompliancePct = row.slaCompliancePct

/-- What the report adds up over some requests. -/
def kpiTotals (db : Db) (visible : List Request) (now : Int) : Acc :=
  totalsOf (visible.map (reportRow db)) now

section Story

variable {db : Db} {visible : List Request} {now : Int}

/-- A sound request is settled. -/
theorem Life.Sound.settled {r : Request} (h : (db.lifeOf r).Sound) : (reportRow db r).Settled := by
  have hstatus : r.status = .inProgress ∨ r.status = .returned ∨ r.status = .completed := h.status
  have hclosed : r.status ∈ RequestStatus.closed ↔ r.status = .completed := by
    rcases hstatus with hs | hs | hs <;> rw [hs] <;> decide
  show r.closedAt.isSome = true ↔ r.status ∈ RequestStatus.closed
  rw [hclosed]
  constructor
  · intro hsome
    by_contra hne
    have hnone : r.closedAt = none := (h.unanswered hne).1
    rw [hnone] at hsome
    cases hsome
  · exact fun hs => (h.answered hs).1

variable (db now) in
/-- The two counts of the closed requests. -/
theorem closed_eq : (kpiTotals db visible now).closed = closedTotal visible := by
  obtain ⟨-, -, hcompleted, hrejected, -, -⟩ := totalsOf_eq (visible.map (reportRow db)) now
  unfold Acc.closed kpiTotals
  rw [hcompleted, hrejected, List.countP_map, List.countP_map, closedTotal_eq]
  refine (Tables.countP_split fun r _ => ?_).symm
  show _ = (r.status == .completed).toNat + (r.status == .rejected).toNat
  cases r.status <;> rfl

variable (hsettled : ∀ r ∈ visible, (reportRow db r).Settled)

include hsettled

variable (now) in
/-- The two counts of the requests closed in time. -/
theorem closedOnTime_eq :
    closedTotal visible = (kpiTotals db visible now).closedOnTime + breached visible := by
  obtain ⟨-, -, -, -, -, honTime⟩ := totalsOf_eq (visible.map (reportRow db)) now
  unfold kpiTotals
  rw [honTime, List.countP_map, closedTotal_eq, breached]
  refine Tables.countP_split fun r hr => ?_
  have hiff := hsettled r hr
  unfold ReportRow.Settled at hiff
  have hclosed : RequestStatus.closed.contains r.status = r.closedAt.isSome := by
    rw [Bool.eq_iff_iff, List.contains_iff_mem]
    exact hiff.symm
  show _ = ((r.closedAt.any fun closedAt => decide (closedAt ≤ r.slaDeadline)) : Bool).toNat + _
  rw [hclosed]
  cases r.closedAt with
  | none => rfl
  | some closedAt =>
    by_cases hlate : r.slaDeadline < closedAt
    · simp [hlate]
    · simp [hlate, not_lt.mp hlate]

/-- The two compliance figures agree before they are rounded. -/
theorem compliance_eq : slaCompliance visible = (kpiTotals db visible now).slaCompliance := by
  have hcount := closedOnTime_eq now hsettled
  have honTime : (closedTotal visible : Int) - breached visible =
      (kpiTotals db visible now).closedOnTime := by omega
  rw [slaCompliance_eq, Acc.slaCompliance, share_eq, closed_eq, honTime]

variable (now) in
theorem sameFigures (user : User) : ∃ stats, statsOf db user visible now = .ok stats ∧
    SameFigures stats ((kpiTotals db visible now).shown none "Jami") := by
  obtain ⟨stats, hstats, htotal, hopen, hoverdue, hcompliance⟩ := statsOf_ok visible db user now
  obtain ⟨hrows, hopens, -, -, hoverdues, -⟩ := totalsOf_eq (visible.map (reportRow db)) now
  have hcount := closedOnTime_eq now hsettled
  have honTime : (closedTotal visible : Int) - breached visible =
      (kpiTotals db visible now).closedOnTime := by omega
  refine ⟨stats, hstats, ⟨?_, ?_, ?_, ?_⟩⟩
  · rw [htotal]
    show _ = (kpiTotals db visible now).total
    rw [kpiTotals, hrows, List.length_map]
  · rw [hopen]
    show _ = (kpiTotals db visible now).openCount
    rw [kpiTotals, hopens, List.countP_map]
    rfl
  · rw [hoverdue]
    show _ = (kpiTotals db visible now).overdueOpen
    rw [kpiTotals, hoverdues, List.countP_map]
    rfl
  · rw [hcompliance, honTime, ← closed_eq db now]
    rfl

end Story

/-! ## The rows of the report -/

/-- Every request has its service in the catalogue. -/
def Db.Categorized (db : Db) : Prop :=
  ∀ r ∈ db.requests, ∃ cat ∈ db.categories, cat.id = r.categoryId

/-- No row leaves the catalogue. -/
theorem Recatalogued.ids {db db' : Db} (h : Recatalogued db db') {id : Nat}
    (hid : ∃ cat ∈ db.categories, cat.id = id) : ∃ cat ∈ db'.categories, cat.id = id := by
  obtain ⟨cat, hcat, rfl⟩ := hid
  cases h with
  | same categories =>
    rw [categories]
    exact ⟨cat, hcat, rfl⟩
  | added new _ _ categories =>
    rw [categories]
    exact ⟨cat, List.mem_append_left _ hcat, rfl⟩
  | put old new row id ruled level categories =>
    rw [categories]
    have hmem : (if cat.id = new.id then new else cat) ∈ (db.putCategory new).categories :=
      List.mem_map.mpr ⟨cat, hcat, rfl⟩
    refine ⟨_, hmem, ?_⟩
    split
    · exact Eq.symm ‹cat.id = new.id›
    · rfl

theorem Life.Step.categorized {cfg : Settings} {now : Int} {cats : List RequestCategory}
    {l l' : Option Life} (hstep : Life.Step cfg now cats l l')
    (h : ∀ k, l = some k → ∃ cat ∈ cats, cat.id = k.req.categoryId) :
    ∀ k, l' = some k → ∃ cat ∈ cats, cat.id = k.req.categoryId := by
  cases hstep with
  | @filed db category _ _ _ _ current _ filed =>
    rintro k ⟨⟩
    have hid : category.id = _ := (Tables.find?_mem filed.service).2
    exact ⟨category, current ▸ filed.listed, hid⟩
  | changed change =>
    rintro k ⟨⟩
    obtain ⟨cat, hcat, hid⟩ := h _ rfl
    exact ⟨cat, hcat, hid.trans change.categoryId.symm⟩

theorem step_categorized (cfg : Settings) {db : Db} (hwf : db.Wf) (h : db.Categorized) (e : Event) :
    (step cfg db e).Categorized := by
  intro r hr
  obtain ⟨hwf', hlife⟩ := step_life cfg hwf e
  have hbefore : ∀ k, db.life? r.id = some k → ∃ cat ∈ db.categories, cat.id = k.req.categoryId := by
    intro k hk
    obtain ⟨r₀, hr₀, -, rfl⟩ := life?_eq_some hk
    exact h r₀ hr₀
  have hafter := steps_keep (P := fun l => ∀ k, l = some k →
    ∃ cat ∈ db.categories, cat.id = k.req.categoryId)
    (fun hstep => hstep.categorized) (hlife r.id) hbefore _ (hwf'.life?_mem hr)
  exact (step_recatalogues cfg db e).ids hafter

theorem run_categorized (cfg : Settings) {db₀ : Db} (h : Start db₀) (es : List Event) :
    (Runs.run (step cfg) db₀ es).Categorized := by
  have hinv : ∀ (db : Db) (e : Event), db.Wf ∧ db.Categorized →
      (step cfg db e).Wf ∧ (step cfg db e).Categorized := fun db e hdb =>
    ⟨(step_life cfg hdb.1 e).1, step_categorized cfg hdb.1 hdb.2 e⟩
  refine (Runs.run_invariant hinv ⟨h.wf, ?_⟩ es).2
  intro r hr
  rw [h.requests] at hr
  cases hr

/-- The join with the catalogue loses no request. -/
theorem reportRows_eq {cfg : Settings} {db : Db} (h : db.Categorized) (dateFrom dateTo : Int) :
    (reportRows cfg db dateFrom dateTo).map (·.toReportRow) =
      (db.requests.filter (inPeriod cfg dateFrom dateTo)).map (reportRow db) := by
  have hjoin : ∀ requests : List Request, (∀ r ∈ requests, r ∈ db.requests) →
      (requests.filterMap (keyedRow db)).map (·.toReportRow) = requests.map (reportRow db) := by
    intro requests
    induction requests with
    | nil => exact fun _ => rfl
    | cons r rest ih =>
      intro hmem
      obtain ⟨hr, hrest⟩ := List.forall_mem_cons.mp hmem
      obtain ⟨cat, hcat, hid⟩ := h r hr
      cases hservice : db.getCategory r.categoryId with
      | none =>
        have habsent := List.find?_eq_none.mp hservice cat hcat
        simp [hid] at habsent
      | some service =>
        have hrow : keyedRow db r = some
            { toReportRow := reportRow db r, assignedTo := r.assignedTo, facultyId := r.facultyId
              departmentId := r.departmentId, serviceTypeId := service.parentId } := by
          rw [keyedRow, hservice]
          rfl
        rw [List.filterMap_cons_some hrow, List.map_cons, List.map_cons, ih hrest]
  exact hjoin _ fun r hr => (List.mem_filter.mp hr).1

/-! ## Every run -/

/-- What the four views say at `now`. -/
structure OneStory (cfg : Settings) (db : Db) (now : Int) : Prop where
  figures : ∀ (user : User) (keep : Request → Bool), ∃ stats row,
    statsOf db user (db.requests.filter keep) now = .ok stats ∧
      (kpiTotals db (db.requests.filter keep) now).asRow none "Jami" = .ok row ∧
      SameFigures stats row
  unrounded : ∀ keep : Request → Bool, slaCompliance (db.requests.filter keep) =
    (kpiTotals db (db.requests.filter keep) now).slaCompliance
  endpoints : ∀ (admin : User) (labels : GroupBy → Nat → Option String) (groupBy : GroupBy)
    (dateFrom dateTo : Int), admin.role = .admin → ∃ stats report,
      statsOf db admin (db.requests.filter (inPeriod cfg dateFrom dateTo)) now = .ok stats ∧
      kpiReport cfg db labels groupBy dateFrom dateTo now = .ok report ∧
      SameFigures stats report.totals ∧
      ((∀ r ∈ db.requests, inPeriod cfg dateFrom dateTo r = true) →
        dashboardStats db admin now = .ok stats)
  flagged : ∀ (r : Request) (updatedAt : Nat → Int) (acc : Acc),
    (acc.add (reportRow db r) now).overdueOpen =
      countIf acc.overdueOpen (requestSummary updatedAt now r).isOverdue
  filtered : ∀ (r : Request) (updatedAt : Nat → Int) (ilike : String → String → Bool)
    (f : RequestFilters) (status : Option RequestStatus),
    matchesFilters now ilike { f with overdue := some true } status r =
      (matchesFilters now ilike { f with overdue := none } status r
        && (requestSummary updatedAt now r).isOverdue)
  listed : ∀ (admin : User) (updatedAt : Nat → Int) (ilike : String → String → Bool)
    (bounds : PageBounds), currentUser db admin.id = .ok admin → admin.role = .admin → ∃ page,
      listRequests db updatedAt now ilike admin.id { overdue := some true } bounds = .ok page ∧
      page.total = (kpiTotals db db.requests now).overdueOpen ∧
      ∀ item ∈ page.items, item.isOverdue = true
  dashboard : ∀ user : User, ∃ stats, dashboardStats db user now = .ok stats ∧
    Percent stats.slaCompliancePct
  report : ∀ (labels : GroupBy → Nat → Option String) (groupBy : GroupBy) (dateFrom dateTo : Int),
    ∃ report, kpiReport cfg db labels groupBy dateFrom dateTo now = .ok report ∧
      ∀ row ∈ report.totals :: report.rows, row.Percentages

section Story

variable {db : Db} {now : Int}

/-- The overdue filter adds the condition of the flag. -/
theorem matchesFilters_overdue (r : Request) (updatedAt : Nat → Int)
    (ilike : String → String → Bool) (f : RequestFilters) (status : Option RequestStatus) :
    matchesFilters now ilike { f with overdue := some true } status r =
      (matchesFilters now ilike { f with overdue := none } status r
        && (requestSummary updatedAt now r).isOverdue) := by
  simp only [matchesFilters, requestSummary, Option.getD_some, Option.getD_none, Bool.not_true,
    Bool.not_false, Bool.false_or, Bool.true_or, Bool.and_true]
  exact Bool.and_right_comm _ _ _

theorem listed_overdue (admin : User) (updatedAt : Nat → Int) (ilike : String → String → Bool)
    (bounds : PageBounds) (hcurrent : currentUser db admin.id = .ok admin)
    (hadmin : admin.role = .admin) : ∃ page,
      listRequests db updatedAt now ilike admin.id { overdue := some true } bounds = .ok page ∧
      page.total = (kpiTotals db db.requests now).overdueOpen ∧
      ∀ item ∈ page.items, item.isOverdue = true := by
  obtain ⟨-, -, -, -, hoverdues, -⟩ := totalsOf_eq (db.requests.map (reportRow db)) now
  have hkeep : ∀ r, (inScope admin r
      && matchesFilters now ilike { overdue := some true } none r) =
        ((reportRow db r).overdue now) := by
    intro r
    rw [matchesFilters_overdue r updatedAt ilike {} none]
    simp only [inScope, hadmin, matchesFilters]
    rfl
  refine ⟨_, by unfold listRequests listRequestsIn; rw [hcurrent]; rfl, ?_, ?_⟩
  · show (db.requests.filter _).length = _
    rw [kpiTotals, hoverdues, List.countP_map, ← List.countP_eq_length_filter]
    exact List.countP_congr fun r _ => by rw [hkeep r]; rfl
  · intro item hitem
    obtain ⟨r, hr, rfl⟩ := List.mem_map.mp hitem
    have hmem := mem_orderBy.mp (List.mem_of_mem_drop (List.mem_of_mem_take hr))
    have hkept := (List.mem_filter.mp hmem).2
    rw [hkeep r] at hkept
    exact hkept

theorem report_percentages {cfg : Settings} (hcategorized : db.Categorized)
    (hsettled : ∀ r ∈ db.requests, (reportRow db r).Settled)
    (labels : GroupBy → Nat → Option String) (groupBy : GroupBy) (dateFrom dateTo : Int) :
    ∃ report, kpiReport cfg db labels groupBy dateFrom dateTo now = .ok report ∧
      ∀ row ∈ report.totals :: report.rows, row.Percentages := by
  have hrows : ∀ row ∈ (reportRows cfg db dateFrom dateTo).map (·.toReportRow), row.Settled := by
    rw [reportRows_eq hcategorized]
    intro row hrow
    obtain ⟨r, hr, rfl⟩ := List.mem_map.mp hrow
    exact hsettled r (List.mem_filter.mp hr).1
  refine ⟨_, kpiReport_eq cfg db labels groupBy dateFrom dateTo now, List.forall_mem_cons.mpr ⟨?_, ?_⟩⟩
  · exact (totalsOf_fair hrows now).percentages none "Jami"
  · intro row hrow
    obtain ⟨group, hgroup, rfl⟩ := List.mem_map.mp (List.mem_mergeSort.mp hrow)
    have hfair := groupsOf_fair (fun row hrow => hrows _ (List.mem_map.mpr ⟨row, hrow, rfl⟩))
      groupBy now group hgroup
    exact hfair.percentages _ _

end Story

/-- In every state the system can reach, at every instant, dashboard, list
and report tell one story of whatever requests they are asked about. -/
theorem one_story (cfg : Settings) {db₀ : Db} (h : Start db₀) (es : List Event) (now : Int) :
    OneStory cfg (Runs.run (step cfg) db₀ es) now := by
  have hsettled : ∀ r ∈ (Runs.run (step cfg) db₀ es).requests,
      (reportRow (Runs.run (step cfg) db₀ es) r).Settled :=
    fun r hr => (run_sound cfg h es r hr).settled
  have hcategorized := run_categorized cfg h es
  generalize Runs.run (step cfg) db₀ es = db at hsettled hcategorized
  have hkept (keep : Request → Bool) : ∀ r ∈ db.requests.filter keep, (reportRow db r).Settled :=
    fun r hr => hsettled r (List.mem_filter.mp hr).1
  constructor
  case figures =>
    intro user keep
    obtain ⟨stats, hstats, hsame⟩ := sameFigures now (hkept keep) user
    exact ⟨stats, _, hstats, asRow_eq _ _ _, hsame⟩
  case unrounded => exact fun keep => compliance_eq (hkept keep)
  case endpoints =>
    intro admin labels groupBy dateFrom dateTo hadmin
    obtain ⟨stats, hstats, hsame⟩ :=
      sameFigures now (hkept (inPeriod cfg dateFrom dateTo)) admin
    refine ⟨stats, _, hstats, kpiReport_eq cfg db labels groupBy dateFrom dateTo now, ?_, ?_⟩
    · dsimp only
      rw [reportRows_eq hcategorized]
      exact hsame
    · intro hall
      rw [List.filter_eq_self.mpr hall] at hstats
      rw [dashboardStats, visibleRequests, hadmin]
      exact hstats
  case flagged => exact fun _ _ _ => rfl
  case filtered => exact matchesFilters_overdue
  case listed => exact listed_overdue
  case dashboard =>
    intro user
    obtain ⟨stats, hstats, -, -, -, hcompliance⟩ :=
      statsOf_ok (visibleRequests db user) db user now
    exact ⟨stats, hstats, hcompliance ▸ percent_slaCompliance _⟩
  case report => exact report_percentages hcategorized hsettled

/-- The office has answered its only request in time. -/
theorem one_story_office :
    OneStory {} (Runs.run (step {}) office [filing 0, answering 1]) (Sla.hours 100) ∧
      (∃ stats, dashboardStats (Runs.run (step {}) office [filing 0, answering 1])
        { id := 5, fullName := "Admin", role := .admin } (Sla.hours 100) = .ok stats ∧
          stats.total = 1 ∧ stats.slaCompliancePct = some 100) :=
  ⟨one_story {} office_start [filing 0, answering 1] (Sla.hours 100),
    _, rfl, by decide +kernel, by decide +kernel⟩

end Royd
