/-
Royd.Lifecycle.Figures — the KPI report neither loses nor double counts.

`Figures` are what an accumulator of the report holds, the two lists of
durations without their order, so that figures can be added. A row adds its
own figures to an accumulator (`add_figures`). Everything else follows: over
the groups by `Grouping.sum_groups`, over adjacent periods because a request
is filed on one day (`inPeriod_iff`).
-/
import Royd.Lib.Grouping
import Royd.Lifecycle.Reports

namespace Royd

variable {cfg : Settings} {db : Db} {groupBy : GroupBy} {now : Int}

/-! ## Figures -/

/-- The figures of `_Acc`, which can be added. -/
@[ext]
structure Figures where
  total : Nat
  openCount : Nat
  completed : Nat
  rejected : Nat
  overdueOpen : Nat
  closedOnTime : Nat
  returnedOnce : Nat
  resolutionTimes : Multiset Int
  acceptTimes : Multiset Int
  deriving DecidableEq

namespace Figures

instance : Zero Figures := ⟨⟨0, 0, 0, 0, 0, 0, 0, 0, 0⟩⟩

instance : Add Figures where
  add a b :=
    { total := a.total + b.total
      openCount := a.openCount + b.openCount
      completed := a.completed + b.completed
      rejected := a.rejected + b.rejected
      overdueOpen := a.overdueOpen + b.overdueOpen
      closedOnTime := a.closedOnTime + b.closedOnTime
      returnedOnce := a.returnedOnce + b.returnedOnce
      resolutionTimes := a.resolutionTimes + b.resolutionTimes
      acceptTimes := a.acceptTimes + b.acceptTimes }

theorem add_def (a b : Figures) : a + b =
    ⟨a.total + b.total, a.openCount + b.openCount, a.completed + b.completed,
      a.rejected + b.rejected, a.overdueOpen + b.overdueOpen, a.closedOnTime + b.closedOnTime,
      a.returnedOnce + b.returnedOnce, a.resolutionTimes + b.resolutionTimes,
      a.acceptTimes + b.acceptTimes⟩ := rfl

theorem zero_def : (0 : Figures) = ⟨0, 0, 0, 0, 0, 0, 0, 0, 0⟩ := rfl

instance : AddCommMonoid Figures where
  add_assoc a b c := by simp [add_def, add_assoc]
  zero_add a := by simp [add_def, zero_def]
  add_zero a := by simp [add_def, zero_def]
  add_comm a b := by simp [add_def, add_comm]
  nsmul := nsmulRec

end Figures

/-- What an accumulator holds. -/
def Acc.figures (acc : Acc) : Figures where
  total := acc.total
  openCount := acc.openCount
  completed := acc.completed
  rejected := acc.rejected
  overdueOpen := acc.overdueOpen
  closedOnTime := acc.closedOnTime
  returnedOnce := acc.returnedOnce
  resolutionTimes := acc.resolutionTimes
  acceptTimes := acc.acceptTimes

/-- The figures of one row. -/
def ReportRow.figures (row : ReportRow) (now : Int) : Figures := (({} : Acc).add row now).figures

theorem countIf_eq (n : Nat) (b : Bool) : countIf n b = n + countIf 0 b := by
  cases b <;> simp [countIf]

theorem figures_empty : ({} : Acc).figures = 0 := rfl

theorem add_figures (acc : Acc) (row : ReportRow) (now : Int) :
    (acc.add row now).figures = acc.figures + row.figures now := by
  unfold ReportRow.figures Acc.figures Acc.add
  rw [Figures.add_def]
  ext1
  case total => simp
  case resolutionTimes => simp
  case acceptTimes => simp
  all_goals exact countIf_eq _ _

/-! ## Groups -/

/-- `groups` is a grouping of the rows. -/
theorem groupsOf_eq (groupBy : GroupBy) (rows : List KeyedRow) (now : Int) :
    groupsOf groupBy rows now =
      Grouping.groups {} (fun acc row => acc.add row.toReportRow now) (·.key groupBy) rows := by
  have hput : ∀ (key : Option Nat) (row : KeyedRow) (groups : List (Option Nat × Acc)),
      addToGroup key row.toReportRow now groups =
        Grouping.put {} (fun acc row => acc.add row.toReportRow now) key row groups := by
    intro key row groups
    induction groups with
    | nil => rfl
    | cons group rest ih => rw [addToGroup, Grouping.put, ih]
  simp only [groupsOf, Grouping.groups, hput]

theorem totalsOf_map (rows : List KeyedRow) (now : Int) :
    totalsOf (rows.map (·.toReportRow)) now =
      rows.foldl (fun acc row => acc.add row.toReportRow now) {} := by
  rw [totalsOf, List.foldl_map]

theorem totalsOf_figures (rows : List ReportRow) (now : Int) :
    (totalsOf rows now).figures = (rows.map (·.figures now)).sum := by
  rw [totalsOf, Grouping.foldl_figure (fun acc row => add_figures acc row now), figures_empty,
    zero_add]

theorem sum_groupsOf (groupBy : GroupBy) (rows : List KeyedRow) (now : Int) :
    ((groupsOf groupBy rows now).map (·.2.figures)).sum =
      (totalsOf (rows.map (·.toReportRow)) now).figures := by
  rw [groupsOf_eq, totalsOf_map]
  exact Grouping.sum_groups figures_empty (fun acc row => add_figures acc row.toReportRow now) rows

/-! ## Periods -/

/-- The request was filed on one of the days of the period. -/
theorem inPeriod_iff {dateFrom dateTo : Int} {req : Request} :
    inPeriod cfg dateFrom dateTo req = true ↔
      dateFrom ≤ Sla.localDate cfg.cal req.createdAt ∧ Sla.localDate cfg.cal req.createdAt ≤ dateTo := by
  simp only [inPeriod, Bool.and_eq_true, decide_eq_true_eq]
  unfold Sla.localMidnight Sla.localDate Sla.oneDay
  omega

/-- Of two adjacent periods a day of the whole lies in one. -/
theorem inPeriod_split {a b c : Int} (hab : a ≤ b) (hbc : b < c) (req : Request) :
    (inPeriod cfg a c req).toNat = (inPeriod cfg a b req).toNat + (inPeriod cfg (b + 1) c req).toNat := by
  have hdays : ∀ dateFrom dateTo, inPeriod cfg dateFrom dateTo req =
      decide (dateFrom ≤ Sla.localDate cfg.cal req.createdAt ∧
        Sla.localDate cfg.cal req.createdAt ≤ dateTo) := by
    intro dateFrom dateTo
    rw [Bool.eq_iff_iff, inPeriod_iff, decide_eq_true_iff]
  simp only [hdays]
  generalize Sla.localDate cfg.cal req.createdAt = day
  by_cases hfirst : day ≤ b
  · have hsecond : ¬ (b + 1 ≤ day ∧ day ≤ c) := by omega
    have hwhole : (a ≤ day ∧ day ≤ c) ↔ (a ≤ day ∧ day ≤ b) := by omega
    rw [decide_eq_false hsecond, decide_eq_decide.mpr hwhole, Bool.toNat_false, Nat.add_zero]
  · have hnot : ¬ (a ≤ day ∧ day ≤ b) := by omega
    have hwhole : (a ≤ day ∧ day ≤ c) ↔ (b + 1 ≤ day ∧ day ≤ c) := by omega
    rw [decide_eq_false hnot, decide_eq_decide.mpr hwhole, Bool.toNat_false, Nat.zero_add]

theorem reportRows_split {a b c : Int} (hab : a ≤ b) (hbc : b < c) :
    (reportRows cfg db a c).Perm (reportRows cfg db a b ++ reportRows cfg db (b + 1) c) := by
  unfold reportRows
  rw [← List.filterMap_append]
  exact (Tables.filter_split fun req _ => inPeriod_split hab hbc req).filterMap _

/-! ## The report -/

/-- The totals of a period, as they are accumulated. -/
def kpiFigures (cfg : Settings) (db : Db) (dateFrom dateTo now : Int) : Figures :=
  (totalsOf ((reportRows cfg db dateFrom dateTo).map (·.toReportRow)) now).figures

theorem kpiFigures_split {a b c : Int} (hab : a ≤ b) (hbc : b < c) :
    kpiFigures cfg db a c now = kpiFigures cfg db a b now + kpiFigures cfg db (b + 1) c now := by
  simp only [kpiFigures, totalsOf_figures, List.map_map]
  rw [((reportRows_split hab hbc).map _).sum_eq, List.map_append, List.sum_append]

/-- A request in the period has a row, and the row a group. -/
theorem keyedRow_grouped {a c : Int} (hdb : db.Categorized) {req : Request} (hreq : req ∈ db.requests)
    (hin : inPeriod cfg a c req = true) :
    ∃ row ∈ reportRows cfg db a c, keyedRow db req = some row ∧
      ∃! group, group ∈ groupsOf groupBy (reportRows cfg db a c) now ∧ group.1 = row.key groupBy := by
  obtain ⟨service, hservice⟩ : ∃ service, db.getCategory req.categoryId = some service := by
    obtain ⟨cat, hcat, hid⟩ := hdb req hreq
    apply Option.isSome_iff_exists.mp
    exact List.find?_isSome.mpr ⟨cat, hcat, by simp [hid]⟩
  have hkeyed : ∃ row, keyedRow db req = some row := by simp [keyedRow, hservice]
  obtain ⟨row, hkeyed⟩ := hkeyed
  have hrow : row ∈ reportRows cfg db a c :=
    List.mem_filterMap.mpr ⟨req, List.mem_filter.mpr ⟨hreq, hin⟩, hkeyed⟩
  refine ⟨row, hrow, hkeyed, ?_⟩
  rw [groupsOf_eq]
  exact (Grouping.groups_grouped _).existsUnique hrow

theorem groupsOf_accs {rows : List KeyedRow} {group : Option Nat × Acc}
    (h : group ∈ groupsOf groupBy rows now) :
    group.2 = totalsOf ((rows.filter (·.key groupBy = group.1)).map (·.toReportRow)) now := by
  rw [groupsOf_eq] at h
  rw [totalsOf_map]
  exact (Grouping.groups_grouped rows).accs group h

/-- What the report of a period makes of the requests: the figures it shows
are those of its accumulators, and the accumulators of the groups hold every
request of the period once. -/
structure Accounted (cfg : Settings) (db : Db) (labels : GroupBy → Nat → Option String)
    (groupBy : GroupBy) (dateFrom dateTo now : Int) (groups : List (Option Nat × Acc)) (totals : Acc) :
    Prop where
  shown : ∃ report, kpiReport cfg db labels groupBy dateFrom dateTo now = .ok report ∧
    report.rows.Perm (groups.map fun group =>
      group.2.shown group.1 (groupLabel labels groupBy group.1)) ∧
    report.totals = totals.shown none "Jami"
  counted : totals =
    totalsOf ((db.requests.filter (inPeriod cfg dateFrom dateTo)).map (reportRow db)) now
  grouped : ∀ req ∈ db.requests, inPeriod cfg dateFrom dateTo req = true →
    ∃ row ∈ reportRows cfg db dateFrom dateTo, keyedRow db req = some row ∧
      ∃! group, group ∈ groups ∧ group.1 = row.key groupBy
  accumulated : ∀ group ∈ groups, group.2 = totalsOf
    (((reportRows cfg db dateFrom dateTo).filter (·.key groupBy = group.1)).map (·.toReportRow)) now
  summed : (groups.map (·.2.figures)).sum = totals.figures

theorem kpiReport_accounted (hdb : db.Categorized) (labels : GroupBy → Nat → Option String)
    (dateFrom dateTo : Int) :
    Accounted cfg db labels groupBy dateFrom dateTo now
      (groupsOf groupBy (reportRows cfg db dateFrom dateTo) now)
      (totalsOf ((reportRows cfg db dateFrom dateTo).map (·.toReportRow)) now) where
  shown := ⟨_, kpiReport_eq cfg db labels groupBy dateFrom dateTo now, List.mergeSort_perm _ _, rfl⟩
  counted := by rw [reportRows_eq hdb]
  grouped := fun _ hreq hin => keyedRow_grouped hdb hreq hin
  accumulated := fun _ hgroup => groupsOf_accs hgroup
  summed := sum_groupsOf groupBy _ now

/-- For every set of requests, every grouping, every instant and any adjacent
periods: a report accounts for each request of its period once, group by group
and in its totals, and the figures of the whole are those of its two parts,
between which no request falls and in both of which none is. -/
theorem kpi_neither_loses_nor_doubles (cfg : Settings) (db : Db) (hdb : db.Categorized)
    (labels : GroupBy → Nat → Option String) (groupBy : GroupBy) (now : Int) {a b c : Int}
    (hab : a ≤ b) (hbc : b < c) :
    Accounted cfg db labels groupBy a c now (groupsOf groupBy (reportRows cfg db a c) now)
        (totalsOf ((reportRows cfg db a c).map (·.toReportRow)) now) ∧
      kpiFigures cfg db a c now = kpiFigures cfg db a b now + kpiFigures cfg db (b + 1) c now ∧
      (∀ req, inPeriod cfg a c req = true ↔
        a ≤ Sla.localDate cfg.cal req.createdAt ∧ Sla.localDate cfg.cal req.createdAt ≤ c) ∧
      ∀ req, (inPeriod cfg a c req).toNat =
        (inPeriod cfg a b req).toNat + (inPeriod cfg (b + 1) c req).toNat := by
  refine ⟨kpiReport_accounted hdb labels a c, kpiFigures_split hab hbc, ?_, ?_⟩
  · intro req
    exact inPeriod_iff
  · intro req
    exact inPeriod_split hab hbc req

/-! ### A request filed at midnight -/

/-- The first was filed in the last instant of 2025-03-10 in Tashkent, the
second in the first of the day after. -/
def midnightDb : Db where
  nextId := 10
  categories := [{ id := 4, parentId := none, name := "Murojaat" },
    { id := 5, parentId := some 4, name := "Xizmat" }]
  requests :=
    [{ id := 6, trackingNo := "REQ-2025-00001", studentId := 1, categoryId := 5, title := "Birinchi",
       description := "", slaDeadline := 0, createdAt := Sla.localMidnight .default 739321 - 1 },
     { id := 7, trackingNo := "REQ-2025-00002", studentId := 1, categoryId := 5, title := "Ikkinchi",
       description := "", slaDeadline := 0, createdAt := Sla.localMidnight .default 739321 }]

theorem kpi_neither_loses_nor_doubles_midnight :
    (kpiFigures {} midnightDb 739320 739320 0).total = 1 ∧
      (kpiFigures {} midnightDb 739321 739321 0).total = 1 ∧
      kpiFigures {} midnightDb 739320 739321 0 =
        kpiFigures {} midnightDb 739320 739320 0 + kpiFigures {} midnightDb 739321 739321 0 := by
  have hdb : midnightDb.Categorized := by
    unfold Db.Categorized
    decide
  refine ⟨by decide, by decide, ?_⟩
  exact (kpi_neither_loses_nor_doubles {} midnightDb hdb (fun _ _ => none) .faculty 0
    (le_refl 739320) (by decide : (739320 : Int) < 739321)).2.1

end Royd
