/-
Royd.Services.Report — `services/report_service.py`: what the KPI report
counts of one request, and the report of a period.

Averages and percentages are exact rationals; a division by zero raises.
`labels` is what `_labels` reads: the name of the member of staff, faculty,
department or request type a group's key stands for.
-/
import Royd.Core.Python
import Royd.Lib.Decimal
import Royd.Models.Db

namespace Royd

/-! ## One request -/

/-- What `_rows` selects of one request for the report. -/
structure ReportRow where
  status : RequestStatus
  createdAt : Int
  closedAt : Option Int
  slaDeadline : Int
  firstAcceptedAt : Option Int
  wasReturned : Bool
  deriving DecidableEq, Repr

/-- `_Acc`. The two lists hold durations; the report turns them into hours. -/
structure Acc where
  total : Nat := 0
  openCount : Nat := 0
  completed : Nat := 0
  rejected : Nat := 0
  overdueOpen : Nat := 0
  closedOnTime : Nat := 0
  returnedOnce : Nat := 0
  resolutionTimes : List Int := []
  acceptTimes : List Int := []
  deriving DecidableEq, Repr

/-- `+= 1` under a condition. -/
def countIf (n : Nat) (b : Bool) : Nat := if b then n + 1 else n

/-- `_Acc.add`. -/
def Acc.add (acc : Acc) (row : ReportRow) (now : Int) : Acc where
  total := acc.total + 1
  openCount := countIf acc.openCount (RequestStatus.opens.contains row.status)
  completed := countIf acc.completed (row.status == .completed)
  rejected := countIf acc.rejected (row.status == .rejected)
  overdueOpen := countIf acc.overdueOpen
    (RequestStatus.slaRunning.contains row.status && row.slaDeadline < now)
  closedOnTime := countIf acc.closedOnTime
    (match row.closedAt with
    | some closedAt => closedAt ≤ row.slaDeadline
    | none => false)
  returnedOnce := countIf acc.returnedOnce row.wasReturned
  resolutionTimes := acc.resolutionTimes ++ (row.closedAt.map (· - row.createdAt)).toList
  acceptTimes := acc.acceptTimes ++ (row.firstAcceptedAt.map (· - row.createdAt)).toList

/-- The report's row for a request: when it was first taken into work and
whether it was ever returned are read off its history. -/
def reportRow (db : Db) (req : Request) : ReportRow where
  status := req.status
  createdAt := req.createdAt
  closedAt := req.closedAt
  slaDeadline := req.slaDeadline
  firstAcceptedAt := (((db.historyOf req.id).filter fun h =>
    h.newStatus == .accepted || h.newStatus == .inProgress).map (·.createdAt)).min?
  wasReturned := (db.historyOf req.id).any (·.newStatus == .returned)

/-! ## Figures -/

/-- What `a / 0` raises. -/
def zeroDivision : Exc := .value "division by zero"

/-- `100 * part / whole if whole else None`, before it is rounded. -/
def share (part : Int) (whole : Nat) : Except Exc (Option ℚ) :=
  Decimal.ratio zeroDivision (100 * part) whole

/-- `sum(values) / len(values) if values else None`, before it is rounded. -/
def average (values : List ℚ) : Except Exc (Option ℚ) :=
  Decimal.ratio zeroDivision values.sum values.length

/-- `round(figure, 1)`, where there is one. -/
def rounded (figure : Option ℚ) : Option ℚ := figure.map (Decimal.roundTo 1)

/-- `timedelta.total_seconds() / 3600`. -/
def inHours (duration : Int) : ℚ := duration / (Sla.hours 1 : ℤ)

/-! ## A row of the report -/

/-- `KpiRow`. -/
structure KpiRow where
  key : Option Nat := none
  label : String
  total : Nat
  openCount : Nat
  completed : Nat
  rejected : Nat
  overdueOpen : Nat
  slaCompliancePct : Option ℚ := none
  rejectionPct : Option ℚ := none
  returnedPct : Option ℚ := none
  avgAcceptHours : Option ℚ := none
  avgResolutionHours : Option ℚ := none
  deriving DecidableEq

/-- `closed` in `as_row`. -/
def Acc.closed (acc : Acc) : Nat := acc.completed + acc.rejected

/-- The report's SLA compliance, before it is rounded. -/
def Acc.slaCompliance (acc : Acc) : Except Exc (Option ℚ) := share acc.closedOnTime acc.closed

/-- `_Acc.as_row`. -/
def Acc.asRow (acc : Acc) (key : Option Nat) (label : String) : Except Exc KpiRow := do
  let slaCompliance ← acc.slaCompliance
  let rejection ← share acc.rejected acc.closed
  let returned ← share acc.returnedOnce acc.total
  let accept ← average (acc.acceptTimes.map inHours)
  let resolution ← average (acc.resolutionTimes.map inHours)
  .ok
    { key
      label
      total := acc.total
      openCount := acc.openCount
      completed := acc.completed
      rejected := acc.rejected
      overdueOpen := acc.overdueOpen
      slaCompliancePct := rounded slaCompliance
      rejectionPct := rounded rejection
      returnedPct := rounded returned
      avgAcceptHours := rounded accept
      avgResolutionHours := rounded resolution }

/-! ## The report of a period -/

/-- `GROUP_BY`. -/
inductive GroupBy where
  | staff
  | faculty
  | department
  | serviceType
  deriving DecidableEq, Repr

/-- `_UNSET_LABEL`. -/
def GroupBy.unsetLabel : GroupBy → String
  | .staff => "Biriktirilmagan"
  | .faculty => "Fakultet ko'rsatilmagan"
  | .department => "Bo'lim ko'rsatilmagan"
  | .serviceType => "Turi ko'rsatilmagan"

/-- A row of `_rows`, with the columns it may be grouped by. -/
structure KeyedRow extends ReportRow where
  assignedTo : Option Nat
  facultyId : Option Nat
  departmentId : Option Nat
  serviceTypeId : Option Nat
  deriving DecidableEq, Repr

/-- `row[_KEY_COLUMN[group_by]]`. -/
def KeyedRow.key (row : KeyedRow) : GroupBy → Option Nat
  | .staff => row.assignedTo
  | .faculty => row.facultyId
  | .department => row.departmentId
  | .serviceType => row.serviceTypeId

/-- The request joined with its service. -/
def keyedRow (db : Db) (req : Request) : Option KeyedRow :=
  (db.getCategory req.categoryId).map fun service =>
    { toReportRow := reportRow db req
      assignedTo := req.assignedTo
      facultyId := req.facultyId
      departmentId := req.departmentId
      serviceTypeId := service.parentId }

/-- `_utc_bounds`, as the condition `_rows` makes of it: the request was
filed on one of the days from `dateFrom` to `dateTo`. -/
def inPeriod (cfg : Settings) (dateFrom dateTo : Int) (req : Request) : Bool :=
  decide (Sla.localMidnight cfg.cal dateFrom ≤ req.createdAt)
    && decide (req.createdAt < Sla.localMidnight cfg.cal (dateTo + 1))

/-- `_rows`. -/
def reportRows (cfg : Settings) (db : Db) (dateFrom dateTo : Int) : List KeyedRow :=
  (db.requests.filter (inPeriod cfg dateFrom dateTo)).filterMap (keyedRow db)

/-- `totals.add(row, now)` over all rows. -/
def totalsOf (rows : List ReportRow) (now : Int) : Acc :=
  rows.foldl (fun acc row => acc.add row now) {}

/-- `groups[key].add(row, now)` on a `defaultdict`. -/
def addToGroup (key : Option Nat) (row : ReportRow) (now : Int) :
    List (Option Nat × Acc) → List (Option Nat × Acc)
  | [] => [(key, ({} : Acc).add row now)]
  | (k, acc) :: rest =>
    if k = key then (k, acc.add row now) :: rest
    else (k, acc) :: addToGroup key row now rest

/-- `groups`, in the order their keys first came up. -/
def groupsOf (groupBy : GroupBy) (rows : List KeyedRow) (now : Int) : List (Option Nat × Acc) :=
  rows.foldl (fun groups row => addToGroup (row.key groupBy) row.toReportRow now groups) []

/-- The label of a group. -/
def groupLabel (labels : GroupBy → Nat → Option String) (groupBy : GroupBy) : Option Nat → String
  | some key => (labels groupBy key).getD ("#" ++ toString key)
  | none => groupBy.unsetLabel

/-- `KpiReport`. -/
structure KpiReport where
  groupBy : GroupBy
  dateFrom : Int
  dateTo : Int
  rows : List KpiRow
  totals : KpiRow

/-- `(-r["total"], r["label"])`, compared. -/
def KpiRow.before (a b : KpiRow) : Bool :=
  decide (b.total < a.total) || a.total == b.total && decide (a.label ≤ b.label)

/-- `kpi_report`. -/
def kpiReport (cfg : Settings) (db : Db) (labels : GroupBy → Nat → Option String)
    (groupBy : GroupBy) (dateFrom dateTo now : Int) : Except Exc KpiReport := do
  let rows := reportRows cfg db dateFrom dateTo
  let out ← (groupsOf groupBy rows now).mapM fun group =>
    group.2.asRow group.1 (groupLabel labels groupBy group.1)
  let totals ← (totalsOf (rows.map (·.toReportRow)) now).asRow none "Jami"
  .ok { groupBy, dateFrom, dateTo, rows := out.mergeSort KpiRow.before, totals }

end Royd
