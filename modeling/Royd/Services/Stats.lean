/-
Royd.Services.Stats — `services/stats_service.py`: the counters of a
dashboard, over the requests the caller is accountable for.

The conditions are those of the queries: a comparison with NULL selects
nothing, and an average over no rows is NULL.
-/
import Royd.Services.Report

namespace Royd

/-! ## The dashboard -/

/-- `DashboardStats`. -/
structure DashboardStats where
  total : Nat
  openCount : Nat
  byStatus : List (RequestStatus × Nat)
  overdue : Nat
  dueSoon : Nat
  completedToday : Nat
  createdThisWeek : Nat
  avgResolutionHours : Option ℚ
  slaCompliancePct : Option ℚ := none
  totalUsers : Option Nat := none
  unassigned : Option Nat := none
  deriving DecidableEq

/-- `_visible_requests`. -/
def visibleRequests (db : Db) (user : User) : List Request :=
  match user.role with
  | .student => db.requests.filter fun r => r.studentId == user.id
  | .staff => db.requests.filter fun r => r.assignedTo == some user.id
  | .registrator =>
    match user.facultyId with
    | some facultyId => db.requests.filter fun r =>
        r.facultyId == some facultyId || r.assignedTo == some user.id
    | none => db.requests
  | _ => db.requests

/-- `select status, count(*) ... group by status`. -/
def byStatus (visible : List Request) : List (RequestStatus × Nat) :=
  (visible.map (·.status)).dedup.map fun s => (s, (visible.map (·.status)).count s)

/-- `by_status.get(s, 0)`. -/
def statusCount (counts : List (RequestStatus × Nat)) (s : RequestStatus) : Nat :=
  ((counts.find? (·.1 == s)).map (·.2)).getD 0

/-- `closed_total`. -/
def closedTotal (visible : List Request) : Nat :=
  (RequestStatus.closed.map (statusCount (byStatus visible))).sum

/-- `breached`. -/
def breached (visible : List Request) : Nat :=
  visible.countP fun r => RequestStatus.closed.contains r.status
    && r.closedAt.any fun closedAt => decide (r.slaDeadline < closedAt)

/-- The dashboard's SLA compliance, before it is rounded. -/
def slaCompliance (visible : List Request) : Except Exc (Option ℚ) :=
  share ((closedTotal visible : Int) - breached visible) (closedTotal visible)

/-- `avg(extract(epoch from closed_at - created_at) / 3600)` over the closed
requests. -/
def avgHours (visible : List Request) : Option ℚ :=
  let hours := visible.filterMap fun r => r.closedAt.map fun closedAt => inHours (closedAt - r.createdAt)
  Decimal.quotient hours.sum hours.length

/-- `dashboard_stats`, once the requests are selected. -/
def statsOf (db : Db) (user : User) (visible : List Request) (now : Int) :
    Except Exc DashboardStats := do
  let todayStart := now - now % Sla.oneDay
  let weekAgo := now - 7 * Sla.oneDay
  let counts := byStatus visible
  let compliance ← slaCompliance visible
  let wide := user.hasRole [.admin, .leadership]
  .ok
    { total := (counts.map (·.2)).sum
      openCount := (RequestStatus.opens.map (statusCount counts)).sum
      byStatus := RequestStatus.all.map fun s => (s, statusCount counts s)
      overdue := visible.countP fun r =>
        RequestStatus.slaRunning.contains r.status && decide (r.slaDeadline < now)
      dueSoon := visible.countP fun r =>
        RequestStatus.slaRunning.contains r.status && decide (now ≤ r.slaDeadline)
          && decide (r.slaDeadline < now + Sla.hours 24)
      completedToday := visible.countP fun r =>
        r.status == .completed && r.closedAt.any fun closedAt => decide (todayStart ≤ closedAt)
      createdThisWeek := visible.countP fun r => decide (weekAgo ≤ r.createdAt)
      avgResolutionHours := rounded (avgHours visible)
      slaCompliancePct := rounded compliance
      totalUsers := if wide then some (db.users.countP (·.isActive)) else none
      unassigned :=
        if wide then
          some (visible.countP fun r => r.assignedTo.isNone && RequestStatus.opens.contains r.status)
        else none }

/-- `dashboard_stats`. -/
def dashboardStats (db : Db) (user : User) (now : Int) : Except Exc DashboardStats :=
  statsOf db user (visibleRequests db user) now

end Royd
