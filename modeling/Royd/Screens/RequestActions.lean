/-
Royd.Screens.RequestActions — the buttons on a request's page: the table of
`statusMeta.ts`, the conditions of `RequestDetailPage.tsx`, and the dialogs of
`RequestActions.tsx`, `AnswerDialog.tsx` and `AssignDialog.tsx`.

The page has its own copy of the workflow and of who may act, and the server
is the authority. `page_mirrors_server` compares the two: what the server
takes from a user is what a page opened at that moment offers, but for what
the dialogs cannot know. The button of the assignment is the one the page shows
without asking whether the request is closed, and there the server refuses it.
-/
import Royd.Directory.References

namespace Royd.Screens

open Api

/-! ## The table -/

/-- Whether an action is a plain status move or opens the final-answer form. -/
inductive ActionKind where
  | transition
  | answer
  deriving DecidableEq, Repr

/-- `TransitionAction`; `target` is its `to`. -/
structure TransitionAction where
  target : RequestStatus
  kind : ActionKind
  labelKey : String
  hintKey : String
  color : String
  commentRequired : Bool := false
  deriving DecidableEq, Repr

/-- `START`. -/
def start : TransitionAction where
  target := .inProgress
  kind := .transition
  labelKey := "requests.startWork"
  hintKey := "requests.startWorkHint"
  color := "primary"

/-- `RESUME`. -/
def resume : TransitionAction where
  target := .inProgress
  kind := .transition
  labelKey := "requests.resume"
  hintKey := "requests.resumeHint"
  color := "primary"

/-- `ANSWER`. -/
def answerAction : TransitionAction where
  target := .completed
  kind := .answer
  labelKey := "requests.answerAction"
  hintKey := "requests.answerHint"
  color := "success"

/-- `RETURN`. -/
def returnAction : TransitionAction where
  target := .returned
  kind := .transition
  labelKey := "requests.return"
  hintKey := "requests.returnHint"
  color := "warning"
  commentRequired := true

/-- `TRANSITION_ACTIONS`. -/
def transitionActions : RequestStatus → List TransitionAction
  | .new => [start, answerAction, returnAction]
  | .accepted => [start, answerAction, returnAction]
  | .inProgress => [answerAction, returnAction]
  | .returned => [resume, answerAction]
  | .completed => []
  | .rejected => []

/-! ## The page -/

/-- `canTransition`. -/
def canTransition (role : Role) : Bool := role == .staff || role == .registrator || role == .admin

/-- `canAssign`. -/
def canAssign (role : Role) : Bool := role == .registrator || role == .admin

/-- `isClosed`. -/
def isClosed (status : RequestStatus) : Bool := status == .completed || status == .rejected

/-- `canAct`. -/
def canAct (user : User) (assignedTo : Option Nat) : Bool :=
  canTransition user.role && (user.role != .staff || assignedTo == some user.id)

/-- The buttons of `RequestActions`, where the page shows them. -/
def buttons (user : User) (status : RequestStatus) (assignedTo : Option Nat) :
    List TransitionAction :=
  if canAct user assignedTo && !isClosed status then transitionActions status else []

/-! ## The dialogs -/

/-- A blank for `String.prototype.trim`. -/
def isJsSpace (c : Char) : Bool :=
  let n := c.toNat
  (9 ≤ n && n ≤ 13) || n == 32 || n == 0xA0 || n == 0x1680 || (0x2000 ≤ n && n ≤ 0x200A)
    || n == 0x2028 || n == 0x2029 || n == 0x202F || n == 0x205F || n == 0x3000 || n == 0xFEFF

/-- `text.trim()`. -/
def trim (text : String) : String :=
  .ofList (((text.toList.dropWhile isJsSpace).reverse.dropWhile isJsSpace).reverse)

/-- `text.trim() || null`. -/
def trimOrNull (text : String) : Option String :=
  if (trim text).isEmpty then none else some (trim text)

/-- `run`: what the dialog of a status move sends, unless it asks for a reason. -/
def run (action : TransitionAction) (comment : String) : Option RequestTransition :=
  if action.commentRequired && (trim comment).isEmpty then none
  else some { status := action.target.code, comment := trimOrNull comment }

/-- `MAX_FILES` of the answer's dialog. -/
def maxFiles : Nat := 10

/-- What stands in the answer's dialog. It never holds more files than the
server takes. -/
structure AnswerForm where
  text : String
  files : List Upload
  few : files.length ≤ maxFiles

/-- The dialog as it opens. -/
def AnswerForm.empty : AnswerForm := ⟨"", [], Nat.zero_le _⟩

/-- `addFiles`. -/
def AnswerForm.addFiles (form : AnswerForm) (picked : List Upload) : AnswerForm where
  text := form.text
  files := (form.files ++ picked).take maxFiles
  few := List.length_take_le _ _

/-- The cross beside a file. -/
def AnswerForm.removeFile (form : AnswerForm) (i : Nat) : AnswerForm where
  text := form.text
  files := form.files.eraseIdx i
  few := (List.length_eraseIdx_le _ _).trans form.few

/-- `setText`. -/
def AnswerForm.setText (form : AnswerForm) (text : String) : AnswerForm := { form with text }

/-- `submit`. -/
def AnswerForm.submit (form : AnswerForm) : Option (String × List Upload) :=
  if (trim form.text).isEmpty then none else some (trim form.text, form.files)

/-- `handleSubmit` of the assignment: the request keeps its faculty and its
department. -/
def assignment (d : RequestDetail) (assigneeId : Nat) (comment : String) : RequestAssign where
  assigneeId := assigneeId
  facultyId := d.facultyId
  departmentId := d.departmentId
  comment := trimOrNull comment

/-! ## The endpoints -/

/-- `comment: str | None = Field(default=None, max_length=5000)`. -/
def checkTransitionForm (data : RequestTransition) : Except Exc Unit :=
  if data.comment.any (·.length > 5000) then
    .error (.http 422 "String should have at most 5000 characters")
  else .ok ()

/-- `POST /requests/{id}/transition`. -/
def postTransition (cfg : Settings) (db : Db) (userId requestId : Nat) (data : RequestTransition)
    (now : Int) : Except Exc Work := do
  checkTransitionForm data
  transition cfg db userId requestId data now

/-- `POST /requests/{id}/answer`. -/
def postAnswer (cfg : Settings) (db : Db) (userId requestId : Nat) (text : String)
    (files : List Upload) (now : Int) : Except Exc Work := do
  checkAnswerForm text
  answer cfg db userId requestId text files now

/-- `AssigneeOut`. -/
structure AssigneeOut where
  id : Nat
  fullName : String
  role : Role
  facultyId : Option Nat
  departmentId : Option Nat
  deriving DecidableEq, Repr

/-- `list_assignees`; `collate` is the collation of `full_name`. -/
def listAssignees (collate : String → String → Bool) (db : Db) (userId : Nat)
    (facultyId : Option Nat) : Except Exc (List AssigneeOut) := do
  let _ ← requireRoles db userId Role.seesInternal
  let users := db.users.filter fun u =>
    u.hasRole [.staff, .registrator] && u.isActive &&
      facultyId.all fun id => u.employeeProfile.any (·.facultyId == some id)
  .ok ((users.mergeSort fun a b => collate a.fullName b.fullName).map fun u =>
    { id := u.id, fullName := u.fullName, role := u.role, facultyId := u.facultyId,
      departmentId := u.departmentId })

/-! ## What the server takes -/

variable {cfg : Settings} {db : Db} {now : Int} {userId requestId : Nat} {actor : User}
  {r : Request} {data : RequestTransition} {text : String} {files : List Upload}

/-- The clock of a returned request does not depend on where the request goes. -/
theorem setClock_eq_completed {target : RequestStatus} (hne : target ≠ .returned) :
    setClock cfg r target now = setClock cfg r .completed now := by
  simp [setClock, hne]

/-- A status can be applied exactly if the clock can be restarted. -/
theorem applyStatus_isOk_iff {target : RequestStatus} (h : target ∈ allowedTransitions r.status) :
    (∃ r', applyStatus cfg r target now = .ok r') ↔ ClockRestarts cfg r now := by
  have happly : (∃ r', applyStatus cfg r target now = .ok r') ↔
      ∃ r', setClock cfg r target now = .ok r' := by
    constructor
    · rintro ⟨r', hr'⟩
      obtain ⟨mid, hmid, -⟩ := bind_eq_ok.mp hr'
      exact ⟨mid, hmid⟩
    · rintro ⟨mid, hmid⟩
      exact ⟨_, bind_eq_ok.mpr ⟨mid, hmid, rfl⟩⟩
  rw [happly]
  by_cases hreturned : target = .returned
  · subst hreturned
    have hwas : r.status ≠ .returned := by
      intro heq
      rw [heq] at h
      exact absurd h (by decide)
    constructor
    · exact fun _ heq => absurd heq hwas
    · intro _
      unfold setClock
      split
      · exact ⟨_, rfl⟩
      · rw [if_neg fun hcond => hwas hcond.1]
        exact ⟨_, rfl⟩
  · rw [setClock_eq_completed hreturned]
    exact setClock_isOk_iff

/-- Whoever may move requests and sees this one is its handler, or triages. -/
theorem assertHandler_of_view (hview : assertCanView r actor = .ok ())
    (hrole : actor.role ∈ Role.canTransition) : assertHandler r actor = .ok () := by
  unfold assertHandler
  rw [assertMayMutate_eq_ok (x := ()).mpr (ne_leadership hrole (by decide))]
  have hstaff := (assertCanView_eq_ok.mp hview).2
  exact if_neg fun h => h.2 (hstaff h.1)

theorem checkTransition_iff (hview : assertCanView r actor = .ok ())
    (hrole : actor.role ∈ Role.canTransition) {target : RequestStatus} :
    checkTransition r actor target = .ok () ↔ target ∈ allowedTransitions r.status := by
  constructor
  · exact checkTransition_allowed
  · intro hallowed
    unfold checkTransition
    rw [assertMayMutate_eq_ok (x := ()).mpr (ne_leadership hrole (by decide))]
    have hopen : target ≠ .completed := by
      rintro rfl
      revert hallowed
      cases r.status <;> decide
    change (if target = .completed then _ else _) = _
    rw [if_neg hopen, if_neg (by simpa using hallowed)]
    exact assertHandler_of_view hview hrole

theorem checkComment_iff {target : RequestStatus} {comment : Option String} :
    checkComment target comment = .ok () ↔
      (target = .returned → blank (comment.getD "") = false) := by
  unfold checkComment
  rw [raise_eq_ok, not_and, Bool.not_eq_true]
  simp [commentRequired]

theorem parseStatus_iff {text : String} {target : RequestStatus} :
    parseStatus text = .ok target ↔ text = target.code := by
  unfold parseStatus RequestStatus.ofCode
  constructor
  · intro h
    split at h
    · rename_i found hfound
      cases h
      have hcode : target.code = text := by simpa using List.find?_some hfound
      exact hcode.symm
    · cases h
  · rintro rfl
    cases target <;> rfl

/-- Who a move is taken from, and when. -/
theorem transition_isOk_iff :
    (∃ w, transition cfg db userId requestId data now = .ok w) ↔
      ∃ actor r target, currentUser db userId = .ok actor ∧ actor.role ∈ Role.canTransition ∧
        db.getRequest requestId = some r ∧ assertCanView r actor = .ok () ∧
        data.status = target.code ∧ target ∈ allowedTransitions r.status ∧
        (target = .returned → blank (data.comment.getD "") = false) ∧ ClockRestarts cfg r now := by
  constructor
  · rintro ⟨w, h⟩
    obtain ⟨actor, hactor, h⟩ := bind_eq_ok.mp h
    obtain ⟨w₀, hload, h⟩ := bind_eq_ok.mp h
    obtain ⟨w₁, hmove, -⟩ := bind_eq_ok.mp h
    obtain ⟨hcurrent, hrole⟩ := requireRoles_eq_ok.mp hactor
    obtain ⟨r, hfound, hview, rfl⟩ := getRequestForUser_iff.mp hload
    obtain ⟨target, hparse, hmove⟩ := bind_eq_ok.mp hmove
    obtain ⟨⟨⟩, hcheck, hmove⟩ := bind_eq_ok.mp hmove
    obtain ⟨⟨⟩, hcomment, hmove⟩ := bind_eq_ok.mp hmove
    obtain ⟨r', happly, -⟩ := bind_eq_ok.mp hmove
    have hallowed : target ∈ allowedTransitions r.status := checkTransition_allowed hcheck
    exact ⟨actor, r, target, hcurrent, hrole, hfound, hview, parseStatus_iff.mp hparse, hallowed,
      checkComment_iff.mp hcomment, (applyStatus_isOk_iff hallowed).mp ⟨r', happly⟩⟩
  · rintro ⟨actor, r, target, hcurrent, hrole, hfound, hview, hparse, hallowed, hcomment, hclock⟩
    obtain ⟨r', happly⟩ := (applyStatus_isOk_iff hallowed).mpr hclock
    have hcheck := (checkTransition_iff hview hrole).mpr hallowed
    have hmove : ∃ w₁, transitionRequest cfg (Work.load db r) actor data now = .ok w₁ :=
      ⟨_, bind_eq_ok.mpr ⟨target, parseStatus_iff.mpr hparse, bind_eq_ok.mpr ⟨(), hcheck,
        bind_eq_ok.mpr ⟨(), checkComment_iff.mpr hcomment, bind_eq_ok.mpr ⟨r', happly, rfl⟩⟩⟩⟩⟩
    obtain ⟨w₁, hw₁⟩ := hmove
    exact ⟨_, bind_eq_ok.mpr ⟨actor, requireRoles_eq_ok.mpr ⟨hcurrent, hrole⟩,
      bind_eq_ok.mpr ⟨_, getRequestForUser_iff.mpr ⟨r, hfound, hview, rfl⟩,
        bind_eq_ok.mpr ⟨w₁, hw₁, rfl⟩⟩⟩⟩

theorem checkFileCount_iff {files : List Upload} :
    checkFileCount files = .ok () ↔ files.length ≤ maxAnswerFiles := by
  unfold checkFileCount
  rw [raise_eq_ok, not_lt]

theorem assertCanAnswer_iff (hview : assertCanView r actor = .ok ())
    (hrole : actor.role ∈ Role.canTransition) :
    assertCanAnswer r actor = .ok () ↔ r.status ∉ RequestStatus.closed := by
  constructor
  · exact assertHandler_open
  · intro hopen
    exact bind_eq_ok.mpr ⟨(), assertHandler_of_view hview hrole, assertOpen_eq_ok.mpr hopen⟩

/-- Who an answer is taken from, and when. -/
theorem postAnswer_isOk_iff :
    (∃ w, postAnswer cfg db userId requestId text files now = .ok w) ↔
      ∃ actor r, Admitted db userId requestId text files actor r ∧
        (∀ f ∈ files, f.Acceptable cfg.maxUploadMb) ∧ blank text = false ∧
        ClockRestarts cfg r now := by
  constructor
  · rintro ⟨w, h⟩
    obtain ⟨⟨⟩, hform, h⟩ := bind_eq_ok.mp h
    obtain ⟨actor, hactor, h⟩ := bind_eq_ok.mp h
    obtain ⟨w₀, hload, h⟩ := bind_eq_ok.mp h
    obtain ⟨⟨⟩, hcan, h⟩ := bind_eq_ok.mp h
    obtain ⟨⟨⟩, hcount, h⟩ := bind_eq_ok.mp h
    obtain ⟨r, hfound, hview, rfl⟩ := getRequestForUser_iff.mp hload
    have hadmitted : Admitted db userId requestId text files actor r :=
      ⟨hactor, hform, hfound, hview, hcan, hcount⟩
    exact ⟨actor, r, hadmitted, (answered_iff hadmitted).mp ⟨w, h⟩⟩
  · rintro ⟨actor, r, h, hcontent⟩
    obtain ⟨w, hw⟩ := (answered_iff h).mpr hcontent
    exact ⟨w, bind_eq_ok.mpr ⟨(), h.form, bind_eq_ok.mpr ⟨actor, h.caller,
      bind_eq_ok.mpr ⟨_, getRequestForUser_iff.mpr ⟨r, h.found, h.visible, rfl⟩,
        bind_eq_ok.mpr ⟨(), h.answerable, bind_eq_ok.mpr ⟨(), h.few, hw⟩⟩⟩⟩⟩⟩

/-- A user may be given requests exactly if the dialog lists them. -/
theorem resolveAssignee_isOk_iff (hids : db.UserIds) (collate : String → String → Bool)
    {user : User} (huser : currentUser db userId = .ok user) (hrole : user.role ∈ Role.seesInternal)
    {assigneeId : Nat} : (∃ a, resolveAssignee db assigneeId = .ok a) ↔
      ∃ listed, listAssignees collate db userId none = .ok listed ∧
        ∃ a ∈ listed, a.id = assigneeId := by
  constructor
  · rintro ⟨a, ha⟩
    obtain ⟨-, u, hu, hid, hactive, hrole'⟩ := resolveAssignee_eq_ok ha
    refine ⟨_, bind_eq_ok.mpr ⟨user, requireRoles_eq_ok.mpr ⟨huser, hrole⟩, rfl⟩, _,
      List.mem_map.mpr ⟨u, List.mem_mergeSort.mpr (List.mem_filter.mpr ⟨hu, ?_⟩), rfl⟩, hid⟩
    rw [hasRole_iff.mpr hrole', hactive]
    rfl
  · rintro ⟨listed, hlisted, a, ha, hid⟩
    obtain ⟨-, -, hlisted⟩ := bind_eq_ok.mp hlisted
    cases hlisted
    obtain ⟨u, hu, rfl⟩ := List.mem_map.mp ha
    obtain ⟨hmem, hcan⟩ := List.mem_filter.mp (List.mem_mergeSort.mp hu)
    have hfound : db.getUser assigneeId = some u := by
      rw [← hid]
      exact Tables.find?_of_mem hids.nodup hmem
    simp only [Option.all_none, Bool.and_true, Bool.and_eq_true] at hcan
    unfold resolveAssignee
    rw [hfound]
    dsimp only
    rw [if_neg (not_not.mpr hcan.2), if_neg (not_not.mpr hcan.1)]
    exact ⟨u, rfl⟩

/-- Who an assignment is taken from, and when. -/
theorem assign_isOk_iff {data : RequestAssign} :
    (∃ w, assign cfg db userId requestId data now = .ok w) ↔
      ∃ actor r, currentUser db userId = .ok actor ∧ actor.role ∈ Role.canTriage ∧
        db.getRequest requestId = some r ∧ assertCanView r actor = .ok () ∧
        r.status ∉ RequestStatus.closed ∧ ∃ a, resolveAssignee db data.assigneeId = .ok a := by
  constructor
  · rintro ⟨w, h⟩
    obtain ⟨actor, hactor, h⟩ := bind_eq_ok.mp h
    obtain ⟨w₀, hload, h⟩ := bind_eq_ok.mp h
    obtain ⟨w₁, hassign, -⟩ := bind_eq_ok.mp h
    obtain ⟨hcurrent, hrole⟩ := requireRoles_eq_ok.mp hactor
    obtain ⟨r, hfound, hview, rfl⟩ := getRequestForUser_iff.mp hload
    obtain ⟨⟨⟩, -, hassign⟩ := bind_eq_ok.mp hassign
    obtain ⟨⟨⟩, hopen, hassign⟩ := bind_eq_ok.mp hassign
    obtain ⟨a, ha, -⟩ := bind_eq_ok.mp hassign
    exact ⟨actor, r, hcurrent, hrole, hfound, hview, assertOpen_eq_ok.mp hopen, a, ha⟩
  · rintro ⟨actor, r, hcurrent, hrole, hfound, hview, hopen, a, ha⟩
    have hassign : ∃ w₁, assignRequest db (Work.load db r) actor data now = .ok w₁ :=
      ⟨_, bind_eq_ok.mpr ⟨(), assertMayMutate_eq_ok.mpr (ne_leadership hrole (by decide)),
        bind_eq_ok.mpr ⟨(), assertOpen_eq_ok.mpr hopen, bind_eq_ok.mpr ⟨a, ha, rfl⟩⟩⟩⟩
    obtain ⟨w₁, hw₁⟩ := hassign
    exact ⟨_, bind_eq_ok.mpr ⟨actor, requireRoles_eq_ok.mpr ⟨hcurrent, hrole⟩,
      bind_eq_ok.mpr ⟨_, getRequestForUser_iff.mpr ⟨r, hfound, hview, rfl⟩,
        bind_eq_ok.mpr ⟨w₁, hw₁, rfl⟩⟩⟩⟩

/-! ## The page -/

theorem canTransition_iff {role : Role} :
    canTransition role = true ↔ role ∈ Role.canTransition := by
  cases role <;> decide

theorem canAssign_iff {role : Role} : canAssign role = true ↔ role ∈ Role.canTriage := by
  cases role <;> decide

/-- On a request the user sees, the page lets act whom the server lets act. -/
theorem canAct_iff (hview : assertCanView r actor = .ok ()) :
    canAct actor r.assignedTo = true ↔ actor.role ∈ Role.canTransition := by
  have hstaff := (assertCanView_eq_ok.mp hview).2
  unfold canAct
  rw [Bool.and_eq_true, canTransition_iff, Bool.or_eq_true, bne_iff_ne, beq_iff_eq]
  constructor
  · exact fun h => h.1
  · exact fun h => ⟨h, Classical.or_iff_not_imp_left.mpr fun hrole => hstaff (not_not.mp hrole)⟩

/-- The page's copy of the workflow is the server's. -/
theorem transitionActions_moves (status target : RequestStatus) :
    (∃ a ∈ transitionActions status, a.kind = .transition ∧ a.target = target) ↔
      target ∈ allowedTransitions status := by
  cases status <;> cases target <;> decide

theorem transitionActions_answer (status : RequestStatus) :
    (∃ a ∈ transitionActions status, a.kind = .answer ∧ a.target = .completed) ↔
      status ∉ RequestStatus.closed := by
  cases status <;> decide

theorem transitionActions_closed {status : RequestStatus} (h : isClosed status = true) :
    transitionActions status = [] := by
  revert h
  cases status <;> decide

/-- A reason is asked for exactly where the server asks for one. -/
theorem commentRequired_iff {status : RequestStatus} {a : TransitionAction}
    (h : a ∈ transitionActions status) : a.commentRequired = true ↔ a.target = .returned := by
  revert a
  cases status <;> decide

/-- The buttons, to somebody who sees the request. -/
theorem mem_buttons_iff (hview : assertCanView r actor = .ok ()) {a : TransitionAction} :
    a ∈ buttons actor r.status r.assignedTo ↔
      actor.role ∈ Role.canTransition ∧ a ∈ transitionActions r.status := by
  unfold buttons
  rw [← canAct_iff hview]
  cases hclosed : isClosed r.status with
  | true => simp [transitionActions_closed hclosed]
  | false => cases canAct actor r.assignedTo <;> simp

variable {updatedAt : Nat → Int}

/-- Opened now, the page of the request shows the user this. -/
def Shows (db : Db) (updatedAt : Nat → Int) (now : Int) (userId requestId : Nat)
    (P : User → RequestStatus → Option Nat → Prop) : Prop :=
  ∃ user, currentUser db userId = .ok user ∧
    ∃ d, getDetail db updatedAt now userId requestId = .ok d ∧ P user d.status d.assignedTo

theorem shows_iff (h : db.Whole) {P : User → RequestStatus → Option Nat → Prop} :
    Shows db updatedAt now userId requestId P ↔
      ∃ user, currentUser db userId = .ok user ∧ ∃ r, db.getRequest requestId = some r ∧
        assertCanView r user = .ok () ∧ P user r.status r.assignedTo := by
  constructor
  · rintro ⟨user, huser, hshown⟩
    exact ⟨user, huser, (h.opens_iff huser).mp hshown⟩
  · rintro ⟨user, huser, hshown⟩
    exact ⟨user, huser, (h.opens_iff huser).mpr hshown⟩

/-- It shows a button of this kind, to this status. -/
def Offers (db : Db) (updatedAt : Nat → Int) (now : Int) (userId requestId : Nat)
    (kind : ActionKind) (target : RequestStatus) : Prop :=
  Shows db updatedAt now userId requestId fun user status assignedTo =>
    ∃ a ∈ buttons user status assignedTo, a.kind = kind ∧ a.target = target

/-- If the request is back from its student, its clock can be started again. -/
def Restarts (cfg : Settings) (db : Db) (requestId : Nat) (now : Int) : Prop :=
  ∀ r, db.getRequest requestId = some r → ClockRestarts cfg r now

theorem restarts_iff (hfound : db.getRequest requestId = some r) :
    Restarts cfg db requestId now ↔ ClockRestarts cfg r now := by
  constructor
  · exact fun h => h r hfound
  · intro h r' hr'
    rw [hfound] at hr'
    cases hr'
    exact h

theorem offers_iff (h : db.Whole) {kind : ActionKind} {target : RequestStatus} :
    Offers db updatedAt now userId requestId kind target ↔
      ∃ actor r, currentUser db userId = .ok actor ∧ actor.role ∈ Role.canTransition ∧
        db.getRequest requestId = some r ∧ assertCanView r actor = .ok () ∧
        ∃ a ∈ transitionActions r.status, a.kind = kind ∧ a.target = target := by
  rw [Offers, shows_iff h]
  constructor
  · rintro ⟨actor, hactor, r, hfound, hview, a, ha, hkind, htarget⟩
    obtain ⟨hrole, ha⟩ := (mem_buttons_iff hview).mp ha
    exact ⟨actor, r, hactor, hrole, hfound, hview, a, ha, hkind, htarget⟩
  · rintro ⟨actor, r, hactor, hrole, hfound, hview, a, ha, hkind, htarget⟩
    exact ⟨actor, hactor, r, hfound, hview, a, (mem_buttons_iff hview).mpr ⟨hrole, ha⟩, hkind,
      htarget⟩

/-! ## The two side by side -/

/-- A move is taken exactly if the page offers it, with a comment that is not
too long, a reason the server can read where it wants one, and a clock that
starts again. -/
theorem postTransition_isOk_iff (h : db.Whole) :
    (∃ w, postTransition cfg db userId requestId data now = .ok w) ↔
      ∃ target, data.status = target.code ∧
        Offers db updatedAt now userId requestId .transition target ∧
        checkTransitionForm data = .ok () ∧
        (target = .returned → blank (data.comment.getD "") = false) ∧
        Restarts cfg db requestId now := by
  have hform : (∃ w, postTransition cfg db userId requestId data now = .ok w) ↔
      checkTransitionForm data = .ok () ∧
        ∃ w, transition cfg db userId requestId data now = .ok w := by
    constructor
    · rintro ⟨w, hw⟩
      obtain ⟨⟨⟩, hform, hw⟩ := bind_eq_ok.mp hw
      exact ⟨hform, w, hw⟩
    · rintro ⟨hform, w, hw⟩
      exact ⟨w, bind_eq_ok.mpr ⟨(), hform, hw⟩⟩
  rw [hform, transition_isOk_iff]
  simp only [offers_iff h, transitionActions_moves]
  constructor
  · rintro ⟨hform, actor, r, target, hactor, hrole, hfound, hview, hcode, hallowed, hwhy, hclock⟩
    exact ⟨target, hcode, ⟨actor, r, hactor, hrole, hfound, hview, hallowed⟩, hform, hwhy,
      (restarts_iff hfound).mpr hclock⟩
  · rintro ⟨target, hcode, ⟨actor, r, hactor, hrole, hfound, hview, hallowed⟩, hform, hwhy, hclock⟩
    exact ⟨hform, actor, r, target, hactor, hrole, hfound, hview, hcode, hallowed, hwhy,
      (restarts_iff hfound).mp hclock⟩

theorem postAnswer_taken_iff (h : db.Whole) :
    (∃ w, postAnswer cfg db userId requestId text files now = .ok w) ↔
      Offers db updatedAt now userId requestId .answer .completed ∧
        checkAnswerForm text = .ok () ∧ files.length ≤ maxAnswerFiles ∧
        (∀ f ∈ files, f.Acceptable cfg.maxUploadMb) ∧ blank text = false ∧
        Restarts cfg db requestId now := by
  rw [postAnswer_isOk_iff]
  simp only [offers_iff h, transitionActions_answer]
  constructor
  · rintro ⟨actor, r, hadmitted, hfiles, hvisible, hclock⟩
    obtain ⟨hactor, hrole⟩ := requireRoles_eq_ok.mp hadmitted.caller
    exact ⟨⟨actor, r, hactor, hrole, hadmitted.found, hadmitted.visible,
      assertHandler_open hadmitted.answerable⟩, hadmitted.form,
      checkFileCount_iff.mp hadmitted.few, hfiles, hvisible,
      (restarts_iff hadmitted.found).mpr hclock⟩
  · rintro ⟨⟨actor, r, hactor, hrole, hfound, hview, hopen⟩, hform, hcount, hfiles, hvisible,
      hclock⟩
    exact ⟨actor, r, ⟨requireRoles_eq_ok.mpr ⟨hactor, hrole⟩, hform, hfound, hview,
      (assertCanAnswer_iff hview hrole).mpr hopen, checkFileCount_iff.mpr hcount⟩, hfiles, hvisible,
      (restarts_iff hfound).mp hclock⟩

/-- The page has the button of the assignment. It asks for the role alone, whatever
the request's status. -/
def ShowsAssign (db : Db) (updatedAt : Nat → Int) (now : Int) (userId requestId : Nat) : Prop :=
  Shows db updatedAt now userId requestId fun user _ _ => canAssign user.role = true

/-- The request has not been closed. -/
def IsOpen (db : Db) (requestId : Nat) : Prop :=
  ∃ r, db.getRequest requestId = some r ∧ r.status ∉ RequestStatus.closed

/-- The dialog lists the user. -/
def Lists (db : Db) (collate : String → String → Bool) (userId assigneeId : Nat) : Prop :=
  ∃ listed, listAssignees collate db userId none = .ok listed ∧ ∃ a ∈ listed, a.id = assigneeId

/-- An assignment is taken exactly if the page shows its button, the request
is still open and the dialog lists the assignee. -/
theorem assign_taken_iff (h : db.Whole) (collate : String → String → Bool)
    {data : RequestAssign} : (∃ w, assign cfg db userId requestId data now = .ok w) ↔
      ShowsAssign db updatedAt now userId requestId ∧ IsOpen db requestId ∧
        Lists db collate userId data.assigneeId := by
  unfold ShowsAssign IsOpen Lists
  rw [assign_isOk_iff, shows_iff h]
  have hsees : ∀ {role : Role}, role ∈ Role.canTriage → role ∈ Role.seesInternal := by
    intro role hrole
    revert hrole
    cases role <;> decide
  constructor
  · rintro ⟨actor, r, hactor, hrole, hfound, hview, hopen, hassignee⟩
    exact ⟨⟨actor, hactor, r, hfound, hview, canAssign_iff.mpr hrole⟩, ⟨r, hfound, hopen⟩,
      (resolveAssignee_isOk_iff h.userIds collate hactor (hsees hrole)).mp hassignee⟩
  · rintro ⟨⟨actor, hactor, r, hfound, hview, hcan⟩, ⟨r', hfound', hopen⟩, hlisted⟩
    have hrole := canAssign_iff.mp hcan
    cases hfound.symm.trans hfound'
    exact ⟨actor, r, hactor, hrole, hfound, hview, hopen,
      (resolveAssignee_isOk_iff h.userIds collate hactor (hsees hrole)).mpr hlisted⟩

/-- On a closed request the button is still there, and nothing it sends is taken. -/
theorem assign_closed (h : db.Whole) (hshown : ShowsAssign db updatedAt now userId requestId)
    (hclosed : ¬ IsOpen db requestId) (data : RequestAssign) :
    assign cfg db userId requestId data now
      = .error (.http 409 "Murojaat yopilgan, unga o'zgartirish kiritib bo'lmaydi") := by
  obtain ⟨actor, hactor, r, hfound, hview, hcan⟩ := (shows_iff h).mp hshown
  have hrole := canAssign_iff.mp hcan
  have hrefused : assertOpen r
      = .error (.http 409 "Murojaat yopilgan, unga o'zgartirish kiritib bo'lmaydi") := by
    unfold assertOpen
    rw [if_pos]
    by_contra hopen
    exact hclosed ⟨r, hfound, by simpa using hopen⟩
  unfold assign assignRequest
  rw [requireRoles_eq_ok.mpr ⟨hactor, hrole⟩]
  change (getRequestForUser db requestId actor >>= _) = _
  rw [getRequestForUser_iff.mpr ⟨r, hfound, hview, rfl⟩]
  change ((assertMayMutate actor >>= fun _ => assertOpen r >>= _) >>= _) = _
  rw [assertMayMutate_eq_ok (x := ()).mpr (ne_leadership hrole (by decide)), hrefused]
  rfl

/-! ## What the dialogs send -/

theorem code_injective {s t : RequestStatus} (h : s.code = t.code) : s = t := by
  revert h
  cases s <;> cases t <;> decide

theorem answer_target {status : RequestStatus} {a : TransitionAction}
    (h : a ∈ transitionActions status) : a.kind = .answer → a.target = .completed := by
  revert a
  cases status <;> decide

/-- The comment of a move is its text without the blanks at its ends. -/
theorem run_eq_some {a : TransitionAction} {comment : String} (h : run a comment = some data) :
    data.status = a.target.code ∧ data.comment.getD "" = trim comment ∧
      (checkTransitionForm data = .ok () ↔ (trim comment).length ≤ 5000) := by
  unfold run at h
  split at h
  · cases h
  cases h
  refine ⟨rfl, ?_, ?_⟩
  · unfold trimOrNull
    split
    · rename_i hempty
      exact (String.isEmpty_iff.mp hempty).symm
    · rfl
  · unfold checkTransitionForm trimOrNull
    rw [raise_eq_ok]
    split
    · rename_i hempty
      simp [String.isEmpty_iff.mp hempty]
    · simp

/-- An answer is sent without the blanks at its ends, and with what is left. -/
theorem submit_eq_some {form : AnswerForm} (h : form.submit = some (text, files)) :
    files.length ≤ maxAnswerFiles ∧
      (checkAnswerForm text = .ok () ↔ text.length ≤ 10000) := by
  unfold AnswerForm.submit at h
  split at h
  · cases h
  rename_i hnonempty
  cases h
  refine ⟨form.few, ?_⟩
  have hlength : ¬ (trim form.text).length < 1 := by
    intro hlt
    refine hnonempty (String.isEmpty_iff.mpr ?_)
    exact String.length_eq_zero_iff.mp (Nat.lt_one_iff.mp hlt)
  unfold checkAnswerForm
  rw [if_neg hlength, raise_eq_ok, not_lt]

/-- The request is left where the caller wanted it. -/
theorem postTransition_lands {w : Work}
    (h : postTransition cfg db userId requestId data now = .ok w) :
    w.req.status.code = data.status := by
  obtain ⟨⟨⟩, -, h⟩ := bind_eq_ok.mp h
  obtain ⟨actor, -, h⟩ := bind_eq_ok.mp h
  obtain ⟨w₀, -, h⟩ := bind_eq_ok.mp h
  obtain ⟨w₁, hmove, h⟩ := bind_eq_ok.mp h
  cases h
  obtain ⟨target, hparse, hmove⟩ := bind_eq_ok.mp hmove
  obtain ⟨_, -, hmove⟩ := bind_eq_ok.mp hmove
  obtain ⟨_, -, hmove⟩ := bind_eq_ok.mp hmove
  obtain ⟨req', happly, hmove⟩ := bind_eq_ok.mp hmove
  cases hmove
  rw [parseStatus_iff.mp hparse]
  exact congrArg (·.status.code) (applyStatus_eq_ok happly).shape

theorem postAnswer_closes {w : Work}
    (h : postAnswer cfg db userId requestId text files now = .ok w) :
    w.req.status = .completed := by
  obtain ⟨⟨⟩, -, h⟩ := bind_eq_ok.mp h
  obtain ⟨actor, -, h⟩ := bind_eq_ok.mp h
  obtain ⟨w₀, -, h⟩ := bind_eq_ok.mp h
  obtain ⟨_, -, h⟩ := bind_eq_ok.mp h
  obtain ⟨_, -, h⟩ := bind_eq_ok.mp h
  obtain ⟨w₁, -, h⟩ := bind_eq_ok.mp h
  obtain ⟨w₂, hanswer, h⟩ := bind_eq_ok.mp h
  cases h
  obtain ⟨_, -, hanswer⟩ := bind_eq_ok.mp hanswer
  split at hanswer
  · cases hanswer
  obtain ⟨req', happly, hanswer⟩ := bind_eq_ok.mp hanswer
  cases hanswer
  exact congrArg (·.status) (applyStatus_eq_ok happly).shape

/-! ## Every run -/

/-- What the page offers is what the server takes, and takes where the button says. -/
structure PageMirrors (cfg : Settings) (db : Db) (collate : String → String → Bool)
    (updatedAt : Nat → Int) (now : Int) (userId requestId : Nat) : Prop where
  /-- Of all moves a client can ask for. -/
  moves : ∀ data, (∃ w, postTransition cfg db userId requestId data now = .ok w) ↔
    ∃ target, data.status = target.code ∧
      Offers db updatedAt now userId requestId .transition target ∧
      checkTransitionForm data = .ok () ∧
      (target = .returned → blank (data.comment.getD "") = false) ∧ Restarts cfg db requestId now
  /-- Of all answers. -/
  answers : ∀ text files, (∃ w, postAnswer cfg db userId requestId text files now = .ok w) ↔
    Offers db updatedAt now userId requestId .answer .completed ∧
      checkAnswerForm text = .ok () ∧ files.length ≤ maxAnswerFiles ∧
      (∀ f ∈ files, f.Acceptable cfg.maxUploadMb) ∧ blank text = false ∧
      Restarts cfg db requestId now
  /-- Of all assignments. -/
  assigns : ∀ data w, assign cfg db userId requestId data now = .ok w →
    ShowsAssign db updatedAt now userId requestId ∧ IsOpen db requestId ∧
      Lists db collate userId data.assigneeId
  /-- And of those the dialog sends. -/
  hands : ShowsAssign db updatedAt now userId requestId →
    ∀ d, getDetail db updatedAt now userId requestId = .ok d → ∀ assigneeId comment,
      ((∃ w, assign cfg db userId requestId (assignment d assigneeId comment) now = .ok w) ↔
        IsOpen db requestId ∧ Lists db collate userId assigneeId)
  /-- The button is there on a closed request too. -/
  late : ShowsAssign db updatedAt now userId requestId → ¬ IsOpen db requestId →
    ∀ data, assign cfg db userId requestId data now
      = .error (.http 409 "Murojaat yopilgan, unga o'zgartirish kiritib bo'lmaydi")
  /-- What may still be refused of a move whose button is pressed. -/
  presses : ∀ a, a.kind = .transition →
    Shows db updatedAt now userId requestId (fun user status held => a ∈ buttons user status held) →
    ∀ comment data, run a comment = some data →
      ((∃ w, postTransition cfg db userId requestId data now = .ok w) ↔
        (trim comment).length ≤ 5000 ∧ (a.commentRequired = true → blank (trim comment) = false) ∧
          Restarts cfg db requestId now)
  /-- And of an answer. -/
  submits : ∀ a, a.kind = .answer →
    Shows db updatedAt now userId requestId (fun user status held => a ∈ buttons user status held) →
    ∀ form text files, AnswerForm.submit form = some (text, files) →
      ((∃ w, postAnswer cfg db userId requestId text files now = .ok w) ↔
        text.length ≤ 10000 ∧ (∀ f ∈ files, f.Acceptable cfg.maxUploadMb) ∧ blank text = false ∧
          Restarts cfg db requestId now)
  lands : ∀ data w, postTransition cfg db userId requestId data now = .ok w →
    w.req.status.code = data.status
  closes : ∀ text files w, postAnswer cfg db userId requestId text files now = .ok w →
    w.req.status = .completed

/-- The action of a button that is shown, and the request it is shown on. -/
theorem shown_button (h : db.Whole) {a : TransitionAction}
    (hshown : Shows db updatedAt now userId requestId fun user status held =>
      a ∈ buttons user status held) :
    Offers db updatedAt now userId requestId a.kind a.target ∧
      ∃ status, a ∈ transitionActions status := by
  obtain ⟨actor, hactor, r, hfound, hview, ha⟩ := (shows_iff h).mp hshown
  obtain ⟨hrole, ha⟩ := (mem_buttons_iff hview).mp ha
  exact ⟨(offers_iff h).mpr ⟨actor, r, hactor, hrole, hfound, hview, a, ha, rfl, rfl⟩, r.status, ha⟩

theorem mirrors_of_whole (h : db.Whole) (collate : String → String → Bool) :
    PageMirrors cfg db collate updatedAt now userId requestId where
  moves _ := postTransition_isOk_iff h
  answers _ _ := postAnswer_taken_iff h
  assigns _ w hw := (assign_taken_iff h collate).mp ⟨w, hw⟩
  hands hshown d _ assigneeId comment := by
    constructor
    · intro htaken
      have hall : ShowsAssign db updatedAt now userId requestId ∧ IsOpen db requestId ∧
          Lists db collate userId assigneeId := (assign_taken_iff h collate).mp htaken
      exact hall.2
    · exact fun hrest => (assign_taken_iff h collate).mpr ⟨hshown, hrest⟩
  late := assign_closed h
  presses a hkind hshown comment data hrun := by
    obtain ⟨hoffer, status, hmem⟩ := shown_button h hshown
    obtain ⟨hcode, hcomment, hform⟩ := run_eq_some hrun
    rw [hkind] at hoffer
    rw [postTransition_isOk_iff h, hform, hcomment, commentRequired_iff hmem]
    constructor
    · rintro ⟨target, htarget, -, hlong, hwhy, hclock⟩
      cases code_injective (hcode.symm.trans htarget)
      exact ⟨hlong, hwhy, hclock⟩
    · rintro ⟨hlong, hwhy, hclock⟩
      exact ⟨a.target, hcode, hoffer, hlong, hwhy, hclock⟩
  submits a hkind hshown form text files hsubmit := by
    obtain ⟨hoffer, status, hmem⟩ := shown_button h hshown
    obtain ⟨hfew, hform⟩ := submit_eq_some hsubmit
    rw [hkind, answer_target hmem hkind] at hoffer
    rw [postAnswer_taken_iff h, hform]
    exact ⟨fun ⟨_, hlong, _, hcontent⟩ => ⟨hlong, hcontent⟩,
      fun ⟨hlong, hcontent⟩ => ⟨hoffer, hlong, hfew, hcontent⟩⟩
  lands _ _ := postTransition_lands
  closes _ _ _ := postAnswer_closes

/-- Whatever the office has done before: of the moves, answers and assignments
a user can ask the server for it takes those a page opened at that moment
offers the user, and no others, as long as the texts and the files are ones it
can use, the clock of a returned request can be restarted, and a request that is
assigned is still open; and the request ends in the status on the button. -/
theorem page_mirrors_server (cfg : Settings) {db₀ : Db} (h : Start db₀) (hids : db₀.UserIds)
    (es : List OfficeEvent) (hes : ∀ e ∈ es, e.isForeign = false)
    (collate : String → String → Bool) (updatedAt : Nat → Int) (now : Int)
    (userId requestId : Nat) :
    PageMirrors cfg (Runs.run (happens cfg) db₀ es) collate updatedAt now userId requestId :=
  mirrors_of_whole (run_whole cfg h hids es hes) collate

/-- A student's request, in the hands of the manager. -/
def deskFiling : List OfficeEvent :=
  [.request
    ⟨0, .create 2 { categoryId := 4, title := "Ariza", description := "Matn" } none "REQ-1"⟩]

/-- The manager may return it. -/
theorem page_mirrors_server_helpdesk :
    Offers (Runs.run (happens {}) helpdesk deskFiling) (fun _ => 0) 1 3 10 .transition .returned ∧
      PageMirrors {} (Runs.run (happens {}) helpdesk deskFiling) (fun a b => decide (a ≤ b))
        (fun _ => 0) 1 3 10 := by
  have hmirrors := page_mirrors_server {} helpdesk_start (by decide) deskFiling (by decide)
    (fun a b => decide (a ≤ b)) (fun _ => 0) 1 3 10
  refine ⟨?_, hmirrors⟩
  have htaken : (postTransition {} (Runs.run (happens {}) helpdesk deskFiling) 3 10
      { status := "returned", comment := some "Nusxa" } 1).toOption.isSome = true := by
    decide +kernel
  obtain ⟨w, hw⟩ := Option.isSome_iff_exists.mp htaken
  obtain ⟨target, hcode, hoffer, -⟩ := (hmirrors.moves _).mp ⟨w, toOption_eq_some.mp hw⟩
  obtain rfl : RequestStatus.returned = target := code_injective hcode
  exact hoffer

end Royd.Screens
