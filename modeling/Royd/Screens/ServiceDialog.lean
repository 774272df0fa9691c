/-
Royd.Screens.ServiceDialog — `ServiceTypeDialog` of `CategoriesPage.tsx`: one
"Save" that takes several calls.

A save creates or updates the service, then takes away the files marked for
removal, then uploads the files picked; any of these calls may fail, and the
user saves again. The dialog remembers what has landed, so that saving again
retries only what is left. It learns of this from the reply, so the one thing
that can mislead it is a reply that is lost.

* `saves_land_once` — nothing is created or uploaded twice, exactly as long as
  no reply of a call that landed was lost.
* `lost_removal_blocks` — after a lost reply of a removal no save of this
  dialog gets through any more.
-/
import Royd.Lifecycle.FileRows
import Royd.Screens.RequestActions

namespace Royd.Screens.ServiceDialog

open Api

/-! ## The dialog -/

/-- What the fields hold. -/
structure Form where
  name : String
  priority : Priority
  slaHours : Nat
  routing : ServiceRouting
  autoReplyText : String
  autoReplyDescription : String
  assigneeId : Option Nat
  deriving DecidableEq, Repr

/-- The fields as the dialog opens, on a service or on a new one. -/
def Form.open (edit : Option RequestCategory) : Form where
  name := (edit.map (·.name)).getD ""
  priority := (edit.map (·.priority)).getD .normal
  slaHours := (edit.map (·.slaHours)).getD 24
  routing := (edit.map (·.routing)).getD .facultyManager
  autoReplyText := (edit.bind (·.autoReplyText)).getD ""
  autoReplyDescription := (edit.bind (·.autoReplyDescription)).getD ""
  assigneeId := edit.bind (·.assigneeId)

/-- A file picked in the dialog. Two picks of one file are two objects. -/
structure Picked where
  key : Nat
  file : Upload
  deriving DecidableEq, Repr

/-- Where a save is: at its first call, or among the files of the service. -/
inductive Phase where
  | form (id : Option Nat)
  | files (id : Nat)
  deriving DecidableEq, Repr

/-- `handleSubmit` under way: what it has captured, and what is left to do. -/
structure Saving where
  form : Form
  /-- The employees listed when the save began, if the list was there. -/
  assignees : Option (List Nat)
  /-- `keptFiles` when the save began. -/
  kept : List AutoReplyFile
  phase : Phase
  removals : List Nat
  uploads : List Picked
  deriving DecidableEq, Repr

/-- `err`: the first call's, or that of a file with the name shown beside it. -/
inductive Failure where
  | form
  | file (current : String)
  deriving DecidableEq, Repr

structure Dialog where
  parentId : Nat
  /-- `edit?.id`. -/
  opened : Option Nat
  savedId : Option Nat
  form : Form
  pendingFiles : List Picked := []
  removedFileIds : List Nat := []
  saving : Option Saving := none
  err : Option Failure := none
  closed : Bool := false
  /-- The form that was saved when the dialog closed by itself. -/
  finished : Option Form := none
  deriving DecidableEq, Repr

/-- The dialog as it opens. -/
def Dialog.open (parentId : Nat) (edit : Option RequestCategory) : Dialog where
  parentId := parentId
  opened := edit.map (·.id)
  savedId := edit.map (·.id)
  form := Form.open edit

/-- `MAX_AUTO_REPLY_FILES`. -/
def maxAutoReplyFiles : Nat := 10

/-- `keptFiles`. -/
def Dialog.keptFiles (d : Dialog) (listed : List AutoReplyFile) : List AutoReplyFile :=
  listed.filter fun f => !d.removedFileIds.contains f.id

/-! ## A save -/

/-- `staleAssignee`. -/
def staleAssignee (form : Form) (assignees : Option (List Nat)) : Bool :=
  match form.assigneeId, assignees with
  | some id, some listed => !listed.contains id
  | _, _ => false

/-- `general && !staleAssignee ? form.assignee_id : null`. -/
def sentAssignee (form : Form) (assignees : Option (List Nat)) : Option Nat :=
  if form.routing = .generalManager ∧ staleAssignee form assignees = false then form.assigneeId
  else none

/-- `{ parent_id: parent.id, ...payload }`. -/
def createPayload (parentId : Nat) (s : Saving) : CategoryCreate where
  parentId := some parentId
  name := s.form.name
  slaHours := s.form.slaHours
  priority := s.form.priority
  routing := s.form.routing
  autoReplyText := trimOrNull s.form.autoReplyText
  autoReplyDescription := trimOrNull s.form.autoReplyDescription
  assigneeId := sentAssignee s.form s.assignees

/-- `payload`. -/
def updatePayload (s : Saving) : CategoryUpdate where
  name := some (some s.form.name)
  slaHours := some (some s.form.slaHours)
  priority := some (some s.form.priority)
  routing := some (some s.form.routing)
  autoReplyText := some (trimOrNull s.form.autoReplyText)
  autoReplyDescription := some (trimOrNull s.form.autoReplyDescription)
  assigneeId := some (sentAssignee s.form s.assignees)

/-- A call of a save. -/
inductive SaveCall where
  | create
  | update (id : Nat)
  | remove (id fileId : Nat)
  | upload (id : Nat) (picked : Picked)
  deriving DecidableEq, Repr

/-- The call a save makes next. -/
def Saving.next (s : Saving) : Option SaveCall :=
  match s.phase, s.removals, s.uploads with
  | .form none, _, _ => some .create
  | .form (some id), _, _ => some (.update id)
  | .files id, fileId :: _, _ => some (.remove id fileId)
  | .files id, [], picked :: _ => some (.upload id picked)
  | .files _, [], [] => none

/-- What the server is asked for. -/
def SaveCall.edit (userId parentId : Nat) (s : Saving) : SaveCall → CatalogueEdit
  | .create => .create (createPayload parentId s)
  | .update id => .update id (updatePayload s)
  | .remove id fileId => .removeFile id fileId
  | .upload id picked => .addFile id picked.file userId

/-- `current`, the name in the message about a file that failed. -/
def Saving.current (s : Saving) : SaveCall → String
  | .remove _ fileId => ((s.kept.find? (·.id == fileId)).map (·.fileName)).getD ""
  | .upload _ picked => picked.file.filename.getD ""
  | _ => ""

/-- The `catch` of the first call, and that of the files. -/
def Saving.failure (s : Saving) (c : SaveCall) : Failure :=
  match s.phase with
  | .form _ => .form
  | .files _ => .file (s.current c)

/-- The reply of a call came in: the next call is due. A new service has the
id `newId`. -/
def Dialog.landed (d : Dialog) (s : Saving) (newId : Nat) : SaveCall → Dialog
  | .create => { d with savedId := some newId, saving := some { s with phase := .files newId } }
  | .update id => { d with saving := some { s with phase := .files id } }
  | .remove _ fileId =>
    { d with
      removedFileIds := d.removedFileIds.filter (· != fileId)
      saving := some { s with removals := s.removals.tail } }
  | .upload _ picked =>
    { d with
      pendingFiles := d.pendingFiles.filter (·.key != picked.key)
      saving := some { s with uploads := s.uploads.tail } }

/-- `onClose` after the last call. -/
def Dialog.settled (d : Dialog) : Dialog :=
  match d.saving with
  | some s => if s.next.isNone then
      { d with saving := none, closed := true, finished := some s.form }
    else d
  | none => d

/-- A call failed: the save stops where it is. -/
def Dialog.failed (d : Dialog) (s : Saving) (c : SaveCall) : Dialog :=
  { d with saving := none, err := some (s.failure c) }

/-! ## The dialog in its office -/

/-- The dialog, the tables of the server, and what the dialog's calls have
done there: the services created, and under which service each pick was
stored. -/
structure World where
  db : Db
  dialog : Dialog
  /-- The files the dialog last fetched. -/
  listed : List AutoReplyFile := []
  nextKey : Nat := 0
  made : List Nat := []
  stored : List (Nat × Nat) := []
  /-- Picks the user has put away. -/
  dropped : List Nat := []
  /-- A service was created, or a file stored, and the reply was lost. -/
  lost : Bool := false
  deriving DecidableEq, Repr

/-- What may happen next. -/
inductive Happening where
  /-- Somebody else does something. -/
  | office (e : Event)
  | refetch
  | write (form : Form)
  | pick (files : List Upload)
  | unpick (key : Nat)
  | mark (fileId : Nat)
  | submit (assignees : Option (List Nat))
  /-- The call is answered. -/
  | served (now : Int)
  /-- It does not reach the server. -/
  | unsent
  /-- It reaches the server, and the answer does not come back. -/
  | unanswered (now : Int)
  | cancel
  deriving DecidableEq, Repr

/-- The file fields take input: they are there, and no save is under way. -/
def Dialog.fileFields (d : Dialog) : Bool :=
  !d.closed && d.saving.isNone && d.form.routing == .autoReply

/-- The user adds files: `slice(0, room)` keeps the first. -/
def World.picks (w : World) (files : List Upload) : World :=
  let kept := w.dialog.keptFiles w.listed
  if w.dialog.fileFields && decide (kept.length + w.dialog.pendingFiles.length < maxAutoReplyFiles)
  then
    let picked := (files.zipIdx w.nextKey).map fun (file, key) => ⟨key, file⟩
    let all := w.dialog.pendingFiles ++ picked
    let room := maxAutoReplyFiles - kept.length
    { w with
      dialog := { w.dialog with pendingFiles := all.take room }
      nextKey := w.nextKey + files.length
      dropped := w.dropped ++ (all.drop room).map (·.key) }
  else w

/-- `onRemovePending`. -/
def World.unpicks (w : World) (key : Nat) : World :=
  if w.dialog.fileFields then
    { w with
      dialog := { w.dialog with
        pendingFiles := w.dialog.pendingFiles.filter fun p => !(p.key == key) }
      dropped := w.dropped ++ (w.dialog.pendingFiles.filter (·.key == key)).map (·.key) }
  else w

/-- `onRemoveSaved`. -/
def World.marks (w : World) (fileId : Nat) : World :=
  if w.dialog.fileFields && (w.dialog.keptFiles w.listed).any (·.id == fileId) then
    { w with dialog := { w.dialog with removedFileIds := w.dialog.removedFileIds ++ [fileId] } }
  else w

/-- `handleSubmit`, up to its first call. -/
def World.submits (w : World) (assignees : Option (List Nat)) : World :=
  let d := w.dialog
  if d.closed || d.saving.isSome then w
  else
    { w with dialog := { d with
        err := none
        saving := some
          { form := d.form
            assignees
            kept := d.keptFiles w.listed
            phase := .form d.savedId
            removals := d.removedFileIds
            uploads := if d.form.routing = .autoReply then d.pendingFiles else [] } } }

/-- What an accepted call leaves on the server. -/
def World.keeps (w : World) (db' : Db) : SaveCall → World
  | .create => { w with db := db', made := w.made ++ [w.db.nextId] }
  | .upload id picked => { w with db := db', stored := w.stored ++ [(picked.key, id)] }
  | _ => { w with db := db' }

/-- The call can leave something behind twice. -/
def SaveCall.adds : SaveCall → Bool
  | .create => true
  | .upload .. => true
  | _ => false

/-- The next call of the save, executed; `heard` says whether its reply comes
back. -/
def World.calls (cfg : Settings) (userId : Nat) (w : World) (heard : Bool) (now : Int) : World :=
  match w.dialog.saving with
  | none => w
  | some s =>
    match s.next with
    | none => w
    | some c =>
      match (c.edit userId w.dialog.parentId s).apply cfg w.db now with
      | .ok db' =>
        if heard then
          { w.keeps db' c with dialog := (w.dialog.landed s w.db.nextId c).settled }
        else
          { w.keeps db' c with dialog := w.dialog.failed s c, lost := w.lost || c.adds }
      | .error _ => { w with dialog := w.dialog.failed s c }

/-- The call is not executed at all. -/
def World.misses (w : World) : World :=
  match w.dialog.saving with
  | none => w
  | some s =>
    match s.next with
    | none => w
    | some c => { w with dialog := w.dialog.failed s c }

/-- One step. -/
def happen (cfg : Settings) (userId : Nat) (w : World) : Happening → World
  | .office e => { w with db := step cfg w.db e }
  | .refetch =>
    { w with listed := w.db.autoReplyFiles.filter fun f => w.dialog.savedId == some f.categoryId }
  | .write form => if w.dialog.closed then w else { w with dialog := { w.dialog with form } }
  | .pick files => w.picks files
  | .unpick key => w.unpicks key
  | .mark fileId => w.marks fileId
  | .submit assignees => w.submits assignees
  | .served now => w.calls cfg userId true now
  | .unsent => w.misses
  | .unanswered now => w.calls cfg userId false now
  | .cancel => { w with dialog := { w.dialog with closed := true } }

/-! ## What the dialog remembers -/

variable {cfg : Settings} {userId : Nat} {w w' : World} {d : Dialog} {s : Saving}

/-- The service a new-service dialog knows it has created. -/
def Dialog.fresh (d : Dialog) : List Nat := if d.opened.isSome then [] else d.savedId.toList

/-- The keys of all picks: stored, waiting, and put away. -/
def World.keys (w : World) : List Nat :=
  w.stored.map (·.1) ++ w.dialog.pendingFiles.map (·.key) ++ w.dropped

/-- The dialog knows what its calls have done: it has created the service it
shows and no other, and every pick is stored, waits, or was put away, once. -/
structure World.InStep (w : World) : Prop where
  made : w.made = w.dialog.fresh
  once : w.keys.Perm (List.range w.nextKey)

/-- A save is about what the dialog shows. -/
structure Saving.Fits (s : Saving) (d : Dialog) : Prop where
  removals : s.removals = d.removedFileIds
  uploads : s.uploads = if s.form.routing = .autoReply then d.pendingFiles else []
  phase : match s.phase with
    | .form id => d.savedId = id
    | .files id => d.savedId = some id
  kept : ∀ f ∈ s.kept, f.id ∉ s.removals

/-- When the dialog has closed by itself, nothing is left to do. -/
structure Dialog.Finished (d : Dialog) (f : Form) : Prop where
  closed : d.closed = true
  idle : d.saving = none
  removed : d.removedFileIds = []
  uploaded : f.routing = .autoReply → d.pendingFiles = []

/-- What holds of a dialog whatever becomes of its calls. -/
structure World.Coherent (w : World) : Prop where
  known : ∀ k ∈ w.keys, k < w.nextKey
  pending : (w.dialog.pendingFiles.map (·.key)).Nodup
  marked : w.dialog.removedFileIds.Nodup
  editing : ∀ id, w.dialog.opened = some id → w.dialog.savedId = some id
  under : ∀ p ∈ w.stored, w.dialog.savedId = some p.2
  fits : ∀ s, w.dialog.saving = some s → s.Fits w.dialog
  finished : ∀ f, w.dialog.finished = some f → w.dialog.Finished f

/-- The dialog has been misled: it made more than it knows, or a pick is in
two places. -/
def World.Misled (w : World) : Prop :=
  w.dialog.fresh.length < w.made.length ∨ ¬ w.keys.Nodup

/-- The dialog is in step as long as no reply was lost, and never after. -/
structure World.Tracked (w : World) : Prop where
  coherent : w.Coherent
  told : w.lost = false → w.InStep
  misled : w.lost = true → w.Misled

/-- Once misled, it stays so. -/
structure World.Extends (w w' : World) : Prop where
  keys : ∃ more, w'.keys.Perm (w.keys ++ more)
  made : w.dialog.fresh.length < w.made.length → w'.dialog.fresh.length < w'.made.length

theorem World.Misled.after (h : w.Misled) (hext : w.Extends w') : w'.Misled := by
  rcases h with hmade | hkeys
  · exact .inl (hext.made hmade)
  · obtain ⟨more, hperm⟩ := hext.keys
    exact .inr fun hnodup => hkeys (hperm.nodup_iff.mp hnodup).of_append_left

/-- A step that moves picks about and adds new ones. -/
theorem World.Tracked.of_perm (h : w.Tracked) (hcoherent : w'.Coherent) (more : List Nat)
    (hperm : w'.keys.Perm (w.keys ++ more))
    (honce : w.keys.Perm (List.range w.nextKey) → (w.keys ++ more).Perm (List.range w'.nextKey))
    (hlost : w'.lost = w.lost) (hmade : w'.made = w.made)
    (hfresh : w'.dialog.fresh = w.dialog.fresh) : w'.Tracked where
  coherent := hcoherent
  told hl := by
    rw [hlost] at hl
    obtain ⟨hm, ho⟩ := h.told hl
    exact ⟨by rw [hmade, hfresh, hm], hperm.trans (honce ho)⟩
  misled hl := by
    rw [hlost] at hl
    refine (h.misled hl).after ⟨⟨more, hperm⟩, ?_⟩
    rw [hmade, hfresh]
    exact id

/-! ## The user's steps -/

theorem picks_tracked (h : w.Tracked) (files : List Upload) : (w.picks files).Tracked := by
  unfold World.picks
  dsimp only
  split
  swap
  · exact h
  rename_i hallowed
  simp only [Dialog.fileFields, Bool.and_eq_true, Bool.not_eq_true',
    Option.isNone_iff_eq_none] at hallowed
  obtain ⟨⟨⟨hopen, hidle⟩, -⟩, -⟩ := hallowed
  generalize hpicked : (files.zipIdx w.nextKey).map (fun x => (⟨x.2, x.1⟩ : Picked)) = picked
  generalize maxAutoReplyFiles - (w.dialog.keptFiles w.listed).length = room
  have hnew : picked.map (·.key) = List.range' w.nextKey files.length := by
    rw [← hpicked, List.map_map]
    exact List.zipIdx_map_snd w.nextKey files
  generalize hw' : World.mk _ _ _ _ _ _ _ _ = w'
  have hkeys : w'.keys.Perm (w.keys ++ List.range' w.nextKey files.length) := by
    subst hw'
    unfold World.keys
    dsimp only
    rw [List.perm_iff_count]
    intro k
    have hsplit := congrArg (fun l => (l.map (·.key)).count k)
      (List.take_append_drop room (w.dialog.pendingFiles ++ picked))
    simp only [List.map_append, List.count_append, hnew] at hsplit ⊢
    omega
  have honce : w.keys.Perm (List.range w.nextKey) →
      (w.keys ++ List.range' w.nextKey files.length).Perm (List.range w'.nextKey) := fun hall => by
    have hrange : List.range w.nextKey ++ List.range' w.nextKey files.length =
        List.range (w.nextKey + files.length) := by
      rw [List.range_eq_range', List.range_eq_range']
      simpa using @List.range'_append_1 0 w.nextKey files.length
    rw [← hw']
    exact hrange ▸ hall.append_right _
  have hpending : ((w.dialog.pendingFiles ++ picked).map (·.key)).Nodup := by
    rw [List.map_append, hnew]
    refine List.nodup_append.mpr ⟨h.coherent.pending, List.nodup_range', fun k hk k' hk' => ?_⟩
    have hlt := h.coherent.known k
      (List.mem_append_left _ (List.mem_append_right _ hk))
    have hge := (List.mem_range'_1.mp hk').1
    omega
  refine h.of_perm ?_ _ hkeys honce (by rw [← hw']) (by rw [← hw']) (by rw [← hw']; rfl)
  constructor
  · intro k hk
    have hin := hkeys.mem_iff.mp hk
    rw [← hw']
    rcases List.mem_append.mp hin with hin | hin
    · have hlt := h.coherent.known k hin
      dsimp only
      omega
    · exact (List.mem_range'_1.mp hin).2
  · rw [← hw']
    dsimp only
    rw [List.map_take]
    exact hpending.sublist (List.take_sublist _ _)
  · rw [← hw']
    exact h.coherent.marked
  · rw [← hw']
    exact h.coherent.editing
  · rw [← hw']
    exact h.coherent.under
  · rw [← hw']
    intro s hs
    rw [hidle] at hs
    cases hs
  · rw [← hw']
    intro f hf
    have hclosed := (h.coherent.finished f hf).closed
    rw [hopen] at hclosed
    cases hclosed

theorem fileFields_iff : d.fileFields = true ↔
    d.closed = false ∧ d.saving = none ∧ d.form.routing = .autoReply := by
  simp [Dialog.fileFields, and_assoc]

theorem unpicks_tracked (h : w.Tracked) (key : Nat) : (w.unpicks key).Tracked := by
  unfold World.unpicks
  split
  swap
  · exact h
  rename_i hallowed
  obtain ⟨hopen, hidle, -⟩ := fileFields_iff.mp hallowed
  generalize hw' : World.mk _ _ _ _ _ _ _ _ = w'
  have hkeys : w'.keys.Perm (w.keys ++ []) := by
    subst hw'
    unfold World.keys
    dsimp only
    rw [List.perm_iff_count]
    intro k
    have hsplit := (List.filter_append_perm (fun p : Picked => p.key == key)
      w.dialog.pendingFiles).map (·.key)
    have hcount := List.perm_iff_count.mp hsplit k
    simp only [List.map_append, List.count_append, List.count_nil] at hcount ⊢
    omega
  have hnext : w'.nextKey = w.nextKey := by rw [← hw']
  refine h.of_perm ?_ _ hkeys (fun hall => by rwa [List.append_nil, hnext]) (by rw [← hw'])
    (by rw [← hw']) (by rw [← hw']; rfl)
  constructor
  · intro k hk
    have hin := hkeys.mem_iff.mp hk
    rw [List.append_nil] at hin
    rw [← hw']
    exact h.coherent.known k hin
  · rw [← hw']
    exact h.coherent.pending.sublist (List.filter_sublist.map _)
  · rw [← hw']
    exact h.coherent.marked
  · rw [← hw']
    exact h.coherent.editing
  · rw [← hw']
    exact h.coherent.under
  · rw [← hw']
    intro s hs
    rw [hidle] at hs
    cases hs
  · rw [← hw']
    intro f hf
    have hclosed := (h.coherent.finished f hf).closed
    rw [hopen] at hclosed
    cases hclosed

/-- A step that moves no pick and learns of no service. -/
theorem World.Tracked.of_same (h : w.Tracked) (hstored : w'.stored = w.stored)
    (hpending : w'.dialog.pendingFiles = w.dialog.pendingFiles) (hdropped : w'.dropped = w.dropped)
    (hnext : w'.nextKey = w.nextKey) (hlost : w'.lost = w.lost) (hmade : w'.made = w.made)
    (hopened : w'.dialog.opened = w.dialog.opened) (hsaved : w'.dialog.savedId = w.dialog.savedId)
    (marked : w'.dialog.removedFileIds.Nodup)
    (fits : ∀ s, w'.dialog.saving = some s → s.Fits w'.dialog)
    (finished : ∀ f, w'.dialog.finished = some f → w'.dialog.Finished f) : w'.Tracked := by
  have hkeys : w'.keys = w.keys := by
    unfold World.keys
    rw [hstored, hpending, hdropped]
  have hfresh : w'.dialog.fresh = w.dialog.fresh := by
    unfold Dialog.fresh
    rw [hopened, hsaved]
  refine h.of_perm ?_ [] (by rw [hkeys, List.append_nil])
    (fun hall => by rwa [List.append_nil, hnext]) hlost hmade hfresh
  constructor
  · rw [hkeys, hnext]
    exact h.coherent.known
  · rw [hpending]
    exact h.coherent.pending
  · exact marked
  · rw [hopened, hsaved]
    exact h.coherent.editing
  · rw [hstored, hsaved]
    exact h.coherent.under
  · exact fits
  · exact finished

theorem marks_tracked (h : w.Tracked) (fileId : Nat) : (w.marks fileId).Tracked := by
  unfold World.marks
  split
  swap
  · exact h
  rename_i hallowed
  obtain ⟨hfields, hkept⟩ := (Bool.and_eq_true _ _).mp hallowed
  obtain ⟨hopen, hidle, -⟩ := fileFields_iff.mp hfields
  refine h.of_same rfl rfl rfl rfl rfl rfl rfl rfl ?_ ?_ ?_
  · -- A file can only be marked while it is shown.
    obtain ⟨f, hf, hid⟩ := List.any_eq_true.mp hkept
    have hunmarked := (List.mem_filter.mp hf).2
    refine List.nodup_append.mpr ⟨h.coherent.marked, List.nodup_singleton _, fun a ha b hb => ?_⟩
    rintro rfl
    rw [List.mem_singleton.mp hb, ← beq_iff_eq.mp hid] at ha
    simp [ha] at hunmarked
  · intro s hs
    rw [hidle] at hs
    cases hs
  · intro f hf
    have hclosed := (h.coherent.finished f hf).closed
    rw [hopen] at hclosed
    cases hclosed

theorem submits_tracked (h : w.Tracked) (assignees : Option (List Nat)) :
    (w.submits assignees).Tracked := by
  unfold World.submits
  dsimp only
  split
  · exact h
  rename_i hallowed
  simp only [Bool.or_eq_true, not_or, Bool.not_eq_true] at hallowed
  refine h.of_same rfl rfl rfl rfl rfl rfl rfl rfl h.coherent.marked ?_ ?_
  · rintro s ⟨⟩
    refine ⟨rfl, rfl, rfl, fun f hf => ?_⟩
    have hunmarked := (List.mem_filter.mp hf).2
    simpa using hunmarked
  · intro f hf
    have hclosed := (h.coherent.finished f hf).closed
    rw [hallowed.1] at hclosed
    cases hclosed

/-! ## A call -/

theorem failed_tracked (h : w.Tracked) (s : Saving) (c : SaveCall) :
    World.Tracked { w with dialog := w.dialog.failed s c } := by
  refine h.of_same rfl rfl rfl rfl rfl rfl rfl rfl h.coherent.marked ?_ ?_
  · rintro s' ⟨⟩
  · intro f hf
    have hdone := h.coherent.finished f hf
    exact ⟨hdone.closed, rfl, hdone.removed, hdone.uploaded⟩

/-- Where a save is when it makes a call. -/
theorem next_eq_some {c : SaveCall} (h : s.next = some c) :
    match c with
    | .create => s.phase = .form none
    | .update id => s.phase = .form (some id)
    | .remove id fileId => s.phase = .files id ∧ s.removals = fileId :: s.removals.tail
    | .upload id picked => s.phase = .files id ∧ s.removals = [] ∧
        s.uploads = picked :: s.uploads.tail := by
  unfold Saving.next at h
  split at h
  · cases h
    assumption
  · cases h
    assumption
  · cases h
    rename_i hphase hremovals
    exact ⟨hphase, by rw [hremovals]; rfl⟩
  · cases h
    rename_i hphase hremovals huploads
    exact ⟨hphase, hremovals, by rw [huploads]; rfl⟩
  · cases h

/-- After its last call a save has left nothing to do. -/
theorem next_eq_none (h : s.next = none) : s.removals = [] ∧ s.uploads = [] := by
  unfold Saving.next at h
  split at h
  · cases h
  · cases h
  · cases h
  · cases h
  · exact ⟨by assumption, by assumption⟩

theorem settled_tracked (h : World.Tracked { w with dialog := d }) :
    World.Tracked { w with dialog := d.settled } := by
  unfold Dialog.settled
  cases hsaving : d.saving with
  | none => exact h
  | some s =>
    dsimp only
    split
    swap
    · exact h
    rename_i hlast
    obtain ⟨hremovals, huploads⟩ := next_eq_none (Option.isNone_iff_eq_none.mp hlast)
    have hfits := h.coherent.fits s hsaving
    refine h.of_same rfl rfl rfl rfl rfl rfl rfl rfl h.coherent.marked ?_ ?_
    · rintro s' ⟨⟩
    · rintro f ⟨⟩
      refine ⟨rfl, rfl, hfits.removals.symm.trans hremovals, fun hauto => ?_⟩
      have hpending := hfits.uploads
      rw [if_pos hauto, huploads] at hpending
      exact hpending.symm

/-- A dialog whose save is under way has not finished. -/
theorem World.Coherent.unfinished (h : w.Coherent) (hsaving : w.dialog.saving = some s) :
    w.dialog.finished = none := by
  cases hf : w.dialog.finished with
  | none => rfl
  | some f =>
    have hidle := (h.finished f hf).idle
    rw [hsaving] at hidle
    cases hidle

/-- A save that is at its first call of a new service knows of no service. -/
theorem World.Coherent.unsaved (h : w.Coherent) (hsaving : w.dialog.saving = some s)
    (hphase : s.phase = .form none) :
    w.dialog.savedId = none ∧ w.dialog.opened = none ∧ w.stored = [] := by
  have hid : w.dialog.savedId = none := by
    have hfits := (h.fits s hsaving).phase
    rwa [hphase] at hfits
  refine ⟨hid, ?_, List.eq_nil_iff_forall_not_mem.mpr fun p hp => ?_⟩
  · cases hopened : w.dialog.opened with
    | none => rfl
    | some id =>
      rw [h.editing id hopened] at hid
      cases hid
  · have hunder := h.under p hp
    rw [hid] at hunder
    cases hunder

theorem created_tracked (h : w.Tracked) (hsaving : w.dialog.saving = some s)
    (hphase : s.phase = .form none) (db' : Db) :
    World.Tracked
      { w.keeps db' .create with dialog := w.dialog.landed s w.db.nextId .create } := by
  obtain ⟨hsaved, hopened, hstored⟩ := h.coherent.unsaved hsaving hphase
  have hfits := h.coherent.fits s hsaving
  have hfresh : w.dialog.fresh = [] := by
    unfold Dialog.fresh
    rw [hopened, hsaved]
    rfl
  have hlearned : (w.dialog.landed s w.db.nextId .create).fresh = [w.db.nextId] := by
    unfold Dialog.fresh Dialog.landed
    dsimp only
    rw [hopened]
    rfl
  refine ⟨?_, fun hlost => ?_, fun hlost => ?_⟩
  · constructor
    · exact h.coherent.known
    · exact h.coherent.pending
    · exact h.coherent.marked
    · intro id hid
      change w.dialog.opened = some id at hid
      rw [hopened] at hid
      cases hid
    · intro p hp
      change p ∈ w.stored at hp
      rw [hstored] at hp
      cases hp
    · rintro s' ⟨⟩
      exact ⟨hfits.removals, hfits.uploads, rfl, hfits.kept⟩
    · intro f hf
      change w.dialog.finished = some f at hf
      rw [h.coherent.unfinished hsaving] at hf
      cases hf
  · obtain ⟨hmade, honce⟩ := h.told hlost
    refine ⟨?_, honce⟩
    rw [hlearned]
    change w.made ++ [w.db.nextId] = [w.db.nextId]
    rw [hmade, hfresh, List.nil_append]
  · rcases h.misled hlost with hmade | honce
    · refine .inl ?_
      rw [hfresh] at hmade
      rw [hlearned]
      change 1 < (w.made ++ [w.db.nextId]).length
      rw [List.length_append]
      exact Nat.add_lt_add_right hmade 1
    · exact .inr honce

theorem updated_tracked (h : w.Tracked) (hsaving : w.dialog.saving = some s) {id : Nat}
    (hphase : s.phase = .form (some id)) (db' : Db) :
    World.Tracked
      { w.keeps db' (.update id) with dialog := w.dialog.landed s w.db.nextId (.update id) } := by
  have hfits := h.coherent.fits s hsaving
  have hid : w.dialog.savedId = some id := by
    have := hfits.phase
    rwa [hphase] at this
  refine h.of_same rfl rfl rfl rfl rfl rfl rfl rfl h.coherent.marked ?_ ?_
  · rintro s' ⟨⟩
    exact ⟨hfits.removals, hfits.uploads, hid, hfits.kept⟩
  · intro f hf
    change w.dialog.finished = some f at hf
    rw [h.coherent.unfinished hsaving] at hf
    cases hf

theorem removed_tracked (h : w.Tracked) (hsaving : w.dialog.saving = some s) {id fileId : Nat}
    (hphase : s.phase = .files id) (hremovals : s.removals = fileId :: s.removals.tail)
    (db' : Db) :
    World.Tracked { w.keeps db' (.remove id fileId) with
      dialog := w.dialog.landed s w.db.nextId (.remove id fileId) } := by
  have hfits := h.coherent.fits s hsaving
  have hid : w.dialog.savedId = some id := by
    have := hfits.phase
    rwa [hphase] at this
  have hmarked := h.coherent.marked
  have hrest : w.dialog.removedFileIds.filter (· != fileId) = s.removals.tail := by
    rw [← hfits.removals, hremovals] at hmarked ⊢
    rw [List.tail_cons, List.filter_cons_of_neg (by simp)]
    refine List.filter_eq_self.mpr fun k hk => ?_
    have hne : k ≠ fileId := fun heq => (List.nodup_cons.mp hmarked).1 (heq ▸ hk)
    simpa using hne
  refine h.of_same rfl rfl rfl rfl rfl rfl rfl rfl ?_ ?_ ?_
  · exact hmarked.sublist List.filter_sublist
  · rintro s' ⟨⟩
    refine ⟨hrest.symm, hfits.uploads, ?_, fun f hf hin => hfits.kept f hf ?_⟩
    · dsimp only
      rw [hphase]
      exact hid
    · exact List.mem_of_mem_tail hin
  · intro f hf
    change w.dialog.finished = some f at hf
    rw [h.coherent.unfinished hsaving] at hf
    cases hf

theorem uploaded_tracked (h : w.Tracked) (hsaving : w.dialog.saving = some s) {id : Nat}
    {picked : Picked} (hphase : s.phase = .files id)
    (huploads : s.uploads = picked :: s.uploads.tail) (db' : Db) :
    World.Tracked { w.keeps db' (.upload id picked) with
      dialog := w.dialog.landed s w.db.nextId (.upload id picked) } := by
  have hfits := h.coherent.fits s hsaving
  have hid : w.dialog.savedId = some id := by
    have := hfits.phase
    rwa [hphase] at this
  have hauto : s.form.routing = .autoReply := by
    by_contra hother
    have hnone := hfits.uploads
    rw [if_neg hother, huploads] at hnone
    cases hnone
  have hall : w.dialog.pendingFiles = picked :: s.uploads.tail := by
    have hpending := hfits.uploads
    rw [if_pos hauto, huploads] at hpending
    exact hpending.symm
  have honly := h.coherent.pending
  have hrest : w.dialog.pendingFiles.filter (·.key != picked.key) = s.uploads.tail := by
    rw [hall] at honly ⊢
    rw [List.filter_cons_of_neg (by simp)]
    refine List.filter_eq_self.mpr fun p hp => ?_
    have hne : p.key ≠ picked.key := fun heq =>
      (List.nodup_cons.mp honly).1 (List.mem_map.mpr ⟨p, hp, heq⟩)
    simpa using hne
  generalize hw' : World.mk _ _ _ _ _ _ _ _ = w'
  have hkeys : w'.keys = w.keys := by
    subst hw'
    unfold World.keys World.keeps Dialog.landed
    dsimp only
    rw [hrest, hall]
    simp
  have hnext : w'.nextKey = w.nextKey := by rw [← hw']; rfl
  refine h.of_perm ?_ [] (by rw [hkeys, List.append_nil])
    (fun hall => by rwa [List.append_nil, hnext]) (by rw [← hw']; rfl) (by rw [← hw']; rfl)
    (by rw [← hw']; rfl)
  constructor
  · rw [hkeys, ← hw']
    exact h.coherent.known
  · rw [← hw']
    exact honly.sublist (List.filter_sublist.map _)
  · rw [← hw']
    exact h.coherent.marked
  · rw [← hw']
    exact h.coherent.editing
  · rw [← hw']
    intro p hp
    rcases List.mem_append.mp hp with hp | hp
    · exact h.coherent.under p hp
    · rw [List.mem_singleton.mp hp]
      exact hid
  · rw [← hw']
    rintro s' ⟨⟩
    refine ⟨hfits.removals, ?_, ?_, hfits.kept⟩
    · dsimp only [Dialog.landed]
      rw [if_pos hauto, hrest]
    · dsimp only
      rw [hphase]
      exact hid
  · rw [← hw']
    intro f hf
    change w.dialog.finished = some f at hf
    rw [h.coherent.unfinished hsaving] at hf
    cases hf

/-- A reply that comes in keeps the dialog in step. -/
theorem heard_tracked (h : w.Tracked) (hsaving : w.dialog.saving = some s) {c : SaveCall}
    (hnext : s.next = some c) (db' : Db) :
    World.Tracked
      { w.keeps db' c with dialog := (w.dialog.landed s w.db.nextId c).settled } := by
  refine settled_tracked (w := w.keeps db' c) ?_
  cases c with
  | create => exact created_tracked h hsaving (next_eq_some hnext) db'
  | update id => exact updated_tracked h hsaving (next_eq_some hnext) db'
  | remove id fileId =>
    obtain ⟨hphase, hremovals⟩ := next_eq_some hnext
    exact removed_tracked h hsaving hphase hremovals db'
  | upload id picked =>
    obtain ⟨hphase, -, huploads⟩ := next_eq_some hnext
    exact uploaded_tracked h hsaving hphase huploads db'

/-- A reply that is lost misleads it, if the call left something new behind. -/
theorem unheard_tracked (h : w.Tracked) (hsaving : w.dialog.saving = some s) {c : SaveCall}
    (hnext : s.next = some c) (db' : Db) :
    World.Tracked
      { w.keeps db' c with dialog := w.dialog.failed s c, lost := w.lost || c.adds } := by
  have hfailed := failed_tracked h s c
  have hfits := h.coherent.fits s hsaving
  cases c with
  | update id =>
    refine hfailed.of_same rfl rfl rfl rfl ?_ rfl rfl rfl hfailed.coherent.marked
      hfailed.coherent.fits hfailed.coherent.finished
    exact Bool.or_false _
  | remove id fileId =>
    refine hfailed.of_same rfl rfl rfl rfl ?_ rfl rfl rfl hfailed.coherent.marked
      hfailed.coherent.fits hfailed.coherent.finished
    exact Bool.or_false _
  | create =>
    refine ⟨?_, fun hlost => ?_, fun _ => ?_⟩
    · exact ⟨hfailed.coherent.known, hfailed.coherent.pending, hfailed.coherent.marked,
        hfailed.coherent.editing, hfailed.coherent.under, hfailed.coherent.fits,
        hfailed.coherent.finished⟩
    · simp [SaveCall.adds] at hlost
    · have hlonger : w.dialog.fresh.length ≤ w.made.length ∨ ¬ w.keys.Nodup := by
        cases hlost : w.lost with
        | false => exact .inl (by rw [(h.told hlost).made])
        | true =>
          rcases h.misled hlost with hmade | honce
          · exact .inl hmade.le
          · exact .inr honce
      rcases hlonger with hmade | honce
      · refine .inl ?_
        change w.dialog.fresh.length < (w.made ++ [w.db.nextId]).length
        rw [List.length_append]
        exact Nat.lt_succ_of_le hmade
      · exact .inr honce
  | upload id picked =>
    obtain ⟨hphase, -, huploads⟩ := next_eq_some hnext
    have hid : w.dialog.savedId = some id := by
      have := hfits.phase
      rwa [hphase] at this
    have hwaiting : picked ∈ w.dialog.pendingFiles := by
      have hmem : picked ∈ s.uploads := huploads ▸ List.mem_cons_self
      rw [hfits.uploads] at hmem
      split at hmem
      · exact hmem
      · cases hmem
    have hkey : picked.key ∈ w.dialog.pendingFiles.map (·.key) := List.mem_map_of_mem hwaiting
    refine ⟨?_, fun hlost => ?_, fun _ => .inr fun hnodup => ?_⟩
    · refine ⟨fun k hk => ?_, hfailed.coherent.pending, hfailed.coherent.marked,
        hfailed.coherent.editing, fun p hp => ?_, hfailed.coherent.fits,
        hfailed.coherent.finished⟩
      · refine h.coherent.known k ?_
        simp only [World.keys, World.keeps, Dialog.failed, List.map_append, List.map_cons,
          List.map_nil, List.mem_append, List.mem_singleton] at hk ⊢
        rcases hk with ((hk | rfl) | hk) | hk
        · exact .inl (.inl hk)
        · exact .inl (.inr hkey)
        · exact .inl (.inr hk)
        · exact .inr hk
      · rcases List.mem_append.mp hp with hp | hp
        · exact h.coherent.under p hp
        · rw [List.mem_singleton.mp hp]
          exact hid
    · simp [SaveCall.adds] at hlost
    · -- The pick is stored, and still waits.
      have hparts := (List.nodup_append.mp hnodup).1
      refine (List.nodup_append.mp hparts).2.2 picked.key ?_ picked.key hkey rfl
      simp [World.keeps]

theorem calls_tracked (cfg : Settings) (userId : Nat) (h : w.Tracked) (heard : Bool) (now : Int) :
    (w.calls cfg userId heard now).Tracked := by
  unfold World.calls
  cases hsaving : w.dialog.saving with
  | none => exact h
  | some s =>
    dsimp only
    cases hnext : s.next with
    | none => exact h
    | some c =>
      dsimp only
      cases (c.edit userId w.dialog.parentId s).apply cfg w.db now with
      | error _ => exact failed_tracked h s c
      | ok db' =>
        cases heard with
        | true => exact heard_tracked h hsaving hnext db'
        | false => exact unheard_tracked h hsaving hnext db'

theorem misses_tracked (h : w.Tracked) : w.misses.Tracked := by
  unfold World.misses
  cases w.dialog.saving with
  | none => exact h
  | some s =>
    dsimp only
    cases s.next with
    | none => exact h
    | some c => exact failed_tracked h s c

/-! ## Every run -/

theorem happen_tracked (cfg : Settings) (userId : Nat) (h : w.Tracked) (l : Happening) :
    (happen cfg userId w l).Tracked := by
  have hsame := h.coherent
  cases l with
  | office e =>
    exact h.of_same rfl rfl rfl rfl rfl rfl rfl rfl hsame.marked hsame.fits hsame.finished
  | refetch =>
    exact h.of_same rfl rfl rfl rfl rfl rfl rfl rfl hsame.marked hsame.fits hsame.finished
  | write form =>
    change World.Tracked (if w.dialog.closed then w else _)
    split
    · exact h
    · refine h.of_same rfl rfl rfl rfl rfl rfl rfl rfl hsame.marked ?_ ?_
      · intro s hs
        have hfits := hsame.fits s hs
        exact ⟨hfits.removals, hfits.uploads, hfits.phase, hfits.kept⟩
      · intro f hf
        have hdone := hsame.finished f hf
        exact ⟨hdone.closed, hdone.idle, hdone.removed, hdone.uploaded⟩
  | pick files => exact picks_tracked h files
  | unpick key => exact unpicks_tracked h key
  | mark fileId => exact marks_tracked h fileId
  | submit assignees => exact submits_tracked h assignees
  | served now => exact calls_tracked cfg userId h true now
  | unsent => exact misses_tracked h
  | unanswered now => exact calls_tracked cfg userId h false now
  | cancel =>
    refine h.of_same rfl rfl rfl rfl rfl rfl rfl rfl hsame.marked ?_ ?_
    · intro s hs
      have hfits := hsame.fits s hs
      exact ⟨hfits.removals, hfits.uploads, hfits.phase, hfits.kept⟩
    · intro f hf
      have hdone := hsame.finished f hf
      exact ⟨rfl, hdone.idle, hdone.removed, hdone.uploaded⟩

/-- The dialog has just opened. -/
def World.open (db : Db) (parentId : Nat) (edit : Option RequestCategory) : World where
  db
  dialog := .open parentId edit

theorem open_tracked (db : Db) (parentId : Nat) (edit : Option RequestCategory) :
    (World.open db parentId edit).Tracked := by
  refine ⟨⟨?_, List.nodup_nil, List.nodup_nil, fun _ h => h, ?_, ?_, ?_⟩, fun _ => ⟨?_, .refl _⟩,
    fun h => by cases h⟩
  · intro k hk
    cases hk
  · intro p hp
    cases hp
  · rintro s ⟨⟩
  · rintro f ⟨⟩
  · cases edit with
    | none => rfl
    | some service => rfl

theorem run_tracked (cfg : Settings) (userId : Nat) (db : Db) (parentId : Nat)
    (edit : Option RequestCategory) (ls : List Happening) :
    (Runs.run (happen cfg userId) (World.open db parentId edit) ls).Tracked :=
  Runs.run_invariant (I := World.Tracked) (fun _ l h => happen_tracked cfg userId h l)
    (open_tracked db parentId edit) ls

/-- The message about a file that could not be removed does not name it: the
list it is looked up in no longer has it. -/
theorem removal_unnamed (h : w.Coherent) (hsaving : w.dialog.saving = some s) {id fileId : Nat}
    (hnext : s.next = some (.remove id fileId)) : s.failure (.remove id fileId) = .file "" := by
  obtain ⟨hphase, hremovals⟩ := next_eq_some hnext
  have hmarked : fileId ∈ s.removals := by
    rw [hremovals]
    exact List.mem_cons_self
  have habsent : s.kept.find? (·.id == fileId) = none := List.find?_eq_none.mpr fun f hf hid =>
    (h.fits s hsaving).kept f hf (beq_iff_eq.mp hid ▸ hmarked)
  simp [Saving.failure, hphase, Saving.current, habsent]

/-- The call fails there: it does not reach the server, it is refused, or its
reply is lost. -/
def Fails (cfg : Settings) (userId : Nat) (w : World) (s : Saving) (c : SaveCall) :
    Happening → Prop
  | .unsent => True
  | .unanswered _ => True
  | .served now => ∃ e, (c.edit userId w.dialog.parentId s).apply cfg w.db now = .error e
  | _ => False

/-- However a call fails, the dialog shows the failure of that call. -/
theorem failed_err {c : SaveCall} (hsaving : w.dialog.saving = some s) (hnext : s.next = some c)
    {l : Happening} (hfails : Fails cfg userId w s c l) :
    (happen cfg userId w l).dialog.err = some (s.failure c) := by
  cases l with
  | unsent =>
    simp only [happen, World.misses, hsaving, hnext]
    rfl
  | unanswered now =>
    simp only [happen, World.calls, hsaving, hnext]
    cases (c.edit userId w.dialog.parentId s).apply cfg w.db now with
    | ok db' => rfl
    | error e => rfl
  | served now =>
    obtain ⟨e, hrefused⟩ := hfails
    simp only [happen, World.calls, hsaving, hnext, hrefused]
    rfl
  | office => cases hfails
  | refetch => cases hfails
  | write => cases hfails
  | pick => cases hfails
  | unpick => cases hfails
  | mark => cases hfails
  | submit => cases hfails
  | cancel => cases hfails

/-- Whatever the user does, whatever else happens in the office, and however
the calls fare: the dialog knows the one service it has created, and every pick
is stored, waits or was put away, once, exactly as long as no reply was lost of
a call that created or stored something. What it stored is under the service it
shows; when it closes by itself nothing is left to remove or to upload; and the
message about a failed removal never names the file, however it failed. -/
theorem saves_land_once (cfg : Settings) (userId : Nat) (db : Db) (parentId : Nat)
    (edit : Option RequestCategory) (ls : List Happening) :
    let w := Runs.run (happen cfg userId) (World.open db parentId edit) ls
    (w.InStep ↔ w.lost = false) ∧ (∀ p ∈ w.stored, w.dialog.savedId = some p.2) ∧
      (∀ f, w.dialog.finished = some f → w.dialog.Finished f) ∧
      ∀ s id fileId, w.dialog.saving = some s → s.next = some (.remove id fileId) →
        ∀ l, Fails cfg userId w s (.remove id fileId) l →
          (happen cfg userId w l).dialog.err = some (.file "") := by
  have ht := run_tracked cfg userId db parentId edit ls
  intro w
  refine ⟨⟨fun hstep => ?_, ht.told⟩, ht.coherent.under, ht.coherent.finished,
    fun s id fileId hsaving hnext l hfails => ?_⟩
  · cases hlost : w.lost with
    | false => rfl
    | true =>
      rcases ht.misled hlost with hmade | honce
      · exact absurd (hstep.made ▸ hmade) (lt_irrefl _)
      · exact absurd (hstep.once.nodup_iff.mpr List.nodup_range) honce
  · rw [failed_err hsaving hnext hfails]
    exact congrArg some (removal_unnamed ht.coherent hsaving hnext)

/-! ## A file that is gone -/

variable {db db' : Db} {now : Int} {fileId : Nat}

def FileIds (db : Db) : Prop :=
  ∀ f ∈ db.autoReplyFiles, f.id < db.nextId

/-- The row of a file is gone, and its id is not handed out again. -/
structure FileGone (fileId : Nat) (db : Db) : Prop where
  absent : ∀ f ∈ db.autoReplyFiles, f.id ≠ fileId
  below : fileId < db.nextId

theorem FileIds.commit (h : FileIds db) {step : Api.Step} (happly : step.apply cfg db now = .ok db') :
    FileIds db' := by
  cases step_fileRows happly with
  | kept _ _ services hnext => exact fun f hf => (h f (services.subset hf)).trans_le hnext
  | attached _ services hnext => exact fun f hf => (h f (services ▸ hf)).trans_le hnext
  | copied _ _ services hnext => exact fun f hf => (h f (services ▸ hf)).trans_le hnext
  | added _ services id hnext =>
    intro f hf
    rw [services] at hf
    rw [hnext]
    rcases List.mem_append.mp hf with hf | hf
    · exact (h f hf).trans (Nat.lt_succ_self _)
    · rw [List.mem_singleton.mp hf, id]
      exact Nat.lt_succ_self _

theorem FileGone.commit (h : FileGone fileId db) {step : Api.Step}
    (happly : step.apply cfg db now = .ok db') : FileGone fileId db' := by
  cases step_fileRows happly with
  | kept _ _ services hnext =>
    exact ⟨fun f hf => h.absent f (services.subset hf), h.below.trans_le hnext⟩
  | attached _ services hnext =>
    exact ⟨fun f hf => h.absent f (services ▸ hf), h.below.trans_le hnext⟩
  | copied _ _ services hnext =>
    exact ⟨fun f hf => h.absent f (services ▸ hf), h.below.trans_le hnext⟩
  | added _ services id hnext =>
    refine ⟨fun f hf => ?_, hnext ▸ h.below.trans (Nat.lt_succ_self _)⟩
    rw [services] at hf
    rcases List.mem_append.mp hf with hf | hf
    · exact h.absent f hf
    · -- A new row takes an id the file never had.
      rw [List.mem_singleton.mp hf, id]
      exact h.below.ne'

/-- The call of a save is one commit. -/
theorem calls_db (cfg : Settings) (userId : Nat) (w : World) (heard : Bool) (now : Int) :
    (w.calls cfg userId heard now).db = w.db ∨
      ∃ step : Api.Step, step.apply cfg w.db now = .ok (w.calls cfg userId heard now).db := by
  unfold World.calls
  cases w.dialog.saving with
  | none => exact .inl rfl
  | some s =>
    dsimp only
    cases s.next with
    | none => exact .inl rfl
    | some c =>
      dsimp only
      cases happly : (c.edit userId w.dialog.parentId s).apply cfg w.db now with
      | error _ => exact .inl rfl
      | ok db' =>
        refine .inr ⟨.catalogue (c.edit userId w.dialog.parentId s), happly.trans ?_⟩
        cases heard <;> cases c <;> rfl

/-- What every commit keeps, the dialog's steps keep. -/
theorem happen_keeps {P : Db → Prop}
    (hP : ∀ (db db' : Db) (now : Int) (step : Api.Step), step.apply cfg db now = .ok db' →
      P db → P db')
    (h : P w.db) (l : Happening) : P (happen cfg userId w l).db := by
  have hcall : ∀ heard now, P (w.calls cfg userId heard now).db := fun heard now => by
    rcases calls_db cfg userId w heard now with hsame | ⟨step, happly⟩
    · exact hsame ▸ h
    · exact hP _ _ now step happly h
  cases l with
  | office e =>
    change P (step cfg w.db e)
    cases happly : e.step.apply cfg w.db e.now with
    | error _ =>
      rw [step_failed happly]
      exact h
    | ok db' =>
      rw [step_committed happly]
      exact hP _ _ _ _ happly h
  | refetch => exact h
  | write form =>
    change P (if w.dialog.closed then w else _).db
    split <;> exact h
  | pick files =>
    change P (w.picks files).db
    unfold World.picks
    dsimp only
    split <;> exact h
  | unpick key =>
    change P (w.unpicks key).db
    unfold World.unpicks
    split <;> exact h
  | mark id =>
    change P (w.marks id).db
    unfold World.marks
    split <;> exact h
  | submit assignees =>
    change P (w.submits assignees).db
    unfold World.submits
    dsimp only
    split <;> exact h
  | served now => exact hcall true now
  | unsent =>
    change P w.misses.db
    unfold World.misses
    split
    · exact h
    · split <;> exact h
  | unanswered now => exact hcall false now
  | cancel => exact h

theorem run_fileIds (h : FileIds w.db) (ls : List Happening) :
    FileIds (Runs.run (happen cfg userId) w ls).db :=
  Runs.run_invariant (I := fun w : World => FileIds w.db)
    (fun _ l h => happen_keeps (fun _ _ _ _ happly h => h.commit happly) h l) h ls

theorem run_fileGone (h : FileGone fileId w.db) (ls : List Happening) :
    FileGone fileId (Runs.run (happen cfg userId) w ls).db :=
  Runs.run_invariant (I := fun w : World => FileGone fileId w.db)
    (fun _ l h => happen_keeps (fun _ _ _ _ happly h => h.commit happly) h l) h ls

/-- The server refuses to remove a file that is gone. -/
theorem remove_gone (h : FileGone fileId db) (id : Nat) :
    (CatalogueEdit.removeFile id fileId).apply cfg db now ≠ .ok db' := by
  intro happly
  obtain ⟨cat, -, hremove⟩ := bind_eq_ok.mp happly
  unfold removeAutoReplyFile at hremove
  split at hremove
  · cases hremove
  · rename_i record hfound
    have hid := List.find?_some hfound
    simp only [Bool.and_eq_true, beq_iff_eq] at hid
    exact h.absent record (List.mem_of_find?_eq_some hfound) hid.1

theorem calls_marked (h : FileGone fileId w.db) (hmarked : fileId ∈ w.dialog.removedFileIds)
    (heard : Bool) (now : Int) :
    fileId ∈ (w.calls cfg userId heard now).dialog.removedFileIds := by
  unfold World.calls
  cases w.dialog.saving with
  | none => exact hmarked
  | some s =>
    dsimp only
    cases s.next with
    | none => exact hmarked
    | some c =>
      dsimp only
      cases happly : (c.edit userId w.dialog.parentId s).apply cfg w.db now with
      | error _ => exact hmarked
      | ok db' =>
        cases heard with
        | false => exact hmarked
        | true =>
          have hlanded : fileId ∈ (w.dialog.landed s w.db.nextId c).removedFileIds := by
            cases c with
            | create => exact hmarked
            | update id => exact hmarked
            | upload id picked => exact hmarked
            | remove id removed =>
              refine List.mem_filter.mpr ⟨hmarked, bne_iff_ne.mpr ?_⟩
              rintro rfl
              exact remove_gone h id happly
          change fileId ∈ (w.dialog.landed s w.db.nextId c).settled.removedFileIds
          unfold Dialog.settled
          split
          · split <;> exact hlanded
          · exact hlanded

/-- A marked file that is gone stays marked. -/
theorem happen_marked (h : FileGone fileId w.db) (hmarked : fileId ∈ w.dialog.removedFileIds)
    (l : Happening) : fileId ∈ (happen cfg userId w l).dialog.removedFileIds := by
  cases l with
  | office e => exact hmarked
  | refetch => exact hmarked
  | write form =>
    change fileId ∈ (if w.dialog.closed then w else _).dialog.removedFileIds
    split <;> exact hmarked
  | pick files =>
    change fileId ∈ (w.picks files).dialog.removedFileIds
    unfold World.picks
    dsimp only
    split <;> exact hmarked
  | unpick key =>
    change fileId ∈ (w.unpicks key).dialog.removedFileIds
    unfold World.unpicks
    split <;> exact hmarked
  | mark id =>
    change fileId ∈ (w.marks id).dialog.removedFileIds
    unfold World.marks
    split
    · exact List.mem_append_left _ hmarked
    · exact hmarked
  | submit assignees =>
    change fileId ∈ (w.submits assignees).dialog.removedFileIds
    unfold World.submits
    dsimp only
    split <;> exact hmarked
  | served now => exact calls_marked h hmarked true now
  | unsent =>
    change fileId ∈ w.misses.dialog.removedFileIds
    unfold World.misses
    split
    · exact hmarked
    · split <;> exact hmarked
  | unanswered now => exact calls_marked h hmarked false now
  | cancel => exact hmarked

theorem run_marked (h : FileGone fileId w.db) (hmarked : fileId ∈ w.dialog.removedFileIds)
    (ls : List Happening) :
    fileId ∈ (Runs.run (happen cfg userId) w ls).dialog.removedFileIds := by
  induction ls using List.reverseRecOn with
  | nil => exact hmarked
  | append_singleton ls l ih =>
    rw [Runs.run_concat]
    exact happen_marked (run_fileGone h ls) ih l

/-- A removal that lands takes the row away. -/
theorem remove_leaves_gone (hids : FileIds db) {id : Nat}
    (happly : (CatalogueEdit.removeFile id fileId).apply cfg db now = .ok db') :
    FileGone fileId db' := by
  obtain ⟨cat, -, hremove⟩ := bind_eq_ok.mp happly
  unfold removeAutoReplyFile at hremove
  split at hremove
  · cases hremove
  · rename_i record hfound
    cases hremove
    have hid := List.find?_some hfound
    simp only [Bool.and_eq_true, beq_iff_eq] at hid
    refine ⟨fun f hf => ?_, hid.1 ▸ hids record (List.mem_of_find?_eq_some hfound)⟩
    have hne := (List.mem_filter.mp hf).2
    rw [hid.1] at hne
    exact bne_iff_ne.mp hne

/-- The reply of a removal that landed is lost. From then on the file stays
marked, though its row is gone: whatever the user does, and whatever happens,
no save of this dialog gets through any more. -/
theorem lost_removal_blocks (hids : FileIds db) (parentId : Nat) (edit : Option RequestCategory)
    (ls : List Happening)
    (hw : w = Runs.run (happen cfg userId) (World.open db parentId edit) ls) {id : Nat}
    (hsaving : w.dialog.saving = some s) (hnext : s.next = some (.remove id fileId))
    (happly : (CatalogueEdit.removeFile id fileId).apply cfg w.db now = .ok db')
    (ls' : List Happening) :
    let w' := Runs.run (happen cfg userId) (happen cfg userId w (.unanswered now)) ls'
    w'.dialog.finished = none ∧ fileId ∈ w'.dialog.removedFileIds ∧
      ∀ f ∈ w'.db.autoReplyFiles, f.id ≠ fileId := by
  intro w'
  have ht : w.Tracked := hw ▸ run_tracked cfg userId db parentId edit ls
  have hfileIds : FileIds w.db := hw ▸ run_fileIds (w := World.open db parentId edit) hids ls
  have hunheard : happen cfg userId w (.unanswered now) =
      { w with db := db', dialog := w.dialog.failed s (.remove id fileId),
               lost := w.lost || false } := by
    change w.calls cfg userId false now = _
    unfold World.calls
    rw [hsaving]
    dsimp only
    rw [hnext]
    dsimp only [SaveCall.edit]
    rw [happly]
    rfl
  have hgone : FileGone fileId (happen cfg userId w (.unanswered now)).db := by
    rw [hunheard]
    exact remove_leaves_gone hfileIds happly
  have hmarked : fileId ∈ (happen cfg userId w (.unanswered now)).dialog.removedFileIds := by
    rw [hunheard]
    change fileId ∈ w.dialog.removedFileIds
    rw [← (ht.coherent.fits s hsaving).removals, (next_eq_some hnext).2]
    exact List.mem_cons_self
  have hstill : fileId ∈ w'.dialog.removedFileIds := run_marked hgone hmarked ls'
  have hcoherent : w'.Coherent :=
    (Runs.run_invariant (I := World.Tracked) (fun _ l h => happen_tracked cfg userId h l)
      (happen_tracked cfg userId ht _) ls').coherent
  refine ⟨?_, hstill, (run_fileGone hgone ls').absent⟩
  cases hf : w'.dialog.finished with
  | none => rfl
  | some f =>
    rw [(hcoherent.finished f hf).removed] at hstill
    cases hstill

/-- A service that answers by itself, with one file. -/
def stipend : RequestCategory where
  id := 4
  parentId := some 3
  name := "Stipendiya"
  routing := .autoReply
  autoReplyText := some "Javob ilovada"

def stipendDesk : Db where
  nextId := 11
  categories := [{ id := 3, parentId := none, name := "Ma'lumotnomalar" }, stipend]
  autoReplyFiles :=
    [{ id := 10, categoryId := 4, uploadedBy := 2, filePath := "auto_reply/4/00_ariza.pdf",
       fileName := "ariza.pdf", fileSize := 6, mimeType := "application/pdf", createdAt := 0 }]

/-- The file is marked, and the save has updated the service. -/
def stipendMarked : World :=
  Runs.run (happen {} 2) (World.open stipendDesk 3 (some stipend))
    [.refetch, .mark 10, .submit (some []), .served 1]

/-- The save as it is then. -/
def stipendSaving : Saving where
  form := Form.open (some stipend)
  assignees := some []
  kept := []
  phase := .files 4
  removals := [10]
  uploads := []

/-- Saving again updates the service again, and gets no further. -/
theorem lost_removal_blocks_stipend :
    let w := Runs.run (happen {} 2) (happen {} 2 stipendMarked (.unanswered 2))
      [.submit (some []), .served 3, .served 4]
    w.dialog.finished = none ∧ 10 ∈ w.dialog.removedFileIds ∧
      ∀ f ∈ w.db.autoReplyFiles, f.id ≠ 10 := by
  have hids : FileIds stipendDesk := List.forall_mem_singleton.mpr (by decide)
  have hsaving : stipendMarked.dialog.saving = some stipendSaving := by decide +kernel
  have hremoved : (CatalogueEdit.removeFile 4 10).apply {} stipendMarked.db 2 =
      .ok { stipendMarked.db with autoReplyFiles := [] } := by decide +kernel
  exact lost_removal_blocks hids 3 (some stipend)
    [.refetch, .mark 10, .submit (some []), .served 1] rfl hsaving rfl hremoved
    [.submit (some []), .served 3, .served 4]

end Royd.Screens.ServiceDialog
