/-
Royd.Lifecycle.StoredFiles — every file that is listed can be served.

A `Site` is the database with the disk its paths lead to, and with a note of
what was uploaded for each row of a file. The note is no part of the system: it
is written from the uploads themselves, and never read by a step. An automatic
answer copies a service's rows, not its bytes, so the note of a copy is that of
the row it was made from.

`Served` says that the two agree: what a row's path leads to is what was
uploaded for the row. `step_served` keeps it because `_store` only ever writes
where nothing was (`Writes.extends`) and because what `_store` keeps of a path is
read back to the place it was written to (`Stored.resolves`).
-/
import Royd.Api.Views
import Royd.Lib.Ledgers
import Royd.Lib.Runs
import Royd.Lifecycle.FileRows

namespace Royd

open Api Ledgers Paths

/-! ## Reading back -/

/-- What `stored_file_response` sends for a path. -/
def Storage.served (st : Storage) (d : Volume) (stored : String) : Option (List UInt8) :=
  match st.resolveStoredPath stored with
  | .ok path => d.files path
  | .error _ => none

variable {cfg : Settings} {st : Storage} {maxUploadMb : Nat} {d d₁ d' : Volume} {w : Written}
  {ws : List Written}

theorem served_extends (st : Storage) (h : Extends d.files d'.files) :
    Extends (st.served d) (st.served d') := by
  intro stored content hserved
  unfold Storage.served at hserved ⊢
  split at hserved
  · exact h _ _ hserved
  · cases hserved

theorem Stored.extends (h : Stored maxUploadMb st d w d₁) : Extends d.files d₁.files := by
  rw [h.written]
  exact extends_update h.new _

theorem Stored.served (h : Stored maxUploadMb st d w d₁) :
    st.served d₁ w.fileMeta.filePath = some w.upload.content := by
  unfold Storage.served
  rw [h.resolves]
  dsimp only
  rw [h.written, Function.update_self]

/-- Uploads overwrite nothing. -/
theorem Writes.extends (h : Writes maxUploadMb st d ws d') : Extends d.files d'.files := by
  induction ws generalizing d with
  | nil =>
    rw [show d' = d from h]
    exact Extends.refl _
  | cons w ws ih =>
    obtain ⟨d₁, hstored, hrest⟩ := h
    exact hstored.extends.trans (ih hrest)

/-- Each is served from the path that is kept of it. -/
theorem Writes.served (h : Writes maxUploadMb st d ws d') :
    ws.map (fun w => st.served d' w.fileMeta.filePath) =
      (ws.map (·.upload.content)).map some := by
  induction ws generalizing d with
  | nil => rfl
  | cons w ws ih =>
    obtain ⟨d₁, hstored, hrest⟩ := h
    have hkept := served_extends st hrest.extends _ _ hstored.served
    rw [List.map_cons, List.map_cons, List.map_cons, hkept, ih hrest]

/-- What was kept of them is what `_store` made of what was sent. -/
theorem Writes.kept (h : Writes maxUploadMb st d ws d') :
    (ws.map Written.sent).map (storedAs maxUploadMb) = ws.map fun w => .ok w.fileMeta := by
  induction ws generalizing d with
  | nil => rfl
  | cons w ws ih =>
    obtain ⟨d₁, hstored, hrest⟩ := h
    have haccepted : storedAs maxUploadMb w.sent = .ok w.fileMeta := hstored.accepted
    rw [List.map_cons, List.map_cons, List.map_cons, haccepted, ih hrest]

/-! ## The site -/

/-- What was uploaded for a row, by the row's id, in both tables. -/
structure Uploaded where
  requestFiles : Nat → Option (List UInt8)
  serviceFiles : Nat → Option (List UInt8)

/-- The database, the disk, and the note of what was uploaded. -/
structure Site where
  db : Db
  disk : Volume
  uploaded : Uploaded

/-- The rows a table has beyond those it had. -/
def newRows {ρ : Type} (rows rows' : List ρ) : List ρ := rows'.drop rows.length

theorem newRows_kept {ρ : Type} {rows rows' : List ρ} (h : rows'.Sublist rows) :
    newRows rows rows' = [] :=
  List.drop_eq_nil_of_le h.length_le

theorem newRows_added {ρ : Type} {rows rows' new : List ρ} (h : rows' = rows ++ new) :
    newRows rows rows' = new := by
  rw [newRows, h, List.drop_left]

/-- What was uploaded for the rows a step adds: what it carries, or what was
uploaded for the service it files for. -/
def Api.Step.bytes (step : Step) (db : Db) (uploaded : Uploaded) : List (List UInt8) :=
  match step.service? with
  | some categoryId => (serviceRows db categoryId).map fun f => (uploaded.serviceFiles f.id).getD []
  | none => step.uploads.map (·.2.content)

/-- The note after a commit. -/
def Uploaded.after (uploaded : Uploaded) (db db' : Db) (step : Step) : Uploaded where
  requestFiles := note uploaded.requestFiles
    ((newRows db.files db'.files).map (·.id)) (step.bytes db uploaded)
  serviceFiles := note uploaded.serviceFiles
    ((newRows db.autoReplyFiles db'.autoReplyFiles).map (·.id)) (step.bytes db uploaded)

/-- The site after an event. A handler that raises commits nothing, but what it
wrote stays on the disk. -/
def siteStep (cfg : Settings) (st : Storage) (s : Site) (e : Event) : Site :=
  match (e.step.storing cfg st s.db e.now).on s.disk with
  | (.ok db', disk) => ⟨db', disk, s.uploaded.after s.db db' e.step⟩
  | (.error _, disk) => { s with disk }

/-- The tokens an event draws are new. -/
def DrawsNew (s : Site) (e : Event) : Prop := s.disk.Draws (e.step.uploads.map (·.2))

/-- Every listed file is served with the bytes that were uploaded for it. -/
structure Served (st : Storage) (s : Site) : Prop where
  requestFiles : ∀ f ∈ s.db.files, ∃ content,
    s.uploaded.requestFiles f.id = some content ∧ st.served s.disk f.filePath = some content
  serviceFiles : ∀ f ∈ s.db.autoReplyFiles, ∃ content,
    s.uploaded.serviceFiles f.id = some content ∧ st.served s.disk f.filePath = some content

/-! ## One event -/

/-- What an event stores. Its uploads are written one after the other, each to
one new file in its own folder; if the event commits, all of them are, and the
rows it adds are theirs, or copies of the rows of the service it files for. No
file is overwritten, no row of a request is lost, and none changes its bytes. -/
structure Stores (cfg : Settings) (st : Storage) (s : Site) (e : Event) (s' : Site) : Prop where
  written : ∃ ws, Writes cfg.maxUploadMb st s.disk ws s'.disk ∧
    ws.map Written.sent <+: e.step.uploads ∧
    ∀ db', e.step.apply cfg s.db e.now = .ok db' → ws.map Written.sent = e.step.uploads ∧
      (e.step.service? = none → (newRows s.db.files s'.db.files).map (·.fileMeta) ++
        (newRows s.db.autoReplyFiles s'.db.autoReplyFiles).map (·.fileMeta) =
          ws.map (·.fileMeta)) ∧
      ∀ categoryId, e.step.service? = some categoryId → ∀ f ∈ newRows s.db.files s'.db.files,
        f.fileMeta ∈ (serviceRows s.db categoryId).map (·.fileMeta)
  kept : Extends s.disk.files s'.disk.files
  listed : s.db.files <+: s'.db.files
  noted : ∀ f ∈ s.db.files, s'.uploaded.requestFiles f.id = s.uploaded.requestFiles f.id

/-- What every state of a run satisfies. -/
structure SiteOk (st : Storage) (s : Site) : Prop where
  served : Served st s
  requestIds : ∀ f ∈ s.db.files, f.id < s.db.nextId
  serviceIds : ∀ f ∈ s.db.autoReplyFiles, f.id < s.db.nextId

variable {s : Site} {e : Event} {db db' : Db} {step : Step}

/-- An event writes its uploads, and then commits or does not. -/
theorem siteStep_cases (cfg : Settings) (st : Storage) (hdraws : DrawsNew s e) :
    ∃ ws, Writes cfg.maxUploadMb st s.disk ws (siteStep cfg st s e).disk ∧
      ws.map Written.sent <+: e.step.uploads ∧
      ((∃ exc, e.step.apply cfg s.db e.now = .error exc) ∧
          (siteStep cfg st s e).db = s.db ∧ (siteStep cfg st s e).uploaded = s.uploaded ∨
        ∃ db', e.step.apply cfg s.db e.now = .ok db' ∧ ws.map Written.sent = e.step.uploads ∧
          (siteStep cfg st s e).db = db' ∧
            (siteStep cfg st s e).uploaded = s.uploaded.after s.db db' e.step) := by
  obtain ⟨houtcome, ws, hwrites, hfirst, hall⟩ := step_yields cfg st s.db e.now e.step hdraws
  unfold siteStep
  generalize (e.step.storing cfg st s.db e.now).on s.disk = left at houtcome hwrites ⊢
  rcases left with ⟨exc | db', disk⟩
  · exact ⟨ws, hwrites, hfirst, .inl ⟨⟨exc, houtcome.symm⟩, rfl, rfl⟩⟩
  · exact ⟨ws, hwrites, hfirst, .inr ⟨db', houtcome.symm, hall db' houtcome.symm, rfl, rfl⟩⟩

/-- The database does not notice the disk. -/
theorem siteStep_db (hdraws : DrawsNew s e) :
    (siteStep cfg st s e).db = Api.step cfg s.db e := by
  obtain ⟨ws, -, -, ⟨⟨exc, hfailed⟩, hdb, -⟩ | ⟨db', happly, -, hdb, -⟩⟩ :=
    siteStep_cases cfg st hdraws
  · rw [hdb, step_failed hfailed]
  · rw [hdb, step_committed happly]

/-- The rows of uploads keep what was made of the uploads. -/
theorem metas_eq {ρ : Type} {rows : List ρ} {fileMeta : ρ → FileMeta}
    (hwrites : Writes cfg.maxUploadMb st d ws d') (hsent : ws.map Written.sent = step.uploads)
    (h : rows.map (fun f => Except.ok (fileMeta f)) = step.uploads.map (storedAs cfg.maxUploadMb)) :
    rows.map fileMeta = ws.map (·.fileMeta) := by
  have hkept := hwrites.kept
  rw [hsent, ← h] at hkept
  have hok : Function.Injective (Except.ok : FileMeta → Except Exc FileMeta) :=
    fun a b hab => by cases hab; rfl
  apply List.map_injective_iff.mpr hok
  rw [List.map_map, List.map_map]
  exact hkept

/-- And are served with what was uploaded. -/
theorem metas_served {ρ : Type} {rows : List ρ} {fileMeta : ρ → FileMeta}
    (hwrites : Writes cfg.maxUploadMb st d ws d') (hsent : ws.map Written.sent = step.uploads)
    (h : rows.map fileMeta = ws.map (·.fileMeta)) :
    rows.map (fun f => st.served d' (fileMeta f).filePath) =
      (step.uploads.map (·.2.content)).map some := by
  have hserved := hwrites.served
  calc rows.map (fun f => st.served d' (fileMeta f).filePath)
      = (rows.map fileMeta).map fun m => st.served d' m.filePath := by
        rw [List.map_map]
        rfl
    _ = ws.map fun w => st.served d' w.fileMeta.filePath := by
        rw [h, List.map_map]
        rfl
    _ = (ws.map (·.upload.content)).map some := hserved
    _ = (step.uploads.map (·.2.content)).map some := by
        have hbytes : (ws.map Written.sent).map (·.2.content) = ws.map (·.upload.content) := by
          rw [List.map_map]
          rfl
        rw [← hsent, hbytes]

/-! ## Every event keeps it so -/

section Tables

variable {ρ : Type} {key : ρ → Nat} {place : ρ → String} {rows rows' new : List ρ}
  {noted : Nat → Option (List UInt8)} {bytes : List (List UInt8)}

/-- A table no row was added to. -/
theorem accounted_kept (h : Ledgers.Accounted key place rows noted (st.served d))
    (hids : ∀ r ∈ rows, key r < db.nextId) (hnext : db.nextId ≤ db'.nextId)
    (hrows : rows'.Sublist rows) (bytes : List (List UInt8)) :
    Ledgers.Accounted key place rows' (note noted ((newRows rows rows').map key) bytes) (st.served d) ∧
      ∀ r ∈ rows', key r < db'.nextId := by
  rw [newRows_kept hrows, List.map_nil, note_nil]
  refine ⟨h.subset hrows.subset, ?_⟩
  intro r hr
  exact (hids r (hrows.subset hr)).trans_le hnext

/-- A table that new rows were added to, with their bytes at their places. -/
theorem accounted_added (h : Ledgers.Accounted key place rows noted (st.served d))
    (hids : ∀ r ∈ rows, key r < db.nextId) (hnext : db.nextId ≤ db'.nextId)
    (hrows : rows' = rows ++ new) (hnew : NewIds db db' (new.map key))
    (hbytes : new.map (fun r => st.served d (place r)) = bytes.map some) :
    Ledgers.Accounted key place rows' (note noted ((newRows rows rows').map key) bytes) (st.served d) ∧
      ∀ r ∈ rows', key r < db'.nextId := by
  rw [newRows_added hrows, hrows]
  constructor
  · apply h.append hnew.nodup _ hbytes
    intro r hr hmem
    exact absurd (hnew.given (key r) hmem).1 (not_le.mpr (hids r hr))
  · intro r hr
    rcases List.mem_append.mp hr with hr | hr
    · exact (hids r hr).trans_le hnext
    · exact (hnew.given (key r) (List.mem_map_of_mem hr)).2

end Tables

/-- A service's files, read back, are what was uploaded for them. -/
theorem Served.service (h : Served st s) (hkept : Extends s.disk.files d'.files) (categoryId : Nat) :
    (serviceRows s.db categoryId).map (fun f => st.served d' f.filePath) =
      ((serviceRows s.db categoryId).map fun f =>
        (s.uploaded.serviceFiles f.id).getD []).map some := by
  rw [List.map_map]
  apply List.map_congr_left
  intro f hf
  obtain ⟨content, hcontent, hserved⟩ := h.serviceFiles f (List.mem_of_mem_filter hf)
  rw [served_extends st hkept _ _ hserved, Function.comp, hcontent]
  rfl

/-- What is listed after a commit is served. -/
theorem FileRows.served (h : FileRows cfg s.db step db') (hok : SiteOk st s)
    (hwrites : Writes cfg.maxUploadMb st s.disk ws d') (hsent : ws.map Written.sent = step.uploads) :
    SiteOk st ⟨db', d', s.uploaded.after s.db db' step⟩ := by
  have hkept := served_extends st hwrites.extends
  have hrequests : Ledgers.Accounted (·.id) (·.filePath) s.db.files s.uploaded.requestFiles
      (st.served d') := Ledgers.Accounted.extends hok.served.requestFiles hkept
  have hservices : Ledgers.Accounted (·.id) (·.filePath) s.db.autoReplyFiles s.uploaded.serviceFiles
      (st.served d') := Ledgers.Accounted.extends hok.served.serviceFiles hkept
  cases h with
  | kept silent files services nextId =>
    have hsame : db'.files.Sublist s.db.files := files ▸ List.Sublist.refl _
    have hf := accounted_kept hrequests hok.requestIds nextId hsame (step.bytes s.db s.uploaded)
    have hg := accounted_kept hservices hok.serviceIds nextId services (step.bytes s.db s.uploaded)
    exact ⟨⟨hf.1, hg.1⟩, hf.2, hg.2⟩
  | @attached c db' fs files services nextId ids rows =>
    have hsame : db'.autoReplyFiles.Sublist s.db.autoReplyFiles := services ▸ List.Sublist.refl _
    have hmetas := metas_eq hwrites hsent rows
    have hbytes := metas_served hwrites hsent hmetas
    have hf := accounted_added hrequests hok.requestIds nextId files ids hbytes
    have hg := accounted_kept hservices hok.serviceIds nextId hsame
      ((Step.call c).bytes s.db s.uploaded)
    exact ⟨⟨hf.1, hg.1⟩, hf.2, hg.2⟩
  | @copied step db' fs categoryId service files services nextId ids rows =>
    have hsame : db'.autoReplyFiles.Sublist s.db.autoReplyFiles := services ▸ List.Sublist.refl _
    have hbytes : fs.map (fun f => st.served d' f.filePath) =
        (step.bytes s.db s.uploaded).map some := by
      rw [Step.bytes, service]
      dsimp only
      rw [← hok.served.service hwrites.extends categoryId]
      have hpaths := congrArg (List.map fun m => st.served d' m.filePath) rows
      rw [List.map_map, List.map_map] at hpaths
      exact hpaths
    have hf := accounted_added hrequests hok.requestIds nextId files ids hbytes
    have hg := accounted_kept hservices hok.serviceIds nextId hsame (step.bytes s.db s.uploaded)
    exact ⟨⟨hf.1, hg.1⟩, hf.2, hg.2⟩
  | @added categoryId userId upload db' f files services id nextId row =>
    have hsame : db'.files.Sublist s.db.files := files ▸ List.Sublist.refl _
    have hnext : s.db.nextId ≤ db'.nextId := by omega
    have hrow : [f].map (fun f => Except.ok f.fileMeta) =
        (Step.catalogue (.addFile categoryId upload userId)).uploads.map
          (storedAs cfg.maxUploadMb) := by
      change [Except.ok f.fileMeta] = [storedAs cfg.maxUploadMb (.service categoryId, upload)]
      rw [row]
    have hmetas := metas_eq hwrites hsent hrow
    have hbytes := metas_served hwrites hsent hmetas
    have hids : NewIds s.db db' ([f].map (·.id)) := by
      refine ⟨List.nodup_singleton _, ?_⟩
      intro i hi
      rw [List.map_singleton, List.mem_singleton] at hi
      omega
    have hf := accounted_kept hrequests hok.requestIds hnext hsame
      ((Step.catalogue (.addFile categoryId upload userId)).bytes s.db s.uploaded)
    have hg := accounted_added hservices hok.serviceIds hnext services hids hbytes
    exact ⟨⟨hf.1, hg.1⟩, hf.2, hg.2⟩

/-- An event keeps what is listed served. -/
theorem siteStep_ok (hok : SiteOk st s) (hdraws : DrawsNew s e) : SiteOk st (siteStep cfg st s e) := by
  obtain ⟨ws, hwrites, -, ⟨-, hdb, huploaded⟩ | ⟨db', happly, hsent, hdb, huploaded⟩⟩ :=
    siteStep_cases cfg st hdraws
  · generalize siteStep cfg st s e = s' at *
    obtain ⟨db, disk, uploaded⟩ := s'
    cases hdb
    cases huploaded
    have hkept := served_extends st hwrites.extends
    exact ⟨⟨Ledgers.Accounted.extends hok.served.requestFiles hkept,
      Ledgers.Accounted.extends hok.served.serviceFiles hkept⟩, hok.requestIds, hok.serviceIds⟩
  · have hrows := step_fileRows happly
    generalize siteStep cfg st s e = s' at *
    obtain ⟨db, disk, uploaded⟩ := s'
    dsimp only at hdb huploaded hwrites
    rw [hdb, huploaded]
    exact hrows.served hok hwrites hsent

theorem siteOk_empty (hfiles : s.db.files = []) (hservices : s.db.autoReplyFiles = []) :
    SiteOk st s := by
  refine ⟨⟨?_, ?_⟩, ?_, ?_⟩
  all_goals
    intro f hf
    simp [hfiles, hservices] at hf

/-- Rows of requests are only ever added, with new ids. -/
theorem FileRows.listed (h : FileRows cfg db step db') :
    ∃ fs, db'.files = db.files ++ fs ∧ NewIds db db' (fs.map (·.id)) := by
  have hnone : NewIds db db' [] := ⟨List.nodup_nil, by simp⟩
  cases h with
  | kept silent files services nextId => exact ⟨[], by rw [files, List.append_nil], hnone⟩
  | attached files services nextId ids rows => exact ⟨_, files, ids⟩
  | copied service files services nextId ids rows => exact ⟨_, files, ids⟩
  | added files services id nextId row => exact ⟨[], by rw [files, List.append_nil], hnone⟩

/-- The rows an event adds are those of its uploads, or copies. -/
theorem FileRows.rows (h : FileRows cfg db step db')
    (hwrites : Writes cfg.maxUploadMb st d ws d') (hsent : ws.map Written.sent = step.uploads) :
    (step.service? = none → (newRows db.files db'.files).map (·.fileMeta) ++
        (newRows db.autoReplyFiles db'.autoReplyFiles).map (·.fileMeta) = ws.map (·.fileMeta)) ∧
      ∀ categoryId, step.service? = some categoryId → ∀ f ∈ newRows db.files db'.files,
        f.fileMeta ∈ (serviceRows db categoryId).map (·.fileMeta) := by
  cases h with
  | kept silent files services nextId =>
    have hws : ws = [] := by simpa [silent] using hsent
    rw [newRows_kept (files ▸ List.Sublist.refl _), newRows_kept services, hws]
    simp
  | attached files services nextId ids rows =>
    rw [newRows_added files, newRows_kept (services ▸ List.Sublist.refl _)]
    have hmetas := metas_eq hwrites hsent rows
    refine ⟨fun _ => by simpa using hmetas, ?_⟩
    intro categoryId hservice
    cases hservice
  | @copied _ _ fs categoryId service files services nextId ids rows =>
    rw [newRows_added files]
    refine ⟨fun hnone => ?_, ?_⟩
    · rw [service] at hnone
      cases hnone
    · intro id hid f hf
      rw [service] at hid
      cases hid
      rw [← rows]
      exact List.mem_map_of_mem hf
  | @added categoryId userId upload _ f files services id nextId row =>
    rw [newRows_added services, newRows_kept (files ▸ List.Sublist.refl _)]
    have hrow : [f].map (fun f => Except.ok f.fileMeta) =
        (Step.catalogue (.addFile categoryId upload userId)).uploads.map
          (storedAs cfg.maxUploadMb) := by
      change [Except.ok f.fileMeta] = [storedAs cfg.maxUploadMb (.service categoryId, upload)]
      rw [row]
    refine ⟨fun _ => metas_eq hwrites hsent hrow, ?_⟩
    simp

/-- What an event stores. -/
theorem siteStep_stores (hok : SiteOk st s) (hdraws : DrawsNew s e) :
    Stores cfg st s e (siteStep cfg st s e) := by
  obtain ⟨ws, hwrites, hfirst, ⟨⟨exc, hfailed⟩, hdb, huploaded⟩ | ⟨db', happly, hsent, hdb,
    huploaded⟩⟩ := siteStep_cases cfg st hdraws
  · refine ⟨⟨ws, hwrites, hfirst, ?_⟩, hwrites.extends, ?_, ?_⟩
    · intro db' happly
      rw [hfailed] at happly
      cases happly
    · rw [hdb]
    · rw [huploaded]
      exact fun _ _ => rfl
  · have hrows := step_fileRows happly
    obtain ⟨fs, hfs, hids⟩ := hrows.listed
    refine ⟨⟨ws, hwrites, hfirst, ?_⟩, hwrites.extends, ?_, ?_⟩
    · intro _ _
      rw [hdb]
      exact ⟨hsent, hrows.rows hwrites hsent⟩
    · rw [hdb, hfs]
      exact List.prefix_append _ _
    · intro f hf
      rw [huploaded, Uploaded.after, newRows_added hfs]
      apply note_of_notMem
      intro hmem
      exact absurd (hids.given f.id hmem).1 (not_le.mpr (hok.requestIds f hf))

/-- A run of sites is a run of databases. -/
theorem run_db {es : List Event} (hdraws : Runs.Along (siteStep cfg st) DrawsNew s es) :
    (Runs.run (siteStep cfg st) s es).db = Runs.run (Api.step cfg) s.db es := by
  induction es generalizing s with
  | nil => rfl
  | cons e es ih => rw [Runs.run_cons, Runs.run_cons, ih hdraws.2, siteStep_db hdraws.1]

/-! ## Downloads -/

/-- The file system as the downloads ask it, each place named by the text that
leads to it. -/
def Storage.seen (st : Storage) (d : Volume) : Disk where
  resolve := id
  underRoot stored := decide (st.root <+: walk [] (join st.root stored.toList))
  present stored :=
    let path := walk [] (join st.root stored.toList)
    (d.files path).isSome || d.dirs path

/-- A path that is served is let through by every check of the download. -/
theorem storedFileResponse_seen {f : RequestFile} {content : List UInt8}
    (h : st.served d f.filePath = some content) :
    storedFileResponse (st.seen d) f = .ok ⟨f.filePath, f.mimeType, f.fileName⟩ := by
  unfold Storage.served at h
  split at h
  case h_2 => cases h
  case h_1 path hpath =>
    unfold Storage.resolveStoredPath at hpath
    dsimp only at hpath
    split at hpath
    · cases hpath
    split at hpath
    · cases hpath
    rename_i hinside
    cases hpath
    have hunder : ¬ ((st.seen d).underRoot f.filePath = false ∧
        f.filePath.toList.head? ≠ some '/') := by
      simpa [Storage.seen, isAbsolute] using hinside
    have hpresent : (st.seen d).present f.filePath = true := by simp [Storage.seen, h]
    have hresolve : (st.seen d).resolve f.filePath = f.filePath := rfl
    simp only [storedFileResponse, hresolve, if_neg hunder, hpresent, Bool.true_eq_false, if_false]

/-- A file is found by its id, within its request. -/
theorem requestFileResponse_listed (hnodup : (db.files.map (·.id)).Nodup) {f : RequestFile}
    (hf : f ∈ db.files) {req : Request} (hreq : req.id = f.requestId) (disk : Disk) :
    requestFileResponse db disk req f.id = storedFileResponse disk f := by
  unfold requestFileResponse
  have hfound : (db.files.find? fun g => g.id == f.id && g.requestId == req.id).isSome := by
    rw [List.find?_isSome]
    exact ⟨f, hf, by simp [hreq]⟩
  obtain ⟨g, hg⟩ := Option.isSome_iff_exists.mp hfound
  have hid : g.id = f.id := by
    have hgp := List.find?_some hg
    simp only [Bool.and_eq_true, beq_iff_eq] at hgp
    exact hgp.1
  have hsame : g = f := List.inj_on_of_nodup_map hnodup (List.mem_of_find?_eq_some hg) hf hid
  rw [hg, hsame]

/-- No event gives an id twice. -/
theorem siteStep_nodup (hok : SiteOk st s) (hnodup : (s.db.files.map (·.id)).Nodup)
    (hdraws : DrawsNew s e) : ((siteStep cfg st s e).db.files.map (·.id)).Nodup := by
  obtain ⟨ws, -, -, ⟨-, hdb, -⟩ | ⟨db', happly, -, hdb, -⟩⟩ := siteStep_cases cfg st hdraws
  · rw [hdb]
    exact hnodup
  · obtain ⟨fs, hfs, hids⟩ := (step_fileRows happly).listed
    rw [hdb, hfs, List.map_append]
    refine hnodup.append hids.nodup ?_
    intro i hold hnew
    obtain ⟨f, hf, rfl⟩ := List.mem_map.mp hold
    exact absurd (hids.given f.id hnew).1 (not_le.mpr (hok.requestIds f hf))

/-- In every such run, a listed file of a request can be downloaded from it. -/
theorem listed_files_download (cfg : Settings) (st : Storage) {s : Site}
    (hfiles : s.db.files = []) (hservices : s.db.autoReplyFiles = []) {es : List Event}
    (hdraws : Runs.Along (siteStep cfg st) DrawsNew s es) :
    let s' := Runs.run (siteStep cfg st) s es
    ∀ f ∈ s'.db.files, ∀ req : Request, req.id = f.requestId →
      requestFileResponse s'.db (st.seen s'.disk) req f.id =
        .ok ⟨f.filePath, f.mimeType, f.fileName⟩ := by
  intro s' f hf req hreq
  have hstart : (s.db.files.map (·.id)).Nodup := by
    rw [hfiles]
    exact List.nodup_nil
  have hrun : SiteOk st s' ∧ (s'.db.files.map (·.id)).Nodup :=
    Runs.run_invariant_along (I := fun s => SiteOk st s ∧ (s.db.files.map (·.id)).Nodup)
      (fun s e hs he => ⟨siteStep_ok hs.1 he, siteStep_nodup hs.1 hs.2 he⟩)
      ⟨siteOk_empty hfiles hservices, hstart⟩ hdraws
  obtain ⟨content, -, hserved⟩ := hrun.1.served.requestFiles f hf
  rw [requestFileResponse_listed hrun.2 hf hreq]
  exact storedFileResponse_seen hserved

/-- From a site that lists no file, in every run whose tokens are new when they
are drawn: every file that is listed is served with the bytes uploaded for it,
and every further event stores what it should. -/
theorem listed_files_are_served (cfg : Settings) (st : Storage) {s : Site}
    (hfiles : s.db.files = []) (hservices : s.db.autoReplyFiles = []) (es : List Event)
    (hdraws : Runs.Along (siteStep cfg st) DrawsNew s es) :
    Served st (Runs.run (siteStep cfg st) s es) ∧
      ∀ e, DrawsNew (Runs.run (siteStep cfg st) s es) e →
        Stores cfg st (Runs.run (siteStep cfg st) s es) e
          (siteStep cfg st (Runs.run (siteStep cfg st) s es) e) := by
  have hok : SiteOk st (Runs.run (siteStep cfg st) s es) :=
    Runs.run_invariant_along (fun s e hs he => siteStep_ok hs he)
      (siteOk_empty hfiles hservices) hdraws
  exact ⟨hok.served, fun e he => siteStep_stores hok he⟩

/-- A student, and a service that answers by itself. -/
def answeringDesk : Db where
  nextId := 10
  users := [{ id := 1, fullName := "Aziza Tosheva", role := .student }]
  categories :=
    [{ id := 3, parentId := none, name := "Ma'lumotnomalar" },
      { id := 4, parentId := some 3, name := "Stipendiya", routing := .autoReply
        autoReplyText := some "Javob ilovada" }]

/-- A file for the service, under a name that means harm. -/
def annex : Upload where
  filename := some "../../etc/passwd"
  contentType := some "application/pdf"
  content := [0x25, 0x50, 0x44, 0x46, 0x2D, 0x32]
  token := "0011223344556677"

/-- The service gets its file, answers with it, and loses it again. -/
def annexRun : List Event :=
  [⟨0, .catalogue (.addFile 4 annex 2)⟩,
    ⟨1, .create 1 { categoryId := 4, title := "Stipendiya", description := "Qachon?" } none "RT-1"⟩,
    ⟨2, .catalogue (.removeFile 4 10)⟩]

/-- The desk before anything was stored. -/
def answeringSite : Site where
  db := answeringDesk
  disk := .blank
  uploaded := ⟨fun _ => none, fun _ => none⟩

/-- The answer keeps the file the service has lost. -/
theorem listed_files_are_served_annex :
    Served Storage.shipped (Runs.run (siteStep {} Storage.shipped) answeringSite annexRun) ∧
      (Runs.run (siteStep {} Storage.shipped) answeringSite annexRun).db.files.map
        (fun f => (f.fileName, f.filePath)) = [("passwd", "auto_reply/4/0011223344556677_passwd")] ∧
      (Runs.run (siteStep {} Storage.shipped) answeringSite annexRun).db.autoReplyFiles = [] := by
  have hnothing : ∀ d : Volume, d.Draws [] := fun d => ⟨by simp, List.nodup_nil⟩
  have hannex : answeringSite.disk.Draws [annex] := by
    refine ⟨?_, by simp⟩
    intro u hu
    rw [List.mem_singleton.mp hu]
    exact ⟨⟨by decide, by decide⟩, fun _ _ => rfl⟩
  have hdraws : Runs.Along (siteStep {} Storage.shipped) DrawsNew answeringSite annexRun :=
    ⟨hannex, hnothing _, hnothing _, trivial⟩
  exact ⟨(listed_files_are_served {} Storage.shipped rfl rfl annexRun hdraws).1, by decide, by decide⟩

end Royd
