/-
Royd.Api.FailedAnswers — what an answer that fails leaves behind.

The transaction is rolled back, the disk is not: `answer` writes each file as
soon as that file has passed its own checks, and a later file, or the text,
may still be refused. `failed_answer_leaves_nothing_iff` says when nothing can
be left: nothing was written, or nothing was left to refuse.
-/
import Royd.Api.Deeds
import Royd.Api.Storing

namespace Royd

/-! ## The checks of an upload -/

/-- An upload `_store` takes. -/
structure Upload.Acceptable (maxUploadMb : Nat) (upload : Upload) : Prop where
  nonempty : upload.content ≠ []
  size : upload.content.length ≤ maxUploadMb * 1024 * 1024
  type : declaredType upload ∈ allowedMime
  content : sniffMime upload.content (declaredType upload) = .ok (declaredType upload)

theorem sniffMime_eq_ok {content : List UInt8} {declared mime : String}
    (h : sniffMime content declared = .ok mime) : mime = declared := by
  unfold sniffMime at h
  split at h
  · cases h
  split at h
  · cases h
  · cases h
    rfl

/-- `_store` refuses exactly the others, whatever the folder. -/
theorem store_isOk_iff (maxUploadMb : Nat) (upload : Upload) (folder : String) :
    (∃ fileMeta, store maxUploadMb upload folder = .ok fileMeta) ↔
      upload.Acceptable maxUploadMb := by
  constructor
  · rintro ⟨fileMeta, h⟩
    obtain ⟨hwhole, -, -⟩ := Storage.store_eq_ok h
    unfold store at h
    dsimp only at h
    rw [hwhole] at h
    split at h
    · cases h
    rename_i hsize
    split at h
    · cases h
    rename_i hempty
    split at h
    · cases h
    rename_i htype
    split at h
    · cases h
    rename_i mime hmime
    refine ⟨?_, not_lt.mp hsize, by simpa using htype, ?_⟩
    · rintro hnil
      exact hempty (by rw [hnil, List.length_nil])
    · rw [hmime, sniffMime_eq_ok hmime]
  · rintro ⟨hempty, hsize, htype, hcontent⟩
    have hwhole : upload.content.take (maxUploadMb * 1024 * 1024 + 1) = upload.content :=
      List.take_of_length_le (Nat.le_succ_of_le hsize)
    have hlength : upload.content.length ≠ 0 := by simpa using hempty
    unfold store
    dsimp only
    rw [hwhole, if_neg (not_lt.mpr hsize), if_neg hlength, if_neg (by simpa using htype), hcontent]
    exact ⟨_, rfl⟩

namespace Api

open Storing

variable {cfg : Settings} {st : Storage} {db : Db} {d : Volume} {now : Int}
  {userId requestId : Nat} {text : String} {files : List Upload} {actor : User} {r : Request}

/-! ## The call -/

/-- `text: str = Form(..., min_length=1, max_length=10000)`. -/
def checkAnswerForm (text : String) : Except Exc Unit :=
  if text.length < 1 then .error (.http 422 "Field required")
  else if text.length > 10000 then
    .error (.http 422 "String should have at most 10000 characters")
  else .ok ()

/-- `POST /requests/{id}/answer`, up to its commit. -/
def postAnswer (cfg : Settings) (st : Storage) (db : Db) (userId requestId : Nat) (text : String)
    (files : List Upload) (now : Int) : Storing Work := do
  let _ ← Storing.lift (requireRoles db userId Role.canTransition)
  Storing.lift (checkAnswerForm text)
  answerOn cfg st db userId requestId text files now

/-- The call on a database and a disk. A handler that raises commits nothing
(`get_db`). -/
def runAnswer (cfg : Settings) (st : Storage) (db : Db) (d : Volume) (userId requestId : Nat)
    (text : String) (files : List Upload) (now : Int) : Except Exc Unit × Db × Volume :=
  match (postAnswer cfg st db userId requestId text files now).on d with
  | (.ok w, d') => (.ok (), db.finish w, d')
  | (.error e, d') => (.error e, db, d')

/-- If the call fails, the database and the disk are as they were. -/
def LeavesNothing (cfg : Settings) (st : Storage) (db : Db) (d : Volume) (userId requestId : Nat)
    (text : String) (files : List Upload) (now : Int) : Prop :=
  ∀ e db' d', runAnswer cfg st db d userId requestId text files now = (.error e, db', d') →
    db' = db ∧ d' = d

/-! ## Its checks -/

/-- Everything that is checked before the first file has passed. -/
structure Admitted (db : Db) (userId requestId : Nat) (text : String) (files : List Upload)
    (actor : User) (r : Request) : Prop where
  caller : requireRoles db userId Role.canTransition = .ok actor
  form : checkAnswerForm text = .ok ()
  found : db.getRequest requestId = some r
  visible : assertCanView r actor = .ok ()
  answerable : assertCanAnswer r actor = .ok ()
  few : checkFileCount files = .ok ()

/-- If the request was returned, its clock can be started again. -/
def ClockRestarts (cfg : Settings) (r : Request) (now : Int) : Prop :=
  r.status = .returned → ∀ pausedAt, r.slaPausedAt = some pausedAt →
    0 < Sla.workingTimeBetween cfg.cal pausedAt r.slaDeadline →
      ∃ deadline, Sla.addWorkingTime cfg.cal now
        (Sla.workingTimeBetween cfg.cal pausedAt r.slaDeadline) = .ok deadline

/-- Nothing is written, or nothing is left to refuse once the files are. What the
database makes of the text is not asked: it is taken to accept it. -/
def Harmless (cfg : Settings) (db : Db) (userId requestId : Nat) (text : String)
    (files : List Upload) (now : Int) : Prop :=
  ∀ actor r, Admitted db userId requestId text files actor r →
    (∀ f ∈ files.head?, ¬ f.Acceptable cfg.maxUploadMb) ∨
      (∀ f ∈ files, f.Acceptable cfg.maxUploadMb) ∧ blank text = false ∧ ClockRestarts cfg r now

/-- The row a caller is given is the one there is, if the caller may see it. -/
theorem getRequestForUser_iff {w : Work} : getRequestForUser db requestId actor = .ok w ↔
    ∃ r, db.getRequest requestId = some r ∧ assertCanView r actor = .ok () ∧
      w = Work.load db r := by
  unfold getRequestForUser
  cases hfound : db.getRequest requestId with
  | none => simp
  | some r =>
    dsimp only
    rw [bind_eq_ok]
    constructor
    · rintro ⟨_, hview, hw⟩
      cases hw
      exact ⟨r, rfl, hview, rfl⟩
    · rintro ⟨r', hr', hview, rfl⟩
      cases hr'
      exact ⟨(), hview, rfl⟩

/-- Past the checks, the files go to the disk one by one. -/
theorem postAnswer_admitted (h : Admitted db userId requestId text files actor r) :
    (postAnswer cfg st db userId requestId text files now).on d =
      (files.foldlM (fun w f => attachFile cfg db w actor true f now) (Work.load db r) >>=
          fun w => sendAnswer cfg db w actor text now,
        leftAll cfg.maxUploadMb st (Folder.request r.id).name d files) := by
  rw [postAnswer, Storing.on_lift_bind, h.caller]
  dsimp only
  rw [Storing.on_lift_bind, h.form]
  dsimp only
  rw [answerOn, Storing.on_lift_bind, h.caller]
  dsimp only
  rw [Storing.on_lift_bind, getRequestForUser_iff.mpr ⟨r, h.found, h.visible, rfl⟩]
  dsimp only
  rw [Storing.on_lift_bind, show (Work.load db r).req = r from rfl, h.answerable]
  dsimp only
  rw [Storing.on_lift_bind, h.few]
  dsimp only
  rw [Storing.on_bind, attachFilesOn_on]
  cases files.foldlM (fun w f => attachFile cfg db w actor true f now) (Work.load db r) with
  | error e => rfl
  | ok w => exact Storing.on_lift _

/-- Turned away, the call touches nothing. -/
theorem postAnswer_turnedAway (h : ∀ actor r, ¬ Admitted db userId requestId text files actor r) :
    ((postAnswer cfg st db userId requestId text files now).on d).2 = d := by
  apply on_check (Q := fun left => left.2 = d) (fun _ _ => rfl)
  intro actor hcaller
  apply on_check (Q := fun left => left.2 = d) (fun _ _ => rfl)
  intro _ hform
  apply on_check (Q := fun left => left.2 = d) (fun _ _ => rfl)
  intro again hagain
  rw [hcaller] at hagain
  cases hagain
  apply on_check (Q := fun left => left.2 = d) (fun _ _ => rfl)
  intro w hload
  obtain ⟨r, hfound, hview, rfl⟩ := getRequestForUser_iff.mp hload
  apply on_check (Q := fun left => left.2 = d) (fun _ _ => rfl)
  intro _ hcan
  apply on_check (Q := fun left => left.2 = d) (fun _ _ => rfl)
  intro _ hcount
  exact (h actor r ⟨hcaller, hform, hfound, hview, hcan, hcount⟩).elim

/-! ## What is left to refuse once the files are attached -/

theorem setClock_isOk_iff :
    (∃ r', setClock cfg r .completed now = .ok r') ↔ ClockRestarts cfg r now := by
  unfold setClock ClockRestarts
  rw [if_neg (by simp)]
  by_cases hreturned : r.status = .returned
  · rw [if_pos ⟨hreturned, by decide⟩, resumeClock]
    cases hpaused : r.slaPausedAt with
    | none => simp
    | some pausedAt =>
      dsimp only
      by_cases hleft : Sla.workingTimeBetween cfg.cal pausedAt r.slaDeadline > 0
      · rw [if_pos hleft]
        constructor
        · rintro ⟨r', h⟩ - p hp -
          cases hp
          obtain ⟨deadline, hdeadline, -⟩ := bind_eq_ok.mp h
          exact ⟨deadline, hdeadline⟩
        · intro h
          obtain ⟨deadline, hdeadline⟩ := h hreturned pausedAt rfl hleft
          exact ⟨_, bind_eq_ok.mpr ⟨deadline, hdeadline, rfl⟩⟩
      · rw [if_neg hleft]
        constructor
        · rintro - - p hp hpos
          cases hp
          exact absurd hpos hleft
        · intro h
          exact ⟨_, rfl⟩
  · rw [if_neg fun h => hreturned h.1]
    constructor
    · intro _ h
      exact absurd h hreturned
    · intro _
      exact ⟨r, rfl⟩

/-- Only a blank text or a clock that does not start stop an answer now. -/
theorem sendAnswer_isOk_iff {w : Work} (hcan : assertCanAnswer w.req actor = .ok ()) :
    (∃ w', sendAnswer cfg db w actor text now = .ok w') ↔
      blank text = false ∧ ClockRestarts cfg w.req now := by
  have hanswer : (∃ w', sendAnswer cfg db w actor text now = .ok w') ↔
      ∃ w', answerRequest cfg w actor text now = .ok w' := by
    unfold sendAnswer
    constructor
    · rintro ⟨w', h⟩
      obtain ⟨w₁, hanswered, -⟩ := bind_eq_ok.mp h
      exact ⟨w₁, hanswered⟩
    · rintro ⟨w₁, hanswered⟩
      exact ⟨_, bind_eq_ok.mpr ⟨w₁, hanswered, rfl⟩⟩
  rw [hanswer]
  unfold answerRequest
  constructor
  · rintro ⟨w', h⟩
    obtain ⟨_, -, h⟩ := bind_eq_ok.mp h
    split at h
    · cases h
    rename_i hblank
    obtain ⟨req, happly, -⟩ := bind_eq_ok.mp h
    obtain ⟨req₁, hset, -⟩ := bind_eq_ok.mp happly
    -- The answer's own columns do not matter to the clock.
    have hclock := setClock_isOk_iff.mp ⟨req₁, hset⟩
    exact ⟨eq_false_of_ne_true hblank, hclock⟩
  · rintro ⟨hblank, hclock⟩
    obtain ⟨req₁, hset⟩ : ∃ req₁, setClock cfg
        { w.req with
          answerText := some (strip text)
          answeredAt := some now
          answeredBy := some actor.id }
        .completed now = .ok req₁ := setClock_isOk_iff.mpr hclock
    rw [hcan, hblank]
    exact ⟨_, bind_eq_ok.mpr ⟨(), rfl, bind_eq_ok.mpr ⟨_, bind_eq_ok.mpr ⟨req₁, hset, rfl⟩, rfl⟩⟩⟩

/-- Either a file is refused, or all of them are attached. -/
theorem attachFiles_isOk (cfg : Settings) (db : Db) (now : Int) (actor : User)
    (files : List Upload) (w : Work) :
    (∃ e, files.foldlM (fun w f => attachFile cfg db w actor true f now) w = .error e ∧
      ∃ f ∈ files, ¬ f.Acceptable cfg.maxUploadMb) ∨
    ∃ w', files.foldlM (fun w f => attachFile cfg db w actor true f now) w = .ok w' ∧
      w'.req = w.req ∧ ∀ f ∈ files, f.Acceptable cfg.maxUploadMb := by
  induction files generalizing w with
  | nil => exact .inr ⟨w, rfl, rfl, by simp⟩
  | cons f files ih =>
    rw [List.foldlM_cons]
    have hf := store_isOk_iff cfg.maxUploadMb f (toString w.req.id)
    obtain ⟨e, hsaved, hattach⟩ | ⟨fileMeta, w₁, hsaved, hattach, hreq⟩ :=
      attachFile_isOk cfg db now w actor true f
    · refine .inl ⟨e, by rw [hattach]; rfl, f, List.mem_cons_self, ?_⟩
      rw [← hf, show store cfg.maxUploadMb f (toString w.req.id) = .error e from hsaved]
      simp
    · have haccepted : f.Acceptable cfg.maxUploadMb := hf.mp ⟨fileMeta, hsaved⟩
      rw [hattach]
      obtain ⟨e, hloop, g, hg, hrefused⟩ | ⟨w', hloop, hreq', hall⟩ := ih w₁
      · exact .inl ⟨e, hloop, g, List.mem_cons_of_mem _ hg, hrefused⟩
      · refine .inr ⟨w', hloop, hreq'.trans hreq, ?_⟩
        intro g hg
        rcases List.mem_cons.mp hg with rfl | hg
        · exact haccepted
        · exact hall g hg

/-- Past the checks, the call succeeds exactly if nothing is refused. -/
theorem answered_iff (h : Admitted db userId requestId text files actor r) :
    (∃ w, (files.foldlM (fun w f => attachFile cfg db w actor true f now) (Work.load db r) >>=
        fun w => sendAnswer cfg db w actor text now) = .ok w) ↔
      (∀ f ∈ files, f.Acceptable cfg.maxUploadMb) ∧ blank text = false ∧
        ClockRestarts cfg r now := by
  obtain ⟨e, hloop, f, hf, hrefused⟩ | ⟨w, hloop, hreq, hall⟩ :=
    attachFiles_isOk cfg db now actor files (Work.load db r)
  · rw [hloop]
    constructor
    · rintro ⟨w, hw⟩
      cases hw
    · rintro ⟨hall, -⟩
      exact absurd (hall f hf) hrefused
  · have hreq' : w.req = r := hreq
    have hcan : assertCanAnswer w.req actor = .ok () := by rw [hreq', h.answerable]
    have hsend : (∃ w', sendAnswer cfg db w actor text now = .ok w') ↔
        blank text = false ∧ ClockRestarts cfg r now := by
      rw [← hreq']
      exact sendAnswer_isOk_iff hcan
    rw [hloop]
    exact hsend.trans (and_iff_right hall).symm

/-! ## What is on the disk -/

/-- Writing takes nothing away. -/
theorem left_keeps {folder : String} {content : List UInt8} {x : Except Exc FileMeta}
    {p : List Paths.Segment} (h : d.files p ≠ none) : (st.left d folder content x).files p ≠ none := by
  cases x with
  | error e => exact h
  | ok fileMeta =>
    by_cases hp : p = st.locate fileMeta.filePath
    · rw [Storage.left, Storage.put, hp, Volume.files_write_same]
      simp
    · rw [Storage.left, Storage.put, Volume.files_write_other _ _ hp, Volume.files_mkdir]
      exact h

theorem leftAll_keeps (maxUploadMb : Nat) (st : Storage) (folder : String) (files : List Upload)
    {p : List Paths.Segment} (h : d.files p ≠ none) :
    (leftAll maxUploadMb st folder d files).files p ≠ none := by
  induction files generalizing d with
  | nil => exact h
  | cons f files ih =>
    rw [leftAll]
    split
    · exact ih (left_keeps h)
    · exact left_keeps h

/-- Files go to the disk exactly if the first of them is taken. -/
theorem leftAll_eq_self_iff {maxUploadMb : Nat} {folder : Folder}
    (hdrawn : ∀ f ∈ files, d.Drawn f.token) :
    leftAll maxUploadMb st folder.name d files = d ↔
      ∀ f ∈ files.head?, ¬ f.Acceptable maxUploadMb := by
  cases files with
  | nil => simp [leftAll]
  | cons f files =>
    have hf := store_isOk_iff maxUploadMb f folder.name
    simp only [List.head?_cons, Option.mem_some_iff, forall_eq']
    rw [← hf, leftAll]
    cases hstore : store maxUploadMb f folder.name with
    | error e => simp [Storage.left]
    | ok fileMeta =>
      have hstored := (hdrawn f List.mem_cons_self).stored st folder hstore
      have hthere : (st.left d folder.name f.content (.ok fileMeta)).files
          (st.locate fileMeta.filePath) ≠ none := by
        rw [Storage.left, hstored.written, Function.update_self]
        simp
      constructor
      · intro hsame
        dsimp only at hsame
        have hkept := leftAll_keeps maxUploadMb st folder.name files hthere
        rw [hsame, hstored.new] at hkept
        exact absurd rfl hkept
      · intro hnone
        exact absurd ⟨fileMeta, rfl⟩ hnone

/-! ## The two together -/

theorem leavesNothing_iff : LeavesNothing cfg st db d userId requestId text files now ↔
    ((¬ ∃ w, ((postAnswer cfg st db userId requestId text files now).on d).1 = .ok w) →
      ((postAnswer cfg st db userId requestId text files now).on d).2 = d) := by
  unfold LeavesNothing runAnswer
  rcases (postAnswer cfg st db userId requestId text files now).on d with ⟨e | w, d'⟩
  · constructor
    · intro h _
      exact (h e db d' rfl).2
    · intro h e' db' d'' heq
      cases heq
      exact ⟨rfl, h (by simp)⟩
  · constructor
    · intro _ hfailed
      exact absurd ⟨w, rfl⟩ hfailed
    · intro _ e db' d'' heq
      cases heq

/-- For every database, disk and call, with tokens nothing on the disk
carries yet: a call that fails leaves nothing behind exactly if it is harmless. -/
theorem failed_answer_leaves_nothing_iff (cfg : Settings) (st : Storage) (db : Db) (d : Volume)
    (userId requestId : Nat) (text : String) (files : List Upload) (now : Int)
    (hdrawn : ∀ f ∈ files, d.Drawn f.token) :
    LeavesNothing cfg st db d userId requestId text files now ↔
      Harmless cfg db userId requestId text files now := by
  rw [leavesNothing_iff]
  constructor
  · intro h actor r hadmitted
    rw [postAnswer_admitted hadmitted, answered_iff hadmitted] at h
    by_cases hanswered : (∀ f ∈ files, f.Acceptable cfg.maxUploadMb) ∧ blank text = false ∧
        ClockRestarts cfg r now
    · exact .inr hanswered
    · exact .inl ((leftAll_eq_self_iff hdrawn).mp (h hanswered))
  · intro h hfailed
    by_cases hadmitted : ∃ actor r, Admitted db userId requestId text files actor r
    · obtain ⟨actor, r, hadmitted⟩ := hadmitted
      rw [postAnswer_admitted hadmitted] at hfailed ⊢
      rcases h actor r hadmitted with hfirst | hanswered
      · exact (leftAll_eq_self_iff hdrawn).mpr hfirst
      · exact absurd ((answered_iff hadmitted).mpr hanswered) hfailed
    · apply postAnswer_turnedAway
      intro actor r hr
      exact hadmitted ⟨actor, r, hr⟩

/-- A registrator, and a request that waits for its answer. -/
def counter : Db where
  nextId := 10
  users := [{ id := 1, fullName := "Dilnoza Karimova", role := .registrator }]
  requests :=
    [{ id := 7, trackingNo := "RT-2026-00007", studentId := 2, categoryId := 3, title := "Ma'lumotnoma"
       description := "Ma'lumotnoma kerak", status := .inProgress, slaDeadline := 0, createdAt := 0 }]

/-- The answer's one file. -/
def letter : Upload where
  filename := some "javob.pdf"
  contentType := some "application/pdf"
  content := [0x25, 0x50, 0x44, 0x46, 0x2D, 0x31]
  token := "00112233445566ff"

theorem drawn_blank {token : String} (h : TokenHex token) : Volume.blank.Drawn token :=
  ⟨h, fun _ _ => rfl⟩

/-- A text of one blank is refused after the file went to the disk. -/
theorem blank_answer_leaves_file :
    ¬ ∀ (cfg : Settings) (st : Storage) (db : Db) (d : Volume) (userId requestId : Nat)
      (text : String) (files : List Upload) (now : Int),
      (∀ f ∈ files, d.Drawn f.token) → LeavesNothing cfg st db d userId requestId text files now := by
  intro h
  have hletter := h {} Storage.shipped counter Volume.blank 1 7 " " [letter] 0
    fun f hf => by
      rw [List.mem_singleton.mp hf]
      exact drawn_blank ⟨by decide, by decide⟩
  have hfailed : ((postAnswer {} Storage.shipped counter 1 7 " " [letter] 0).on Volume.blank).1 =
      .error (.http 422 "Javob matnini yozing") := by
    decide
  have hthere : ((postAnswer {} Storage.shipped counter 1 7 " " [letter] 0).on Volume.blank).2.files
      (Storage.shipped.locate "7/00112233445566ff_javob.pdf") = some letter.content := by
    decide
  rw [leavesNothing_iff.mp hletter (by rw [hfailed]; simp)] at hthere
  cases hthere

/-- The same call with a text that says something leaves nothing behind, for
it does not fail. -/
theorem failed_answer_leaves_nothing_letter :
    LeavesNothing {} Storage.shipped counter Volume.blank 1 7 "Tayyor" [letter] 0 := by
  apply (failed_answer_leaves_nothing_iff {} Storage.shipped counter Volume.blank 1 7 "Tayyor"
    [letter] 0 fun f hf => by
      rw [List.mem_singleton.mp hf]
      exact drawn_blank ⟨by decide, by decide⟩).mpr
  intro actor r h
  refine .inr ⟨?_, by decide, ?_⟩
  · intro f hf
    rw [List.mem_singleton.mp hf]
    exact ⟨by decide, by decide, by decide, by decide⟩
  · intro hreturned
    have hfound := h.found
    cases hfound
    cases hreturned

end Api

end Royd
