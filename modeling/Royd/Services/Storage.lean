/-
Royd.Services.Storage — `services/file_service.py`, the half that touches the
disk: where uploads are written and where a stored path leads.

A path on the disk is the list of its names from the root. There are no
symbolic links, so `Path.resolve` is `Paths.walk`. The disk is driven by
commands, so that what an upload writes before it is refused is there to be
seen; everything that is not a command is lifted from the pure services.
-/
import Royd.Lib.Paths
import Royd.Lib.Programs
import Royd.Services.Files

namespace Royd

open Paths Programs

/-! ## Stored paths -/

/-- `settings.storage_dir`, and the directory the process runs in. -/
structure Storage where
  cwd : List Segment
  cwdNames : Names cwd
  storageDir : String

namespace Storage

variable (st : Storage)

/-- `Path(settings.storage_dir).resolve()`. -/
def root : List Segment := walk [] (join st.cwd st.storageDir.toList)

/-- `resolve_stored_path`. A null character is refused by the calls that look
the path up. -/
def resolveStoredPath (stored : String) : Except Exc (List Segment) :=
  let candidate := stored.toList
  let full := walk [] (join st.root candidate)
  if candidate.contains '\x00' then .error (.value "lstat: embedded null character in path")
  else if ¬ st.root <+: full ∧ ¬ isAbsolute candidate then .error (.http 400 "Fayl yo'li yaroqsiz")
  else .ok full

variable {st}

theorem names_root : Names st.root := names_walk (by simp [Names]) _

/-- The path a text leads to lies in the storage root, if it leads anywhere. -/
def Confined (st : Storage) (stored : String) : Prop :=
  ∀ full, st.resolveStoredPath stored = .ok full → st.root <+: full

/-- A relative text is confined, whatever its segments. -/
theorem confined_of_relative {stored : String} (h : isAbsolute stored.toList = false) :
    st.Confined stored := by
  intro full hfull
  unfold resolveStoredPath at hfull
  dsimp only at hfull
  split at hfull
  · cases hfull
  split at hfull
  · cases hfull
  · rename_i hinside
    cases hfull
    simpa [h] using hinside

/-- An absolute one leads where its own segments lead. -/
theorem resolveStoredPath_absolute {stored : String} (h : isAbsolute stored.toList = true) :
    st.resolveStoredPath stored =
      if stored.toList.contains '\x00' then .error (.value "lstat: embedded null character in path")
      else .ok (walk [] (segments stored.toList)) := by
  unfold resolveStoredPath
  simp [join, h]

/-- For every root and every text: the text is confined exactly if it is
relative, cannot be looked up, or its own segments lead into the root. -/
theorem stored_path_confined_iff (st : Storage) (stored : String) :
    st.Confined stored ↔
      isAbsolute stored.toList = false ∨ stored.toList.contains '\x00' = true ∨
        st.root <+: walk [] (segments stored.toList) := by
  cases habsolute : isAbsolute stored.toList with
  | false => exact iff_of_true (confined_of_relative habsolute) (.inl rfl)
  | true =>
    rw [Confined, resolveStoredPath_absolute habsolute]
    by_cases hnull : stored.toList.contains '\x00' = true
    · rw [if_pos hnull, hnull]
      simp
    · rw [if_neg hnull, eq_false_of_ne_true hnull]
      simp

/-- The shipped settings, in the container's working directory. -/
def shipped : Storage where
  cwd := ["app".toList]
  cwdNames := by
    unfold Names
    decide
  storageDir := "./storage/uploads"

/-- An absolute path outside the root is handed back. -/
theorem tampered_path_served :
    ¬ ∀ (st : Storage) (stored : String), st.Confined stored := by
  intro h
  have hpasswd : shipped.resolveStoredPath "/etc/passwd" = .ok ["etc".toList, "passwd".toList] := by
    decide
  exact absurd (h shipped "/etc/passwd" _ hpasswd) (by decide)

end Storage

/-! ## The disk -/

/-- What the process sees of the disk: its directories, and its files with their bytes. -/
structure Volume where
  dirs : List Segment → Bool
  files : List Segment → Option (List UInt8)

/-- What the services ask of it. -/
inductive VolumeCommand where
  /-- `path.mkdir(parents=True, exist_ok=True)` -/
  | mkdir (path : List Segment)
  /-- `path.write_bytes(content)` -/
  | writeBytes (path : List Segment) (content : List UInt8)

namespace Volume

/-- A volume nothing was stored on yet. -/
def blank : Volume := ⟨fun _ => false, fun _ => none⟩

def mkdir (d : Volume) (path : List Segment) : Volume :=
  { d with dirs := fun p => d.dirs p || p.isPrefixOf path }

def write (d : Volume) (path : List Segment) (content : List UInt8) : Volume :=
  { d with files := fun p => if p = path then some content else d.files p }

def exec : (c : VolumeCommand) → Volume → Unit × Volume
  | .mkdir path, d => ((), d.mkdir path)
  | .writeBytes path content, d => ((), d.write path content)

@[simp] theorem files_mkdir (d : Volume) (path : List Segment) : (d.mkdir path).files = d.files := rfl

@[simp] theorem files_write_same (d : Volume) (path : List Segment) (content : List UInt8) :
    (d.write path content).files path = some content := if_pos rfl

theorem files_write_other (d : Volume) {path p : List Segment} (content : List UInt8) (h : p ≠ path) :
    (d.write path content).files p = d.files p := if_neg h

end Volume

/-- A service that may write to the disk, and may raise. -/
abbrev Storing (α : Type) : Type := Prog VolumeCommand (fun _ => Unit) Exc α

namespace Storing

variable {α β : Type} {d : Volume}

/-- The part of a service that does not touch the disk. -/
def lift (x : Except Exc α) : Storing α :=
  match x with
  | .ok a => pure a
  | .error e => .raise e

/-- The service run on a disk: its outcome, and what it leaves on the disk. -/
def on (p : Storing α) (d : Volume) : Except Exc α × Volume := p.run Volume.exec d

@[simp] theorem on_pure (a : α) : (pure a : Storing α).on d = (.ok a, d) := rfl

@[simp] theorem on_lift (x : Except Exc α) : (lift x).on d = (x, d) := by
  cases x with
  | error e => rfl
  | ok a => rfl

theorem on_bind (p : Storing α) (f : α → Storing β) :
    (p >>= f).on d =
      match p.on d with
      | (.ok a, d') => (f a).on d'
      | (.error e, d') => (.error e, d') := by
  rw [on, on, Prog.run_bind]
  rcases p.run Volume.exec d with ⟨_ | a, d'⟩
  · rfl
  · rfl

/-- A check goes before what comes after it. -/
@[simp] theorem on_lift_bind (x : Except Exc α) (f : α → Storing β) :
    (lift x >>= f).on d =
      match x with
      | .ok a => (f a).on d
      | .error e => (.error e, d) := by
  rw [on_bind, on_lift]
  cases x with
  | error e => rfl
  | ok a => rfl

/-- What holds if a check raises, and of all that comes after it if it passes. -/
theorem on_check {x : Except Exc α} {f : α → Storing β} {Q : Except Exc β × Volume → Prop}
    (hraised : ∀ e, x = .error e → Q (.error e, d)) (h : ∀ a, x = .ok a → Q ((f a).on d)) :
    Q ((lift x >>= f).on d) := by
  rw [on_lift_bind]
  cases x with
  | error e => exact hraised e rfl
  | ok a => exact h a rfl

/-- The service returns or raises what `x` says, and `Q` holds of that and
of the disk it leaves. -/
def Yields (p : Storing α) (x : Except Exc α) (d : Volume) (Q : Except Exc α → Volume → Prop) : Prop :=
  (p.on d).1 = x ∧ Q x (p.on d).2

theorem yields_lift {x : Except Exc α} {Q : Except Exc α → Volume → Prop} (h : Q x d) :
    Yields (lift x) x d Q := by
  rw [Yields, on_lift]
  exact ⟨rfl, h⟩

/-- A check goes before what comes after it. -/
theorem Yields.check {x : Except Exc α} {f : α → Storing β} {g : α → Except Exc β}
    {Q : Except Exc β → Volume → Prop} (hraised : ∀ e, Q (.error e) d)
    (h : ∀ a, x = .ok a → Yields (f a) (g a) d Q) : Yields (lift x >>= f) (x >>= g) d Q := by
  unfold Yields
  apply on_check (Q := fun left => left.1 = (x >>= g) ∧ Q (x >>= g) left.2)
  · rintro e rfl
    exact ⟨rfl, hraised e⟩
  · rintro a rfl
    exact h a rfl

/-- What follows may fail, but does not touch the disk. -/
theorem Yields.andThen {p : Storing α} {x : Except Exc α} {g : α → Except Exc β}
    {Q : Except Exc α → Volume → Prop} {Q' : Except Exc β → Volume → Prop} (h : Yields p x d Q)
    (hQ : ∀ d', Q x d' → Q' (x >>= g) d') : Yields (p >>= fun a => lift (g a)) (x >>= g) d Q' := by
  obtain ⟨rfl, h⟩ := h
  have hleft := hQ _ h
  rw [Yields, on_bind]
  generalize p.on d = left at hleft ⊢
  rcases left with ⟨e | a, d'⟩
  · exact ⟨rfl, hleft⟩
  · dsimp only
    rw [on_lift]
    exact ⟨rfl, hleft⟩

theorem Yields.returns {p : Storing α} {x : Except Exc α} {g : α → β}
    {Q : Except Exc α → Volume → Prop} {Q' : Except Exc β → Volume → Prop} (h : Yields p x d Q)
    (hQ : ∀ d', Q x d' → Q' (x >>= fun a => .ok (g a)) d') :
    Yields (p >>= fun a => pure (g a)) (x >>= fun a => .ok (g a)) d Q' :=
  h.andThen hQ

end Storing

/-! ## Storing an upload -/

namespace Storage

variable (st : Storage)

/-- `Path(settings.storage_dir) / text`, as the process finds it. -/
def locate (text : String) : List Segment :=
  walk [] (join (join st.cwd st.storageDir.toList) text.toList)

/-- `_store`: check an upload and write it under `folder`. -/
def storeOn (maxUploadMb : Nat) (upload : Upload) (folder : String) : Storing FileMeta := do
  let fileMeta ← Storing.lift (store maxUploadMb upload folder)
  Prog.issue (VolumeCommand.mkdir (st.locate folder))
  Prog.issue (VolumeCommand.writeBytes
    (st.locate (folder ++ "/" ++ upload.token ++ "_" ++ fileMeta.fileName))
    (upload.content.take (maxUploadMb * 1024 * 1024 + 1)))
  pure fileMeta

/-- `save_upload`. -/
def saveUploadOn (maxUploadMb : Nat) (upload : Upload) (requestId : Nat) : Storing FileMeta :=
  storeOn st maxUploadMb upload (toString requestId)

/-- `save_auto_reply_upload`. -/
def saveAutoReplyUploadOn (maxUploadMb : Nat) (upload : Upload) (categoryId : Nat) :
    Storing FileMeta :=
  storeOn st maxUploadMb upload ("auto_reply/" ++ toString categoryId)

/-- The disk after an upload was stored under the path its row keeps. -/
def put (d : Volume) (folder : String) (fileMeta : FileMeta) (content : List UInt8) : Volume :=
  (d.mkdir (st.locate folder)).write (st.locate fileMeta.filePath) content

variable {st}

/-- An upload that passes is read whole, and its row keeps where it went. -/
theorem store_eq_ok {maxUploadMb : Nat} {upload : Upload} {folder : String} {fileMeta : FileMeta}
    (h : store maxUploadMb upload folder = .ok fileMeta) :
    upload.content.take (maxUploadMb * 1024 * 1024 + 1) = upload.content ∧
      fileMeta.filePath = folder ++ "/" ++ upload.token ++ "_" ++ fileMeta.fileName ∧
      ∃ sent, fileMeta.fileName = safeFilename sent := by
  unfold store at h
  dsimp only at h
  split at h
  · cases h
  rename_i hsize
  split at h
  · cases h
  split at h
  · cases h
  split at h
  · cases h
  · cases h
    refine ⟨List.take_of_length_le ?_, rfl, _, rfl⟩
    rw [List.length_take] at hsize
    omega

variable (st) in
/-- The disk `_store` leaves, whether it took the upload or not. -/
def left (d : Volume) (folder : String) (content : List UInt8) : Except Exc FileMeta → Volume
  | .ok fileMeta => st.put d folder fileMeta content
  | .error _ => d

/-- Nothing is written of an upload that is refused. -/
theorem storeOn_on (maxUploadMb : Nat) (upload : Upload) (folder : String) (d : Volume) :
    (st.storeOn maxUploadMb upload folder).on d =
      (store maxUploadMb upload folder,
        st.left d folder upload.content (store maxUploadMb upload folder)) := by
  rw [storeOn, Storing.on_lift_bind]
  cases hstore : store maxUploadMb upload folder with
  | error e => rfl
  | ok fileMeta =>
    obtain ⟨hwhole, hpath, -⟩ := store_eq_ok hstore
    dsimp only
    rw [hwhole, left, put, hpath]
    rfl

end Storage

end Royd
