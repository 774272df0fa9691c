/-
Royd.Services.StoredNames — what an upload is called on the disk.

The sender chooses the file name, so nothing is assumed of it. What is left of
it after `_safe_filename`, behind the token `_store` draws, is a plain name in
the folder of its request or service (`below_filePath`): it is written there
(`locate_below`), it is read back there (`resolveStoredPath_below`), and it fits
its columns (`store_columns`).
-/
import Mathlib.Algebra.Group.Nat.Defs
import Royd.Services.Storage

namespace Royd

open Paths

/-! ## Characters -/

/-- Only characters `_SAFE_NAME` leaves alone remain. -/
theorem safeChar_of_mem_subUnsafe {c : Char} : ∀ {cs : List Char} {inRun : Bool},
    c ∈ subUnsafe inRun cs → safeChar c = true := by
  intro cs
  induction cs with
  | nil =>
    intro inRun h
    simp [subUnsafe] at h
  | cons d ds ih =>
    intro inRun h
    unfold subUnsafe at h
    split at h
    · rename_i hd
      rcases List.mem_cons.mp h with rfl | h
      · exact hd
      · exact ih h
    · split at h
      · exact ih h
      · rcases List.mem_cons.mp h with rfl | h
        · decide
        · exact ih h

theorem safeFilename_eq (name : String) :
    (safeFilename name).toList = "file".toList ∨
      ∃ base, (safeFilename name).toList = (subUnsafe false base).take 200 := by
  unfold safeFilename
  dsimp only
  split
  · exact .inl rfl
  · exact .inr ⟨_, String.toList_ofList⟩

theorem safeChar_of_mem_safeFilename {name : String} {c : Char}
    (h : c ∈ (safeFilename name).toList) : safeChar c = true := by
  rcases safeFilename_eq name with hfile | ⟨base, hbase⟩
  · have hsafe : "file".toList.all safeChar = true := by decide
    rw [hfile] at h
    exact List.all_eq_true.mp hsafe c h
  · rw [hbase] at h
    exact safeChar_of_mem_subUnsafe (List.mem_of_mem_take h)

theorem length_safeFilename (name : String) : (safeFilename name).toList.length ≤ 200 := by
  rcases safeFilename_eq name with hfile | ⟨base, hbase⟩
  · rw [hfile]
    decide
  · rw [hbase, List.length_take]
    exact Nat.min_le_left _ _

/-- A text of such characters is a plain name, unless it is all dots. -/
theorem plain_of_safe {s : Segment} (h : ∀ c ∈ s, safeChar c = true) {c : Char} (hc : c ∈ s)
    (hdot : c ≠ '.') : Plain s where
  slash := fun hslash => absurd (h _ hslash) (by decide)
  null := fun hnull => absurd (h _ hnull) (by decide)
  nonempty := List.ne_nil_of_mem hc
  here := by
    rintro rfl
    exact hdot (List.mem_singleton.mp hc)
  notUp := by
    rintro rfl
    simp [up, hdot] at hc

/-! ## Folders -/

theorem safeChar_of_isDigit {c : Char} (h : c.isDigit = true) : safeChar c = true := by
  have hdigit : '0' ≤ c ∧ c ≤ '9' := by
    simpa [Char.isDigit, Char.le_def, UInt32.le_iff_toNat_le] using h
  simp [safeChar, hdigit]

/-- Whose folder an upload is stored in. -/
inductive Folder where
  | request (id : Nat)
  | service (id : Nat)
  deriving DecidableEq, Repr

namespace Folder

def id : Folder → Nat
  | request id => id
  | service id => id

/-- The folder as `_store` is given it. -/
def name : Folder → String
  | request id => toString id
  | service id => "auto_reply/" ++ toString id

/-- The names on the way from the storage root to the folder. -/
def path : Folder → List Segment
  | request id => [(toString id).toList]
  | service id => ["auto_reply".toList, (toString id).toList]

end Folder

/-- A row's id, as the name of a folder. -/
theorem plain_id (id : Nat) : Plain (toString id).toList := by
  have hdigits : (toString id).toList = Nat.toDigits 10 id := by
    rw [Nat.toString_eq_ofList_toDigits, String.toList_ofList]
  have hdigit : ∀ c ∈ Nat.toDigits 10 id, c.isDigit = true :=
    fun c hc => Nat.isDigit_of_mem_toDigits (by decide) (by decide) hc
  obtain ⟨c, hc⟩ := List.exists_mem_of_ne_nil _ (Nat.toDigits_ne_nil (n := id) (b := 10))
  rw [hdigits]
  apply plain_of_safe (fun d hd => safeChar_of_isDigit (hdigit d hd)) hc
  rintro rfl
  exact absurd (hdigit _ hc) (by decide)

theorem Folder.below (folder : Folder) :
    Below folder.name.toList ∧ segments folder.name.toList = folder.path := by
  cases folder with
  | request id => exact ⟨.name (plain_id id), Below.segments_name (plain_id id)⟩
  | service id =>
    have hsafe : "auto_reply".toList.all safeChar = true := by decide
    have hname : Plain "auto_reply".toList :=
      plain_of_safe (List.all_eq_true.mp hsafe) (c := 'a') (by decide) (by decide)
    have htext : (Folder.service id).name.toList = "auto_reply".toList ++ '/' :: (toString id).toList := by
      rw [Folder.name, String.toList_append]
      rfl
    rw [htext]
    refine ⟨.slash (.name hname) (plain_id id), ?_⟩
    rw [Below.segments_slash (plain_id id), Below.segments_name hname]
    rfl

/-- An id that is an INTEGER has ten digits at most. -/
theorem Folder.length_name {folder : Folder} (h : folder.id < 2 ^ 31) : folder.name.length ≤ 21 := by
  have hdigits : ∀ id : Nat, id < 2 ^ 31 → (toString id).length ≤ 10 := by
    intro id hid
    rw [Nat.toString_eq_ofList_toDigits, ← String.length_toList, String.toList_ofList,
      Nat.length_toDigits_le_iff (by decide) (by decide)]
    omega
  cases folder with
  | request id => exact (hdigits id h).trans (by decide)
  | service id =>
    have hid := hdigits id h
    have hprefix : "auto_reply/".length = 11 := by decide
    rw [Folder.name, String.length_append]
    omega

/-! ## Tokens -/

/-- What `secrets.token_hex(8)` gives. -/
structure TokenHex (token : String) : Prop where
  length : token.toList.length = 16
  digits : token.toList.all "0123456789abcdef".toList.contains = true

/-- `stored_name`. -/
def storedName (token fileName : String) : Segment := token.toList ++ '_' :: fileName.toList

theorem plain_storedName {token : String} (htoken : TokenHex token) (name : String) :
    Plain (storedName token (safeFilename name)) := by
  have hunderscore : '_' ∈ storedName token (safeFilename name) := by simp [storedName]
  apply plain_of_safe _ hunderscore (by decide)
  intro c hc
  rcases List.mem_append.mp hc with hc | hc
  · have hsafe : "0123456789abcdef".toList.all safeChar = true := by decide
    have hhex := List.all_eq_true.mp htoken.digits c hc
    exact List.all_eq_true.mp hsafe c (List.contains_iff_mem.mp hhex)
  · rcases List.mem_cons.mp hc with rfl | hc
    · decide
    · exact safeChar_of_mem_safeFilename hc

section Stored

variable {maxUploadMb : Nat} {upload : Upload} {folder : String} {fileMeta : FileMeta}

/-- The path of a row is its folder and its stored name. -/
theorem filePath_eq (h : store maxUploadMb upload folder = .ok fileMeta) :
    fileMeta.filePath.toList = folder.toList ++ '/' :: storedName upload.token fileMeta.fileName := by
  obtain ⟨-, hpath, -⟩ := Storage.store_eq_ok h
  rw [hpath]
  simp [storedName]

theorem plain_stored (htoken : TokenHex upload.token)
    (h : store maxUploadMb upload folder = .ok fileMeta) :
    Plain (storedName upload.token fileMeta.fileName) := by
  obtain ⟨-, -, sent, hsent⟩ := Storage.store_eq_ok h
  rw [hsent]
  exact plain_storedName htoken sent

theorem below_filePath (hfolder : Below folder.toList) (htoken : TokenHex upload.token)
    (h : store maxUploadMb upload folder = .ok fileMeta) : Below fileMeta.filePath.toList := by
  rw [filePath_eq h]
  exact hfolder.slash (plain_stored htoken h)

/-- What is stored fits its columns, if its folder's name is short. -/
theorem store_columns (htoken : TokenHex upload.token)
    (h : store maxUploadMb upload folder = .ok fileMeta) :
    fileMeta.fileName.length ≤ 200 ∧ fileMeta.filePath.length ≤ folder.length + 218 := by
  obtain ⟨-, -, sent, hsent⟩ := Storage.store_eq_ok h
  have hname : fileMeta.fileName.toList.length ≤ 200 := by
    rw [hsent]
    exact length_safeFilename sent
  have hpath := congrArg List.length (filePath_eq h)
  have htokenLength := htoken.length
  simp only [storedName, List.length_append, List.length_cons] at hpath
  simp only [String.length_toList] at hname hpath htokenLength
  omega

end Stored

namespace Storage

variable {st : Storage} {text : String}

/-! ## Where the bytes are -/

/-- An upload's file is written below the storage root. -/
theorem locate_below (h : Below text.toList) : st.locate text = st.root ++ segments text.toList := by
  rw [locate, walk_join_join _ _ h.relative, walk_names h.names, root]

/-- It is read where it was written. -/
theorem resolveStoredPath_below (h : Below text.toList) :
    st.resolveStoredPath text = .ok (st.locate text) := by
  rw [locate_below h]
  simp [resolveStoredPath, h.walk_join names_root, h.null]

/-- In its own folder, under its stored name. -/
theorem locate_filePath (st : Storage) {maxUploadMb : Nat} {upload : Upload} {folder : Folder}
    {fileMeta : FileMeta} (htoken : TokenHex upload.token)
    (h : store maxUploadMb upload folder.name = .ok fileMeta) :
    st.locate fileMeta.filePath =
      st.root ++ folder.path ++ [storedName upload.token fileMeta.fileName] := by
  obtain ⟨hbelow, hsegments⟩ := folder.below
  rw [locate_below (below_filePath hbelow htoken h), filePath_eq h,
    Below.segments_slash (plain_stored htoken h), hsegments, List.append_assoc]

end Storage

/-- A token as it is drawn: nothing on the disk carries it yet. -/
structure Volume.Drawn (d : Volume) (token : String) : Prop where
  hex : TokenHex token
  fresh : ∀ dir fileName, d.files (dir ++ [storedName token fileName]) = none

/-! ## One upload, stored -/

/-- An upload with the folder it went to and the row `_store` made of it. -/
structure Written where
  folder : Folder
  upload : Upload
  fileMeta : FileMeta

namespace Written

def sent (w : Written) : Folder × Upload := (w.folder, w.upload)

end Written

/-- One new file was written, in its own folder below the storage root, and
nothing else. Ids are INTEGER columns. -/
structure Stored (maxUploadMb : Nat) (st : Storage) (d : Volume) (w : Written) (d' : Volume) : Prop where
  accepted : store maxUploadMb w.upload w.folder.name = .ok w.fileMeta
  inside : st.locate w.fileMeta.filePath =
    st.root ++ w.folder.path ++ [storedName w.upload.token w.fileMeta.fileName]
  new : d.files (st.locate w.fileMeta.filePath) = none
  written : d'.files =
    Function.update d.files (st.locate w.fileMeta.filePath) (some w.upload.content)
  resolves : st.resolveStoredPath w.fileMeta.filePath = .ok (st.locate w.fileMeta.filePath)
  name : w.fileMeta.fileName.length ≤ 255
  path : w.folder.id < 2 ^ 31 → w.fileMeta.filePath.length ≤ 500

/-- `_store` writes under a token that was just drawn. -/
theorem Volume.Drawn.stored {maxUploadMb : Nat} {d : Volume} {upload : Upload} {fileMeta : FileMeta}
    (hdrawn : d.Drawn upload.token) (st : Storage) (folder : Folder)
    (h : store maxUploadMb upload folder.name = .ok fileMeta) :
    Stored maxUploadMb st d ⟨folder, upload, fileMeta⟩
      (st.put d folder.name fileMeta upload.content) := by
  have hplace := Storage.locate_filePath st hdrawn.hex h
  obtain ⟨hname, hpath⟩ := store_columns hdrawn.hex h
  constructor
  · exact h
  · exact hplace
  · dsimp only
    rw [hplace]
    exact hdrawn.fresh _ _
  · funext p
    rw [Storage.put, Function.update_apply]
    rfl
  · exact Storage.resolveStoredPath_below (below_filePath folder.below.1 hdrawn.hex h)
  · exact hname.trans (by decide)
  · intro hid
    have hfolder := Folder.length_name hid
    dsimp only at hfolder ⊢
    omega

/-- Tokens that differ stay apart. -/
theorem Volume.Drawn.put {st : Storage} {d : Volume} {folder token : String} {fileMeta : FileMeta}
    {content : List UInt8} (h : d.Drawn token)
    (hother : ∀ dir fileName, st.locate fileMeta.filePath ≠ dir ++ [storedName token fileName]) :
    (st.put d folder fileMeta content).Drawn token := by
  refine ⟨h.hex, ?_⟩
  intro dir fileName
  rw [Storage.put, Volume.files_write_other _ _ (hother dir fileName).symm, Volume.files_mkdir]
  exact h.fresh dir fileName

/-! ## One upload after the other -/

/-- The uploads were stored in this order, each on the disk the one before left. -/
def Writes (maxUploadMb : Nat) (st : Storage) : Volume → List Written → Volume → Prop
  | d, [], d' => d' = d
  | d, w :: ws, d' => ∃ d₁, Stored maxUploadMb st d w d₁ ∧ Writes maxUploadMb st d₁ ws d'

/-- What a handler with these uploads wrote before it returned or raised: the
first of them, and all of them if it returned. -/
def Wrote (maxUploadMb : Nat) (st : Storage) (d : Volume) (uploads : List (Folder × Upload))
    {α : Type} (x : Except Exc α) (d' : Volume) : Prop :=
  ∃ ws, Writes maxUploadMb st d ws d' ∧ ws.map Written.sent <+: uploads ∧
    ∀ a, x = .ok a → ws.map Written.sent = uploads

namespace Wrote

variable {maxUploadMb : Nat} {st : Storage} {d d' : Volume} {uploads : List (Folder × Upload)}
  {α β : Type} {x : Except Exc α}

theorem refused (e : Exc) : Wrote maxUploadMb st d uploads (.error e : Except Exc α) d :=
  ⟨[], rfl, List.nil_prefix, fun _ h => by cases h⟩

theorem nothing (x : Except Exc α) : Wrote maxUploadMb st d [] x d :=
  ⟨[], rfl, List.nil_prefix, fun _ _ => rfl⟩

/-- What follows writes nothing. -/
theorem bind (h : Wrote maxUploadMb st d uploads x d') (f : α → Except Exc β) :
    Wrote maxUploadMb st d uploads (x >>= f) d' := by
  obtain ⟨ws, hwrites, hfirst, hall⟩ := h
  refine ⟨ws, hwrites, hfirst, ?_⟩
  intro b hb
  obtain ⟨a, ha, -⟩ := bind_eq_ok.mp hb
  exact hall a ha

/-- One upload, and then others. -/
theorem cons {w : Written} {d₁ : Volume} (hw : Stored maxUploadMb st d w d₁)
    (h : Wrote maxUploadMb st d₁ uploads x d') :
    Wrote maxUploadMb st d (w.sent :: uploads) x d' := by
  obtain ⟨ws, hwrites, hfirst, hall⟩ := h
  refine ⟨w :: ws, ⟨d₁, hw, hwrites⟩, ?_, ?_⟩
  · rw [List.map_cons]
    exact List.cons_prefix_cons.mpr ⟨rfl, hfirst⟩
  · intro a ha
    rw [List.map_cons, hall a ha]

end Wrote

/-- The tokens of a handler's uploads, as they are drawn one after the other. -/
structure Volume.Draws (d : Volume) (uploads : List Upload) : Prop where
  drawn : ∀ u ∈ uploads, d.Drawn u.token
  apart : (uploads.map (·.token)).Nodup

/-- Tokens of one length are told apart by the stored names that begin with them. -/
theorem token_eq_of_storedName {token token' fileName fileName' : String} (h : TokenHex token)
    (h' : TokenHex token') (heq : storedName token fileName = storedName token' fileName') :
    token = token' := by
  have hlength : token.toList.length = token'.toList.length := h.length.trans h'.length.symm
  exact String.toList_injective (List.append_inj heq hlength).1

/-- Storing one upload leaves the tokens of the others unused. -/
theorem Volume.Draws.tail {maxUploadMb : Nat} {d : Volume} {upload : Upload} {uploads : List Upload}
    {fileMeta : FileMeta} (h : d.Draws (upload :: uploads)) (st : Storage) (folder : Folder)
    (hstore : store maxUploadMb upload folder.name = .ok fileMeta) :
    (st.put d folder.name fileMeta upload.content).Draws uploads := by
  have hfirst := h.drawn upload List.mem_cons_self
  have hapart := List.nodup_cons.mp h.apart
  refine ⟨?_, hapart.2⟩
  intro u hu
  have hdrawn := h.drawn u (List.mem_cons_of_mem _ hu)
  apply hdrawn.put
  intro dir fileName heq
  rw [Storage.locate_filePath st hfirst.hex hstore] at heq
  have hlast := (List.append_inj' heq rfl).2
  rw [List.cons.injEq] at hlast
  have htoken := token_eq_of_storedName hfirst.hex hdrawn.hex hlast.1
  exact hapart.1 (List.mem_map.mpr ⟨u, hu, htoken.symm⟩)

end Royd
