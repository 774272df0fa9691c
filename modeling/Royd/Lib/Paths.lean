/-
Royd.Lib.Paths — POSIX paths as lists of names.

A text names a path relative to a directory or, if it begins with a slash,
relative to the root. `segments` is what is left of a text when it is cut at
its slashes and empty and `.` segments are dropped; `walk` works the segments
off from a directory, `..` going up and stopping at the root. Without symbolic
links that is what resolving a path comes to, whether the files exist or not.

A list of names proper, with no `..` among them (`Names`), is walked as it
stands (`walk_names`), so a path below a directory stays below it.
-/
import Mathlib.Data.List.Infix
import Mathlib.Data.List.SplitOn

namespace Paths

/-- What stands between two slashes. -/
abbrev Segment := List Char

/-- The segment that goes up. -/
def up : Segment := ['.', '.']

/-- The segments of a text that mean something. -/
def segments (text : List Char) : List Segment :=
  (text.splitOn '/').filter fun s => !s.isEmpty && s != ['.']

/-- The text names a path from the root. -/
def isAbsolute (text : List Char) : Bool := text.head? == some '/'

/-- One segment further. -/
def enter (dir : List Segment) (s : Segment) : List Segment := if s = up then dir.dropLast else dir ++ [s]

/-- The directory or file that segments lead to. -/
def walk (dir : List Segment) (ss : List Segment) : List Segment := ss.foldl enter dir

/-- A text joined to a directory: an absolute one replaces it. -/
def join (dir : List Segment) (text : List Char) : List Segment :=
  if isAbsolute text then segments text else dir ++ segments text

variable {dir ss ss' : List Segment} {s : Segment} {text a b : List Char}

/-! ## Segments -/

/-- A slash separates. -/
theorem segments_slash (a b : List Char) : segments (a ++ '/' :: b) = segments a ++ segments b := by
  rw [segments, List.splitOn_append_cons_self, List.filter_append]
  rfl

theorem segments_single (hslash : '/' ∉ s) (hempty : s ≠ []) (hdot : s ≠ ['.']) :
    segments s = [s] := by
  rw [segments, List.splitOn_eq_singleton hslash]
  simp [hempty, hdot]

/-! ## Walking -/

@[simp] theorem walk_nil (dir : List Segment) : walk dir [] = dir := rfl

@[simp] theorem walk_cons : walk dir (s :: ss) = walk (enter dir s) ss := rfl

theorem walk_append : walk dir (ss ++ ss') = walk (walk dir ss) ss' := by
  rw [walk, walk, walk, List.foldl_append]

/-- None of the segments goes up. -/
def Names (ss : List Segment) : Prop := ∀ s ∈ ss, s ≠ up

theorem names_append : Names (ss ++ ss') ↔ Names ss ∧ Names ss' := by
  simp only [Names, List.mem_append]
  constructor
  · intro h
    exact ⟨fun s hs => h s (.inl hs), fun s hs => h s (.inr hs)⟩
  · rintro ⟨h, h'⟩ s (hs | hs)
    · exact h s hs
    · exact h' s hs

theorem walk_names (h : Names ss) : walk dir ss = dir ++ ss := by
  induction ss generalizing dir with
  | nil => simp
  | cons s ss ih =>
    have hs : s ≠ up := h s List.mem_cons_self
    rw [walk_cons, enter, if_neg hs, ih fun s' hs' => h s' (List.mem_cons_of_mem _ hs')]
    simp

/-- Wherever the segments lead, no segment of it goes up. -/
theorem names_walk (h : Names dir) (ss : List Segment) : Names (walk dir ss) := by
  induction ss generalizing dir with
  | nil => exact h
  | cons s ss ih =>
    apply ih
    unfold enter
    split
    · intro s' hs'
      exact h s' (List.mem_of_mem_dropLast hs')
    · rename_i hs
      rw [names_append]
      refine ⟨h, ?_⟩
      intro s' hs'
      rw [List.mem_singleton.mp hs']
      exact hs

/-- A directory is resolved as it stands. -/
theorem walk_join_relative (hdir : Names dir) (habsolute : isAbsolute text = false) :
    walk [] (join dir text) = walk dir (segments text) := by
  rw [join, habsolute, if_neg Bool.false_ne_true, walk_append, walk_names hdir, List.nil_append]

/-- A relative text is read in a directory however that one was written down. -/
theorem walk_join_join (dir : List Segment) (base : List Char) (habsolute : isAbsolute text = false) :
    walk [] (join (join dir base) text) = walk (walk [] (join dir base)) (segments text) := by
  rw [join, habsolute, if_neg Bool.false_ne_true, walk_append]

/-! ## Texts that stay below a directory -/

/-- A name a file system takes, and takes as it stands. -/
structure Plain (s : Segment) : Prop where
  slash : '/' ∉ s
  null : '\x00' ∉ s
  nonempty : s ≠ []
  here : s ≠ ['.']
  notUp : s ≠ up

/-- Names with slashes between them. -/
inductive Below : List Char → Prop
  | name {s : Segment} (h : Plain s) : Below s
  | slash {a : List Char} {s : Segment} (ha : Below a) (h : Plain s) : Below (a ++ '/' :: s)

namespace Below

theorem segments_name (h : Plain s) : segments s = [s] := segments_single h.slash h.nonempty h.here

theorem segments_slash (h : Plain s) : segments (a ++ '/' :: s) = segments a ++ [s] := by
  rw [Paths.segments_slash, segments_name h]

theorem nonempty (h : Below text) : text ≠ [] := by
  cases h with
  | name h => exact h.nonempty
  | slash ha h => simp

theorem relative (h : Below text) : isAbsolute text = false := by
  induction h with
  | @name s h =>
    cases s with
    | nil => rfl
    | cons c cs =>
      have hc : c ≠ '/' := by
        rintro rfl
        exact h.slash List.mem_cons_self
      simpa [isAbsolute] using hc
  | slash ha h ih =>
    rw [isAbsolute, List.head?_append_of_ne_nil _ ha.nonempty]
    exact ih

theorem names (h : Below text) : Names (segments text) := by
  induction h with
  | name h =>
    rw [segments_name h]
    intro s hs
    rw [List.mem_singleton.mp hs]
    exact h.notUp
  | slash ha h ih =>
    rw [segments_slash h, names_append]
    refine ⟨ih, ?_⟩
    intro s hs
    rw [List.mem_singleton.mp hs]
    exact h.notUp

theorem null (h : Below text) : '\x00' ∉ text := by
  induction h with
  | name h => exact h.null
  | slash ha h ih => simp [ih, h.null]

/-- Such a text is a path of its own names below the directory it is read in. -/
theorem walk_join (h : Below text) (hdir : Names dir) :
    walk [] (join dir text) = dir ++ segments text := by
  rw [walk_join_relative hdir h.relative, walk_names h.names]

end Below

end Paths
