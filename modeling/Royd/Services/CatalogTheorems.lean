/-
Royd.Services.CatalogTheorems — the invariant of the catalogue: a service
that answers by itself has something to answer with. Every edit of the
catalogue keeps it, although only some of them look at the text.
-/
import Royd.Services.Catalog

namespace Royd

/-- A leaf that answers by itself has a visible answer. -/
def RequestCategory.Answerable (cat : RequestCategory) : Prop :=
  cat.parentId.isSome = true → cat.routing = .autoReply →
    blank (cat.autoReplyText.getD "") = false

/-- Every automatic service of the catalogue is answerable. -/
def CatalogueOk (db : Db) : Prop := ∀ cat ∈ db.categories, cat.Answerable

theorem clean_getD (text : Option String) : (clean text).getD "" = strip (text.getD "") := by
  unfold clean
  dsimp only
  split
  · rename_i h
    rw [beq_iff_eq] at h
    rw [h]
    rfl
  · rfl

theorem clean_isNone (text : Option String) :
    (clean text).isNone = true ↔ blank (text.getD "") = true := by
  unfold clean blank
  dsimp only
  split <;> simp_all

/-- A text that passes `_check_auto_reply` is visible. -/
theorem checkAutoReply_visible {routing : ServiceRouting} {text : Option String} {u : Unit}
    (h : checkAutoReply routing text = .ok u) (hauto : routing = .autoReply) :
    blank (text.getD "") = false := by
  unfold checkAutoReply at h
  rw [raise_eq_ok] at h
  rw [Bool.eq_false_iff]
  exact fun hblank => h ⟨hauto, (clean_isNone text).mpr hblank⟩

theorem putCategory_ok {db : Db} {cat : RequestCategory} (h : CatalogueOk db)
    (hcat : cat.Answerable) : CatalogueOk (db.putCategory cat) := by
  intro c hc
  obtain ⟨c₀, hc₀, rfl⟩ := List.mem_map.mp hc
  split
  · exact hcat
  · exact h c₀ hc₀

theorem buildCategory_ok {db db' : Db} {data : CategoryCreate} (h : CatalogueOk db)
    (hbuild : buildCategory db data = .ok db') : CatalogueOk db' := by
  unfold buildCategory at hbuild
  split at hbuild
  · -- A request type is no leaf.
    cases hbuild
    intro cat hcat
    rcases List.mem_append.mp hcat with hcat | hcat
    · exact h cat hcat
    · rw [List.mem_singleton.mp hcat]
      intro hleaf
      cases hleaf
  · obtain ⟨parent, _, hbuild⟩ := bind_eq_ok.mp hbuild
    obtain ⟨_, hcheck, hbuild⟩ := bind_eq_ok.mp hbuild
    obtain ⟨_, _, hbuild⟩ := bind_eq_ok.mp hbuild
    cases hbuild
    intro cat hcat
    rcases List.mem_append.mp hcat with hcat | hcat
    · exact h cat hcat
    · rw [List.mem_singleton.mp hcat]
      intro _ hauto
      dsimp only at hauto ⊢
      rw [clean_getD, blank_strip]
      exact checkAutoReply_visible hcheck hauto

/-- What becomes of the assignee has no part in the answer. -/
theorem settleAssignee_answerable {db : Db} {cat cat' : RequestCategory} {sent : Bool}
    (hcat : cat.Answerable) (h : settleAssignee db cat sent = .ok cat') : cat'.Answerable := by
  unfold settleAssignee at h
  split at h
  · cases hcheck : checkAssignee db cat.routing cat.assigneeId with
    | error e => simp [hcheck, Except.map] at h
    | ok u =>
      simp only [hcheck, Except.map, Except.ok.injEq] at h
      rwa [← h]
  · split at h
    · cases h
      exact hcat
    · cases h
      exact hcat

/-- A partial update leaves an answerable row: the row is checked as it
will be, and a row that is no leaf need not answer. -/
theorem applyCategoryUpdate_answerable {db : Db} {cat cat' : RequestCategory}
    {payload : CategoryUpdate} (h : applyCategoryUpdate db cat payload = .ok cat') :
    cat'.Answerable := by
  obtain ⟨_, _, h⟩ := bind_eq_ok.mp h
  obtain ⟨_, hcheck, h⟩ := bind_eq_ok.mp h
  refine settleAssignee_answerable (fun hleaf hauto => ?_) h
  unfold checkLeaf at hcheck
  rw [if_pos hleaf] at hcheck
  exact checkAutoReply_visible hcheck hauto

end Royd
