/-
Royd.Services.CategoryTree — `category_tree` of
`services/catalog_service.py`, node by node as it links them.

The code keeps a dict of nodes and appends each row's node to its parent's
children, so a node is named here by its id. The fold is worked out once
(`link_rows`): the roots are the rows without a parent, and beneath a node
hang the rows that name it, in the order of the rows.
-/
import Mathlib.Data.List.Sort
import Royd.Api.Replies
import Royd.Lib.Tables

namespace Royd

namespace Catalogue

/-! ## The tree -/

/-- A `CategoryTreeNode` under construction: its row, and the nodes appended
to its children. -/
structure Node where
  category : RequestCategory
  children : List Nat := []
  deriving DecidableEq, Repr

/-- The dict of nodes and the list of roots. -/
structure Tree where
  nodes : List Node
  roots : List Nat := []
  deriving DecidableEq, Repr

/-- `nodes[parent_id].children.append(node)`. -/
def appendChild (nodes : List Node) (parentId child : Nat) : List Node :=
  nodes.map fun n =>
    if n.category.id = parentId then { n with children := n.children ++ [child] } else n

/-- The body of the loop. -/
def Tree.link (tree : Tree) (r : RequestCategory) : Tree :=
  match r.parentId with
  | none => { tree with roots := tree.roots ++ [r.id] }
  | some parentId =>
    if tree.nodes.any (·.category.id == parentId) then
      { tree with nodes := appendChild tree.nodes parentId r.id }
    else
      -- The service's request type was retired and filtered out.
      tree

/-- The rows `category_tree` selects. -/
def categoryRows (collate : String → String → Bool) (db : Db) (includeInactive : Bool) :
    List RequestCategory :=
  (db.categories.filter fun r => includeInactive || r.isActive).insertionSort fun a b =>
    collate a.name b.name = true

/-- `category_tree`. -/
def categoryTree (collate : String → String → Bool) (db : Db) (includeInactive : Bool) : Tree :=
  let rows := categoryRows collate db includeInactive
  rows.foldl Tree.link { nodes := rows.map fun r => { category := r } }

namespace Tree

/-- `nodes[id]`. -/
def node? (tree : Tree) (id : Nat) : Option Node := tree.nodes.find? (·.category.id == id)

/-- The children of a node. -/
def childrenOf (tree : Tree) (id : Nat) : List Nat := ((tree.node? id).map (·.children)).getD []

/-- A node and what hangs beneath it, `depth` levels deep. -/
def below (tree : Tree) : Nat → Nat → List Nat
  | 0, id => [id]
  | depth + 1, id => id :: (tree.childrenOf id).flatMap (tree.below depth)

/-- Every place of the tree, `depth` levels below the roots. -/
def places (tree : Tree) (depth : Nat) : List Nat := tree.roots.flatMap (tree.below depth)

end Tree

/-! ## What the loop links -/

/-- The rows without a parent. -/
def rootIds (rows : List RequestCategory) : List Nat :=
  (rows.filter (·.parentId.isNone)).map (·.id)

/-- The rows that name this parent. -/
def childIds (rows : List RequestCategory) (id : Nat) : List Nat :=
  (rows.filter (·.parentId == some id)).map (·.id)

theorem rootIds_append (xs ys : List RequestCategory) :
    rootIds (xs ++ ys) = rootIds xs ++ rootIds ys := by
  simp [rootIds]

theorem childIds_append (xs ys : List RequestCategory) (id : Nat) :
    childIds (xs ++ ys) id = childIds xs id ++ childIds ys id := by
  simp [childIds]

/-- The node with the rows that name it appended. -/
def Node.adopt (rows : List RequestCategory) (n : Node) : Node :=
  { n with children := n.children ++ childIds rows n.category.id }

theorem Node.adopt_none {r : RequestCategory} {n : Node} (h : r.parentId ≠ some n.category.id) :
    n.adopt [r] = n := by
  simp [Node.adopt, childIds, h]

theorem link_eq (tree : Tree) (r : RequestCategory) :
    tree.link r
      = { nodes := tree.nodes.map (Node.adopt [r]), roots := tree.roots ++ rootIds [r] } := by
  have hkept : (∀ n ∈ tree.nodes, r.parentId ≠ some n.category.id) →
      tree.nodes.map (Node.adopt [r]) = tree.nodes := fun hnone => by
    rw [List.map_congr_left fun n hn => Node.adopt_none (hnone n hn), List.map_id']
  unfold Tree.link
  cases hparent : r.parentId with
  | none =>
    rw [hkept fun n _ => by rw [hparent]; exact nofun]
    simp [rootIds, hparent]
  | some parentId =>
    have hroots : rootIds [r] = [] := by simp [rootIds, hparent]
    dsimp only
    split
    · rw [hroots, List.append_nil]
      refine congrArg (Tree.mk · tree.roots) (List.map_congr_left fun n _ => ?_)
      split
      · rename_i heq
        simp [Node.adopt, childIds, hparent, heq]
      · rename_i hne
        refine (Node.adopt_none fun heq => hne ?_).symm
        rw [hparent] at heq
        cases heq
        rfl
    · rename_i habsent
      rw [hroots, List.append_nil, hkept]
      intro n hn heq
      rw [hparent] at heq
      refine habsent (List.any_eq_true.mpr ⟨n, hn, ?_⟩)
      cases heq
      simp

/-- The whole loop: roots in the order of the rows, and beneath each node
the rows that name it. -/
theorem link_rows (rows : List RequestCategory) (tree : Tree) :
    rows.foldl Tree.link tree
      = { nodes := tree.nodes.map (Node.adopt rows), roots := tree.roots ++ rootIds rows } := by
  induction rows generalizing tree with
  | nil =>
    have hid : Node.adopt [] = id := funext fun n => by simp [Node.adopt, childIds]
    simp [rootIds, hid]
  | cons r rest ih =>
    have hadopt : ∀ n : Node, (n.adopt [r]).adopt rest = n.adopt ([r] ++ rest) := fun n => by
      unfold Node.adopt
      rw [childIds_append, List.append_assoc]
    have hsplit : r :: rest = [r] ++ rest := rfl
    rw [List.foldl_cons, ih, link_eq, hsplit, rootIds_append, List.map_map, List.append_assoc]
    exact congrArg (Tree.mk · _) (List.map_congr_left fun n _ => hadopt n)

/-! ## Reading the tree -/

variable {collate : String → String → Bool} {db : Db} {includeInactive : Bool}

theorem mem_categoryRows {r : RequestCategory} : r ∈ categoryRows collate db includeInactive ↔
    r ∈ db.categories ∧ (includeInactive = true ∨ r.isActive = true) := by
  unfold categoryRows
  rw [List.mem_insertionSort, List.mem_filter, Bool.or_eq_true]

theorem categoryRows_ids (h : (db.categories.map (·.id)).Nodup) :
    ((categoryRows collate db includeInactive).map (·.id)).Nodup := by
  unfold categoryRows
  have hperm := List.perm_insertionSort (fun a b : RequestCategory => collate a.name b.name = true)
    (db.categories.filter fun r => includeInactive || r.isActive)
  exact (hperm.map _).nodup_iff.mpr (h.sublist (List.filter_sublist.map _))

@[simp] theorem categoryTree_roots : (categoryTree collate db includeInactive).roots
    = rootIds (categoryRows collate db includeInactive) := by
  simp [categoryTree, link_rows]

theorem categoryTree_nodes : (categoryTree collate db includeInactive).nodes
    = (categoryRows collate db includeInactive).map fun r =>
        { category := r, children := childIds (categoryRows collate db includeInactive) r.id } := by
  simp [categoryTree, link_rows, Node.adopt, Function.comp_def]

/-- The nodes of the dict are those of the rows. -/
theorem categoryTree_node? (id : Nat) : (categoryTree collate db includeInactive).node? id
    = ((categoryRows collate db includeInactive).find? (·.id == id)).map fun r =>
        { category := r, children := childIds (categoryRows collate db includeInactive) r.id } := by
  unfold Tree.node?
  rw [categoryTree_nodes, List.find?_map]
  rfl

/-- Beneath a row that is listed hang the rows that name it. -/
theorem categoryTree_childrenOf (h : (db.categories.map (·.id)).Nodup) {r : RequestCategory}
    (hr : r ∈ categoryRows collate db includeInactive) :
    (categoryTree collate db includeInactive).childrenOf r.id
      = childIds (categoryRows collate db includeInactive) r.id := by
  unfold Tree.childrenOf
  rw [categoryTree_node?, Tables.find?_of_mem (categoryRows_ids h) hr]
  rfl

/-- A node beneath another is that of a row that names it. -/
theorem mem_childrenOf (h : (db.categories.map (·.id)).Nodup) {id child : Nat} :
    child ∈ (categoryTree collate db includeInactive).childrenOf id ↔
      ∃ r ∈ categoryRows collate db includeInactive, r.id = id ∧
        ∃ c ∈ categoryRows collate db includeInactive, c.id = child ∧ c.parentId = some id := by
  have hchild : ∀ i, child ∈ childIds (categoryRows collate db includeInactive) i ↔
      ∃ c ∈ categoryRows collate db includeInactive, c.id = child ∧ c.parentId = some i := by
    intro i
    unfold childIds
    rw [List.mem_map]
    constructor
    · rintro ⟨c, hc, rfl⟩
      obtain ⟨hmem, hparent⟩ := List.mem_filter.mp hc
      exact ⟨c, hmem, rfl, by simpa using hparent⟩
    · rintro ⟨c, hmem, rfl, hparent⟩
      exact ⟨c, List.mem_filter.mpr ⟨hmem, by simpa using hparent⟩, rfl⟩
  constructor
  · intro hmem
    by_cases hlisted : ∃ r ∈ categoryRows collate db includeInactive, r.id = id
    · obtain ⟨r, hr, rfl⟩ := hlisted
      rw [categoryTree_childrenOf h hr] at hmem
      exact ⟨r, hr, rfl, (hchild r.id).mp hmem⟩
    · have habsent : ∀ r ∈ categoryRows collate db includeInactive, r.id ≠ id :=
        fun r hr heq => hlisted ⟨r, hr, heq⟩
      unfold Tree.childrenOf at hmem
      rw [categoryTree_node?, Tables.find?_absent habsent] at hmem
      cases hmem
  · rintro ⟨r, hr, rfl, hmem⟩
    rw [categoryTree_childrenOf h hr]
    exact (hchild r.id).mpr hmem

theorem mem_roots {id : Nat} : id ∈ (categoryTree collate db includeInactive).roots ↔
    ∃ r ∈ categoryRows collate db includeInactive, r.id = id ∧ r.parentId = none := by
  rw [categoryTree_roots]
  unfold rootIds
  rw [List.mem_map]
  constructor
  · rintro ⟨r, hr, rfl⟩
    obtain ⟨hmem, hroot⟩ := List.mem_filter.mp hr
    exact ⟨r, hmem, rfl, by simpa using hroot⟩
  · rintro ⟨r, hmem, rfl, hroot⟩
    exact ⟨r, List.mem_filter.mpr ⟨hmem, by simpa using hroot⟩, rfl⟩

/-! ## What is served -/

/-- The rows of nodes. -/
def Tree.rowsOf (tree : Tree) (ids : List Nat) : List RequestCategory :=
  ids.filterMap fun id => (tree.node? id).map (·.category)

/-- The tree as the response nests it. -/
def Tree.served (tree : Tree) : List Api.CategoryTreeNode :=
  (tree.rowsOf tree.roots).map fun root =>
    { category := root, children := tree.rowsOf (tree.childrenOf root.id) }

theorem rowsOf_ids (h : (db.categories.map (·.id)).Nodup) {rows : List RequestCategory}
    (hrows : ∀ r ∈ rows, r ∈ categoryRows collate db includeInactive) :
    (categoryTree collate db includeInactive).rowsOf (rows.map (·.id)) = rows := by
  unfold Tree.rowsOf
  rw [List.filterMap_map]
  have hself : ∀ r ∈ rows, (((categoryTree collate db includeInactive).node? r.id).map
      (·.category)) = some r := fun r hr => by
    rw [categoryTree_node?, Tables.find?_of_mem (categoryRows_ids h) (hrows r hr)]
    rfl
  exact (List.filterMap_congr hself).trans List.filterMap_some

/-- The tree an integration is served is this one. -/
theorem served_eq (h : (db.categories.map (·.id)).Nodup) :
    (categoryTree collate db false).served = Api.categoryTree collate db := by
  unfold Tree.served
  rw [categoryTree_roots, rootIds, rowsOf_ids h fun r hr => (List.mem_filter.mp hr).1]
  unfold Api.categoryTree
  refine List.map_congr_left fun root hroot => ?_
  rw [categoryTree_childrenOf h (List.mem_filter.mp hroot).1, childIds,
    rowsOf_ids h fun r hr => (List.mem_filter.mp hr).1]
  rfl

/-! ## What can be filed -/

/-- A service is resolved exactly if it is active beneath an active row, and
the type that was sent is its parent. -/
theorem resolveService_iff {serviceId : Nat} {serviceTypeId : Option Nat}
    {service : RequestCategory} :
    resolveService db serviceId serviceTypeId = .ok service ↔
      db.getCategory serviceId = some service ∧ service.isActive = true ∧
        ∃ parentId, service.parentId = some parentId ∧
          ∃ parent, db.getCategory parentId = some parent ∧ parent.isActive = true ∧
            (serviceTypeId = none ∨ serviceTypeId = some parent.id) := by
  constructor
  · intro h
    unfold resolveService at h
    split at h
    · cases h
    rename_i found hservice
    split at h
    · cases h
    rename_i hactive
    split at h
    · cases h
    rename_i parentId hparent
    split at h
    · cases h
    rename_i parent hfound
    split at h
    · cases h
    rename_i hopen
    split at h
    · cases h
    rename_i hagrees
    cases h
    refine ⟨hservice, not_not.mp hactive, parentId, hparent, parent, hfound, not_not.mp hopen, ?_⟩
    cases hsent : serviceTypeId with
    | none => exact .inl rfl
    | some sent =>
      rw [hsent] at hagrees
      exact .inr (not_not.mp fun hne => hagrees ⟨rfl, hne⟩)
  · rintro ⟨hservice, hactive, parentId, hparent, parent, hfound, hopen, hsent⟩
    have hagrees : ¬ (serviceTypeId.isSome = true ∧ serviceTypeId ≠ some parent.id) := by
      rintro ⟨hsome, hne⟩
      rcases hsent with rfl | hsame
      · cases hsome
      · exact hne hsame
    simp only [resolveService, hservice, hactive, hparent, hfound, hopen, not_true_eq_false,
      if_false, if_neg hagrees]

end Catalogue

end Royd
