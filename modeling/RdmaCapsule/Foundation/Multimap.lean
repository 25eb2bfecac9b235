import Mathlib

/-! A map with several values for a key, as `std::multimap` keeps them: in the order of the
keys, a new one after those of the same key. An iterator stays valid until its own node is
erased; it is known here by a number that no two nodes share. -/
namespace RdmaCapsule.Foundation

variable {κ : Type u} {α : Type v} [LinearOrder κ]

structure Node (κ : Type u) (α : Type v) where
  it : Nat
  key : κ
  value : α

structure Multimap (κ : Type u) (α : Type v) [LinearOrder κ] where
  nodes : List (Node κ α)
  next : Nat
  sorted : nodes.Pairwise (·.key ≤ ·.key)
  nodup : (nodes.map (·.it)).Nodup
  fresh : ∀ node ∈ nodes, node.it < next

def Node.insert (node : Node κ α) : List (Node κ α) → List (Node κ α)
  | [] => [node]
  | first :: rest =>
      if node.key < first.key then node :: first :: rest else first :: node.insert rest

theorem Node.insert_perm (node : Node κ α) (nodes : List (Node κ α)) :
    (node.insert nodes).Perm (node :: nodes) := by
  induction nodes with
  | nil => exact .refl _
  | cons first rest ih =>
      rw [Node.insert]
      split
      · exact .refl _
      · exact (ih.cons first).trans (.swap node first rest)

theorem Node.sorted_insert (node : Node κ α) {nodes : List (Node κ α)}
    (h : nodes.Pairwise (·.key ≤ ·.key)) : (node.insert nodes).Pairwise (·.key ≤ ·.key) := by
  induction nodes with
  | nil => exact List.pairwise_singleton _ _
  | cons first rest ih =>
      obtain ⟨hfirst, hrest⟩ := List.pairwise_cons.mp h
      rw [Node.insert]
      split
      · rename_i hless
        refine List.pairwise_cons.mpr ⟨fun other hmem => ?_, h⟩
        rcases List.mem_cons.mp hmem with rfl | hmem
        · exact hless.le
        · exact hless.le.trans (hfirst other hmem)
      · rename_i hmore
        refine List.pairwise_cons.mpr ⟨fun other hmem => ?_, ih hrest⟩
        rcases List.mem_cons.mp ((node.insert_perm rest).mem_iff.mp hmem) with rfl | hmem
        · exact le_of_not_gt hmore
        · exact hfirst other hmem

namespace Multimap

variable {m m' : Multimap κ α} {node node' : Node κ α} {key : κ} {value : α} {it : Nat}

def empty : Multimap κ α := ⟨[], 0, .nil, .nil, nofun⟩

/-- The iterator of the new node is `m.next`. -/
def insert (m : Multimap κ α) (key : κ) (value : α) : Multimap κ α where
  nodes := Node.insert ⟨m.next, key, value⟩ m.nodes
  next := m.next + 1
  sorted := Node.sorted_insert _ m.sorted
  nodup := by
    refine (((Node.insert_perm ⟨m.next, key, value⟩ m.nodes).map (·.it)).nodup_iff).mpr ?_
    refine List.nodup_cons.mpr ⟨fun hmem => ?_, m.nodup⟩
    obtain ⟨node, hnode, hit⟩ := List.mem_map.mp hmem
    exact absurd (m.fresh node hnode) (by dsimp only at hit; omega)
  fresh node hmem := by
    rcases List.mem_cons.mp ((Node.insert_perm _ _).mem_iff.mp hmem) with rfl | hold
    · exact Nat.lt_succ_self _
    · exact Nat.lt_succ_of_lt (m.fresh node hold)

/-- The node of an iterator goes; there is none behind an iterator that is not valid. -/
def erase (m : Multimap κ α) (it : Nat) : Option (Multimap κ α) :=
  if m.nodes.any (·.it = it) then
    some {
      nodes := m.nodes.filter (·.it ≠ it)
      next := m.next
      sorted := m.sorted.filter _
      nodup := m.nodup.sublist (List.filter_sublist.map _)
      fresh := fun node hmem => m.fresh node (List.mem_of_mem_filter hmem) }
  else none

@[simp] theorem not_mem_empty : node ∉ (empty : Multimap κ α).nodes := List.not_mem_nil

theorem mem_insert : node ∈ (m.insert key value).nodes ↔
    node = ⟨m.next, key, value⟩ ∨ node ∈ m.nodes :=
  (Node.insert_perm _ _).mem_iff.trans List.mem_cons

theorem mem_erase (h : m.erase it = some m') :
    node ∈ m'.nodes ↔ node ∈ m.nodes ∧ node.it ≠ it := by
  unfold erase at h
  split at h
  · cases h
    simp
  · cases h

theorem erase_some (hmem : node ∈ m.nodes) : ∃ m', m.erase node.it = some m' := by
  unfold erase
  rw [if_pos (List.any_eq_true.mpr ⟨node, hmem, by simp⟩)]
  exact ⟨_, rfl⟩

theorem eq_of_it (hmem : node ∈ m.nodes) (hmem' : node' ∈ m.nodes) (h : node.it = node'.it) :
    node = node' :=
  List.inj_on_of_nodup_map m.nodup hmem hmem' h

/-- The first node has the least key. -/
theorem head_le {rest : List (Node κ α)} (h : m.nodes = node :: rest) (hmem : node' ∈ m.nodes) :
    node.key ≤ node'.key := by
  have hsorted := m.sorted
  rw [h] at hmem hsorted
  rcases List.mem_cons.mp hmem with rfl | hmem
  · exact le_refl _
  · exact (List.pairwise_cons.mp hsorted).1 node' hmem

end Multimap

end RdmaCapsule.Foundation
