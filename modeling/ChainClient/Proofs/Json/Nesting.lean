import ChainClient.Json.Basic

/-!
# How deep containers nest

A document that comes out of a text holds no container below a fixed number of levels. Every part
of a value is within the same number of levels, and what is held by an alternative within one less.
-/

namespace ChainClient.Json

/-- Containers nest that many levels at most. -/
def IsWithin : Nat → Json → Prop
  | 0, .arr _ => False
  | 0, .obj _ => False
  | depth + 1, .arr items => ∀ item ∈ items, IsWithin depth item
  | depth + 1, .obj members => ∀ member ∈ members, IsWithin depth member.2
  | _, _ => True

/-- The items of a list have one level less than the list. -/
theorem isWithin_arr {depth : Nat} {items : List Json} (h : IsWithin depth (.arr items)) :
    ∃ below, depth = below + 1 ∧ ∀ item ∈ items, IsWithin below item := by
  cases depth with
  | zero => cases h
  | succ below =>
    rw [IsWithin] at h
    exact ⟨below, rfl, h⟩

/-- The members of an object have one level less than the object. -/
theorem isWithin_obj {depth : Nat} {members : List (String × Json)}
    (h : IsWithin depth (.obj members)) :
    ∃ below, depth = below + 1 ∧ ∀ member ∈ members, IsWithin below member.2 := by
  cases depth with
  | zero => cases h
  | succ below =>
    rw [IsWithin] at h
    exact ⟨below, rfl, h⟩

/-- Pruning leaves nothing beyond the depth. -/
theorem isWithin_prune (depth : Nat) (j : Json) : IsWithin depth (prune depth j) := by
  induction depth generalizing j with
  | zero => cases j <;> simp [prune, IsWithin]
  | succ depth ih =>
    cases j with
    | arr items =>
      rw [prune, IsWithin]
      exact List.forall_mem_map.2 fun item _ ↦ ih item
    | obj members =>
      rw [prune, IsWithin]
      exact List.forall_mem_map.2 fun member _ ↦ ih member.2
    | _ => simp [prune, IsWithin]

theorem IsWithin.content {depth : Nat} {name : String} {content : Json}
    (h : IsWithin depth (.obj [(name, content)])) :
    ∃ below, depth = below + 1 ∧ IsWithin below content := by
  obtain ⟨below, rfl, hmembers⟩ := isWithin_obj h
  exact ⟨below, rfl, hmembers _ List.mem_cons_self⟩

theorem IsWithin.succ {depth : Nat} {j : Json} (h : IsWithin depth j) : IsWithin (depth + 1) j := by
  induction depth generalizing j with
  | zero => cases j <;> simp [IsWithin] at h ⊢
  | succ depth ih =>
    cases j with
    | arr items =>
      rw [IsWithin] at h ⊢
      exact fun item hitem ↦ ih (h item hitem)
    | obj members =>
      rw [IsWithin] at h ⊢
      exact fun member hmember ↦ ih (h member hmember)
    | _ => simp [IsWithin]

theorem IsWithin.mono {depth depth' : Nat} {j : Json} (h : IsWithin depth j)
    (hle : depth ≤ depth') : IsWithin depth' j := by
  induction hle with
  | refl => exact h
  | step _ ih => exact ih.succ

/-- Nothing is cut off. -/
theorem IsWithin.prune_eq {depth : Nat} {j : Json} (h : IsWithin depth j) : prune depth j = j := by
  induction depth generalizing j with
  | zero => cases j <;> simp [IsWithin] at h <;> rfl
  | succ depth ih =>
    cases j with
    | arr items =>
      rw [IsWithin] at h
      rw [prune, List.map_congr_left fun item hitem ↦ ih (h item hitem), List.map_id']
    | obj members =>
      rw [IsWithin] at h
      have hmembers : ∀ member ∈ members, (member.1, prune depth member.2) = member :=
        fun member hmember ↦ Prod.ext rfl (ih (h member hmember))
      rw [prune, List.map_congr_left hmembers, List.map_id']
    | _ => rfl

/-- A tagged alternative takes one level more than its content. -/
theorem isWithin_tagged {depth : Nat} {name : String} {content : Json} :
    IsWithin (depth + 1) (.obj [(name, content)]) ↔ IsWithin depth content := by
  rw [IsWithin, List.forall_mem_singleton]

theorem IsWithin.items {depth : Nat} {items : List Json} (h : IsWithin depth (.arr items)) :
    ∀ item ∈ items, IsWithin depth item := by
  obtain ⟨below, rfl, hitems⟩ := isWithin_arr h
  exact fun item hitem ↦ (hitems item hitem).succ

theorem IsWithin.members {depth : Nat} {members : List (String × Json)}
    (h : IsWithin depth (.obj members)) :
    ∀ member ∈ members, IsWithin depth member.2 := by
  obtain ⟨below, rfl, hmembers⟩ := isWithin_obj h
  exact fun member hmember ↦ (hmembers member hmember).succ

end ChainClient.Json
