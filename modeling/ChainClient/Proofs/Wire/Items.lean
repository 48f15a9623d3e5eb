import ChainClient.Proofs.Wire.Container
import Mathlib.Data.List.Forall2

/-!
# Items and what is made of them

Where something is made of each item of a list, the two lists stand side by side, item by item.
What holds of the items then passes from one list to the other, and the items are written as the
bytes that the other list gives.
-/

namespace ChainClient.Wire

section Related

variable {α : Type*} {β : Type*} {R : α → β → Prop} {xs : List α} {ys : List β}

theorem exists_mem_of_forall₂ (h : List.Forall₂ R xs ys) : ∀ x ∈ xs, ∃ y ∈ ys, R x y := by
  induction h with
  | nil => simp
  | cons hxy _ ih =>
    rintro x (_ | ⟨_, hx⟩)
    · exact ⟨_, List.mem_cons_self, hxy⟩
    · obtain ⟨y, hy, hR⟩ := ih x hx
      exact ⟨y, List.mem_cons_of_mem _ hy, hR⟩

theorem pairwise_of_forall₂ {S : α → α → Prop} {T : β → β → Prop} (h : List.Forall₂ R xs ys)
    (hpairs : ∀ {x x' y y'}, R x y → R x' y' → S x x' → T y y') (hxs : xs.Pairwise S) :
    ys.Pairwise T := by
  induction h with
  | nil => exact .nil
  | cons hxy hothers ih =>
    obtain ⟨hx, hxs⟩ := List.pairwise_cons.1 hxs
    refine List.pairwise_cons.2 ⟨fun y' hy' ↦ ?_, ih hxs⟩
    obtain ⟨x', hx', hxy'⟩ := exists_mem_of_forall₂ hothers.flip y' hy'
    exact hpairs hxy hxy' (hx x' hx')

end Related

variable {α β ε : Type} {xs : List α} {ys : List β}

/-- If a conversion of all elements succeeds, each element has its counterpart. -/
theorem forall₂_of_mapM {f : α → Except ε β} (h : xs.mapM f = .ok ys) :
    List.Forall₂ (fun x y ↦ f x = .ok y) xs ys := by
  induction xs generalizing ys with
  | nil =>
    obtain rfl := pure_eq_ok.1 h
    exact .nil
  | cons x xs ih =>
    rw [List.mapM_cons] at h
    obtain ⟨y, hy, h⟩ := bind_eq_ok.1 h
    obtain ⟨ys', hys, h⟩ := bind_eq_ok.1 h
    obtain rfl := pure_eq_ok.1 h
    exact .cons hy (ih hys)

theorem writeItems_of_forall₂ [Wire α] {f : β → Bytes}
    (h : List.Forall₂ (fun x y ↦ write x = .ok (f y)) xs ys) :
    writeItems xs = .ok (ys.flatMap f) := by
  induction h with
  | nil => rfl
  | cons hx _ ih => exact writeItems_cons.2 ⟨_, _, hx, ih, rfl⟩

end ChainClient.Wire
