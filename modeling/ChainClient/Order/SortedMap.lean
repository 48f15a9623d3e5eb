import ChainClient.Order.SortKey

/-!
# Maps in key order

A map is the list of its entries with strictly ascending keys, so equal maps are
equal lists. Inserting keeps the order and replaces the value of a key that is
there already.
-/

namespace ChainClient

structure SortedMap (α : Type) (key : α → List Int) (β : Type) where
  entries : List (α × β)
  ascending : entries.Pairwise fun p q ↦ key p.1 < key q.1

namespace SortedMap

variable {α β : Type} {key : α → List Int}

def empty : SortedMap α key β := ⟨[], .nil⟩

def contains (map : SortedMap α key β) (k : α) : Bool :=
  map.entries.any fun entry ↦ key entry.1 == key k

def insertEntry (key : α → List Int) (k : α) (v : β) : List (α × β) → List (α × β)
  | [] => [(k, v)]
  | (k', v') :: rest =>
    if key k < key k' then (k, v) :: (k', v') :: rest
    else if key k = key k' then (k, v) :: rest
    else (k', v') :: insertEntry key k v rest

theorem key_of_mem_insertEntry {k : α} {v : β} {entries : List (α × β)} {p : α × β}
    (h : p ∈ insertEntry key k v entries) : key p.1 = key k ∨ p ∈ entries := by
  induction entries with
  | nil => simp_all [insertEntry]
  | cons entry rest ih =>
    simp only [insertEntry] at h
    split at h
    · simp only [List.mem_cons] at h ⊢
      rcases h with rfl | h
      · exact .inl rfl
      · exact .inr h
    · split at h
      · simp only [List.mem_cons] at h ⊢
        rcases h with rfl | h
        · exact .inl rfl
        · exact .inr (.inr h)
      · simp only [List.mem_cons] at h ⊢
        rcases h with rfl | h
        · exact .inr (.inl rfl)
        · rcases ih h with h | h
          · exact .inl h
          · exact .inr (.inr h)

theorem insertEntry_ascending (k : α) (v : β) {entries : List (α × β)}
    (h : entries.Pairwise fun p q ↦ key p.1 < key q.1) :
    (insertEntry key k v entries).Pairwise fun p q ↦ key p.1 < key q.1 := by
  induction entries with
  | nil => simp [insertEntry]
  | cons entry rest ih =>
    obtain ⟨hhead, hrest⟩ := List.pairwise_cons.1 h
    simp only [insertEntry]
    split
    · rename_i hlt
      refine List.pairwise_cons.2 ⟨fun p hp ↦ ?_, h⟩
      rcases List.mem_cons.1 hp with rfl | hp
      · exact hlt
      · exact List.lt_trans hlt (hhead p hp)
    · split
      · rename_i heq
        exact List.pairwise_cons.2 ⟨fun p hp ↦ heq ▸ hhead p hp, hrest⟩
      · rename_i hnlt hne
        refine List.pairwise_cons.2 ⟨fun p hp ↦ ?_, ih hrest⟩
        rcases key_of_mem_insertEntry hp with hp | hp
        · rw [hp]
          exact Decidable.not_not.1 fun hngt ↦
            hne (List.le_antisymm (List.not_lt.1 hngt) (List.not_lt.1 hnlt))
        · exact hhead p hp

def insert (map : SortedMap α key β) (k : α) (v : β) : SortedMap α key β :=
  ⟨insertEntry key k v map.entries, insertEntry_ascending k v map.ascending⟩

def ofList (entries : List (α × β)) : SortedMap α key β :=
  entries.foldl (fun map entry ↦ map.insert entry.1 entry.2) empty

def get? (map : SortedMap α key β) (k : α) : Option β :=
  (map.entries.find? fun entry ↦ key entry.1 == key k).map (·.2)

theorem find?_insertEntry (k k' : α) (v : β) (entries : List (α × β)) :
    ((insertEntry key k v entries).find? fun entry ↦ key entry.1 == key k').map (·.2) =
      if key k = key k' then some v
      else (entries.find? fun entry ↦ key entry.1 == key k').map (·.2) := by
  induction entries with
  | nil => by_cases h : key k = key k' <;> simp [insertEntry, h]
  | cons entry rest ih =>
    simp only [insertEntry]
    split
    · by_cases h : key k = key k' <;> simp [List.find?_cons, h]
    · split
      · rename_i heq
        by_cases h : key k = key k' <;> simp [h, ← heq]
      · rename_i hne
        by_cases h : key entry.1 = key k'
        · simp [h, show key k ≠ key k' from fun hk ↦ hne (hk.trans h.symm)]
        · simp only [List.find?_cons, beq_eq_false_iff_ne.2 h]
          exact ih

theorem get?_insert (map : SortedMap α key β) (k k' : α) (v : β) :
    (map.insert k v).get? k' = if key k = key k' then some v else map.get? k' :=
  find?_insertEntry k k' v map.entries

end SortedMap

end ChainClient
