import Mathlib.Data.List.AList

namespace KeyedMap

/-!
# Association lists under a map of their values

`mapValues f` applies `f` to every value and leaves the keys and their order alone, so every
operation on the keys commutes with it.
-/

variable {α : Type*} {β γ : Type*}

/-- `f` applied to every value. -/
def mapValues (f : β → γ) (s : AList fun _ : α => β) : AList fun _ : α => γ :=
  ⟨s.entries.map (.map id fun _ => f), s.nodupKeys.map₂ _ _⟩

@[simp] theorem entries_mapValues (f : β → γ) (s : AList fun _ : α => β) :
    (mapValues f s).entries = s.entries.map (.map id fun _ => f) := rfl

@[simp] theorem mapValues_empty (f : β → γ) :
    mapValues f (∅ : AList fun _ : α => β) = ∅ := rfl

@[simp] theorem keys_mapValues (f : β → γ) (s : AList fun _ : α => β) :
    (mapValues f s).keys = s.keys := List.map₂_keys _ _

variable [DecidableEq α]

theorem lookup_mapValues (f : β → γ) (s : AList fun _ : α => β) (a : α) :
    (mapValues f s).lookup a = (s.lookup a).map f := List.dlookup_map₂ a

/-- Deleting a key commutes with the map. -/
theorem kerase_map (f : β → γ) (a : α) (l : List (Σ _ : α, β)) :
    (l.map (.map id fun _ => f) : List (Σ _ : α, γ)).kerase a
      = (l.kerase a).map (.map id fun _ => f) := List.eraseP_map

theorem erase_mapValues (f : β → γ) (s : AList fun _ : α => β) (a : α) :
    (mapValues f s).erase a = mapValues f (s.erase a) := by
  apply AList.ext
  exact kerase_map f a s.entries

theorem insert_mapValues (f : β → γ) (s : AList fun _ : α => β) (a : α) (b : β) :
    (mapValues f s).insert a (f b) = mapValues f (s.insert a b) := by
  apply AList.ext
  rw [AList.entries_insert, entries_mapValues, entries_mapValues, AList.entries_insert,
    List.map_cons, kerase_map]
  rfl

end KeyedMap
