import Layad.Json
import Mathlib.Data.List.Sort

namespace Layad

/-!
# Objects as maps

`insert` and `toMap` build the members of an object in key order, one a key.  What can be
looked up in the result is what was put in (`lookup_toMap`), its keys are those that were
put in (`keys_toMap`), and they stand in order (`sorted_toMap`).
-/

namespace Json

/-- The keys of some members. -/
def keys {α : Type} (members : List (String × α)) : List String := members.map Prod.fst

/-- One member a key, in key order. -/
def Sorted (members : List (String × Json)) : Prop := (keys members).Pairwise (· < ·)

section Lookup

variable {α : Type} {k : String} {value : α} {members : List (String × α)}

/-- The first member of a key is found. -/
theorem lookup_cons (k key : String) (value : α) (rest : List (String × α)) :
    ((key, value) :: rest).lookup k = if k = key then some value else rest.lookup k := by
  by_cases h : k = key
  · rw [h, List.lookup_cons_self, if_pos rfl]
  · rw [List.lookup_cons, beq_false_of_ne h, if_neg h]

/-- A key that is not there is not found. -/
theorem lookup_eq_none (h : k ∉ keys members) : members.lookup k = none := by
  rw [List.lookup_eq_none_iff]
  intro m hm
  exact bne_iff_ne.mpr fun hk => h (hk ▸ List.mem_map_of_mem hm)

/-- With one member for each key, each is found. -/
theorem lookup_of_mem (h : (keys members).Nodup) (hm : (k, value) ∈ members) :
    members.lookup k = some value := by
  induction members with
  | nil => cases hm
  | cons m rest ih =>
    obtain ⟨k₀, v₀⟩ := m
    obtain ⟨hk, hrest⟩ := List.nodup_cons.mp h
    rw [lookup_cons]
    rcases List.mem_cons.mp hm with he | hmem
    · obtain ⟨rfl, rfl⟩ := Prod.mk.inj he
      rw [if_pos rfl]
    · have hne : k ≠ k₀ := by
        rintro rfl
        exact hk (List.mem_map.mpr ⟨_, hmem, rfl⟩)
      rw [if_neg hne, ih hrest hmem]

end Lookup

variable {key k : String} {value : Json} {members : List (String × Json)}

/-! ### One member -/

/-- What was put in is found, and the rest as before. -/
theorem lookup_insert (key : String) (value : Json) (members : List (String × Json)) (k : String) :
    (insert key value members).lookup k = if k = key then some value else members.lookup k := by
  induction members with
  | nil => rw [insert, lookup_cons]
  | cons m rest ih =>
    obtain ⟨k₀, v₀⟩ := m
    rw [insert]
    split
    · rw [lookup_cons]
    · split
      · rename_i h
        rw [lookup_cons, lookup_cons, ← h]
        by_cases hk : k = key
        · rw [if_pos hk, if_pos hk]
        · rw [if_neg hk, if_neg hk, if_neg hk]
      · rename_i h
        rw [lookup_cons, lookup_cons, ih]
        by_cases hk : k = k₀
        · rw [if_pos hk, if_pos hk, if_neg (fun he => h (he.symm.trans hk))]
        · rw [if_neg hk, if_neg hk]

/-- A new member is added to the others. -/
theorem perm_insert (h : key ∉ keys members) :
    (insert key value members).Perm ((key, value) :: members) := by
  induction members with
  | nil => exact List.Perm.refl _
  | cons m rest ih =>
    obtain ⟨k₀, v₀⟩ := m
    rw [keys, List.map_cons, List.mem_cons, not_or] at h
    rw [insert]
    split
    · exact List.Perm.refl _
    · rw [if_neg h.1]
      exact ((ih h.2).cons _).trans (List.Perm.swap _ _ _)

/-- Putting a member in adds its key. -/
theorem mem_keys_insert : k ∈ keys (insert key value members) ↔ k = key ∨ k ∈ keys members := by
  induction members with
  | nil => simp [insert, keys]
  | cons m rest ih =>
    obtain ⟨k₀, v₀⟩ := m
    simp only [keys] at ih
    rw [insert]
    split
    · simp [keys]
    · split
      · rename_i h
        simp [keys, h]
      · simp only [keys, List.map_cons, List.mem_cons, ih]
        tauto

/-- What is there was there, or was put in. -/
theorem mem_insert {m : String × Json} (h : m ∈ insert key value members) :
    m = (key, value) ∨ m ∈ members := by
  induction members with
  | nil => exact .inl (List.mem_singleton.mp h)
  | cons m₀ rest ih =>
    obtain ⟨k₀, v₀⟩ := m₀
    rw [insert] at h
    split at h
    · exact List.mem_cons.mp h
    · split at h
      · exact (List.mem_cons.mp h).imp_right (List.mem_cons_of_mem _)
      · rcases List.mem_cons.mp h with rfl | h
        · exact .inr List.mem_cons_self
        · exact (ih h).imp_right (List.mem_cons_of_mem _)

/-- A member is put in its place. -/
theorem sorted_insert (h : Sorted members) : Sorted (insert key value members) := by
  induction members with
  | nil => exact List.pairwise_singleton _ _
  | cons m rest ih =>
    obtain ⟨k₀, v₀⟩ := m
    obtain ⟨hhead, htail⟩ := List.pairwise_cons.mp h
    rw [insert]
    split
    · rename_i hlt
      refine List.pairwise_cons.mpr ⟨?_, h⟩
      intro k hk
      rcases List.mem_cons.mp hk with rfl | hk
      · exact hlt
      · exact String.lt_trans hlt (hhead k hk)
    · split
      · rename_i he
        exact List.pairwise_cons.mpr ⟨he ▸ hhead, htail⟩
      · rename_i hle hne
        refine List.pairwise_cons.mpr ⟨fun k hk => ?_, ih htail⟩
        rcases mem_keys_insert.mp hk with rfl | hk
        · exact String.not_le.mp fun hge => hne (String.le_antisymm hge (fun hlt => hle hlt))
        · exact hhead k hk

/-! ### All members -/

/-- **The members of an object are sorted by key.** -/
theorem sorted_toMap (members : List (String × Json)) : Sorted (toMap members) := by
  have hfold : ∀ map, Sorted map →
      Sorted (members.foldl (fun map m => insert m.1 m.2 map) map) := by
    induction members with
    | nil => exact fun map h => h
    | cons m rest ih => exact fun map h => ih _ (sorted_insert h)
  exact hfold [] List.Pairwise.nil

/-- Every member comes from the list. -/
theorem mem_toMap {m : String × Json} (h : m ∈ toMap members) : m ∈ members := by
  have hfold : ∀ map, m ∈ members.foldl (fun map m => insert m.1 m.2 map) map →
      m ∈ members ∨ m ∈ map := by
    clear h
    induction members with
    | nil => exact fun map h => .inr h
    | cons m₀ rest ih =>
      intro map h
      rcases ih _ h with h | h
      · exact .inl (List.mem_cons_of_mem _ h)
      · rcases mem_insert h with rfl | h
        · exact .inl List.mem_cons_self
        · exact .inr h
  exact (hfold [] h).resolve_right List.not_mem_nil

/-- Distinct members are put in order. -/
theorem perm_toMap (h : (keys members).Nodup) : (toMap members).Perm members := by
  have hfold : ∀ map, (∀ k ∈ keys members, k ∉ keys map) →
      (members.foldl (fun map m => insert m.1 m.2 map) map).Perm (members ++ map) := by
    induction members with
    | nil => exact fun map _ => List.Perm.refl _
    | cons m rest ih =>
      intro map hnew
      obtain ⟨k₀, v₀⟩ := m
      obtain ⟨hk, hrest⟩ := List.nodup_cons.mp h
      refine (ih hrest _ fun k hmem hin => ?_).trans ?_
      · rcases mem_keys_insert.mp hin with rfl | hin
        · exact hk hmem
        · exact hnew k (List.mem_cons_of_mem _ hmem) hin
      · refine ((perm_insert (hnew k₀ List.mem_cons_self)).append_left rest).trans ?_
        exact List.perm_middle
  simpa only [toMap, List.append_nil] using hfold [] (fun _ _ => List.not_mem_nil)

/-- Without duplicates the keys are those of the members. -/
theorem keys_toMap (h : (keys members).Nodup) : (keys (toMap members)).Perm (keys members) :=
  (perm_toMap h).map Prod.fst

/-- Without duplicates each key has the value it was given. -/
theorem lookup_toMap (h : (keys members).Nodup) (k : String) :
    (toMap members).lookup k = members.lookup k := by
  have hfold : ∀ map,
      (members.foldl (fun map m => insert m.1 m.2 map) map).lookup k =
        (members.lookup k).or (map.lookup k) := by
    induction members with
    | nil => exact fun map => rfl
    | cons m rest ih =>
      intro map
      obtain ⟨k₀, v₀⟩ := m
      obtain ⟨hk, hrest⟩ := List.nodup_cons.mp h
      rw [List.foldl_cons, ih hrest, lookup_insert, lookup_cons]
      by_cases he : k = k₀
      · rw [if_pos he, if_pos he, he, lookup_eq_none hk, Option.none_or, Option.some_or]
      · rw [if_neg he, if_neg he]
  rw [toMap, hfold, List.lookup_nil, Option.or_none]

end Json

end Layad
