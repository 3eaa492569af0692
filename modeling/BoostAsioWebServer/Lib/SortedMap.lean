/-
  File:      BoostAsioWebServer/Lib/SortedMap.lean
  Subject:   MAPS AS KEY-SORTED ENTRY LISTS (`std::map`).

  A map is its list of entries in iteration order; the order is strict, so a key occurs once. The
  order is a field of the structure: an unsorted map cannot be built.

  * `insert`: puts a pair in at its place, over the entry of an equal key;
  * `mem_insert`: the entries of the result;
  * `lookup`: the value of a key. `lookup_insert_self`, `lookup_insert_ne`: an insertion gives one
    key its value and leaves every other alone;
  * `ofList`: a map from pairs; `ofList_entries`: the entries of a map give it back.
-/
import Mathlib.Data.List.Sort

/-- A map in iteration order. -/
structure SortedMap (κ ν : Type*) [LinearOrder κ] where
  entries : List (κ × ν)
  sorted : entries.Pairwise (·.1 < ·.1)

namespace SortedMap

variable {κ ν : Type*} [LinearOrder κ]

/-! ## 1. Insertion -/

/-- The empty map. -/
def empty : SortedMap κ ν := ⟨[], .nil⟩

/-- The map has an entry with this key. -/
def contains (m : SortedMap κ ν) (k : κ) : Bool := m.entries.any (·.1 = k)

/-- Puts a pair at its place, over the entry of an equal key. -/
def insertEntry (k : κ) (v : ν) : List (κ × ν) → List (κ × ν)
  | [] => [(k, v)]
  | e :: es =>
    if k < e.1 then (k, v) :: e :: es
    else if k = e.1 then (k, v) :: es
    else e :: insertEntry k v es

theorem mem_insertEntry {k : κ} {v : ν} {es : List (κ × ν)} {e : κ × ν}
    (h : e ∈ insertEntry k v es) : e = (k, v) ∨ e ∈ es := by
  induction es with
  | nil => simpa [insertEntry] using h
  | cons a as ih =>
    unfold insertEntry at h
    split at h
    · exact List.mem_cons.mp h
    · split at h
      · rcases List.mem_cons.mp h with h | h
        · exact Or.inl h
        · exact Or.inr (List.mem_cons_of_mem _ h)
      · rcases List.mem_cons.mp h with h | h
        · exact Or.inr (h ▸ List.mem_cons_self)
        · exact (ih h).imp id (List.mem_cons_of_mem _)

theorem insertEntry_sorted (k : κ) (v : ν) {es : List (κ × ν)} (h : es.Pairwise (·.1 < ·.1)) :
    (insertEntry k v es).Pairwise (·.1 < ·.1) := by
  induction es with
  | nil => exact List.pairwise_singleton _ _
  | cons a as ih =>
    obtain ⟨ha, has⟩ := List.pairwise_cons.mp h
    unfold insertEntry
    split
    · rename_i hlt
      refine List.pairwise_cons.mpr ⟨fun e he => ?_, h⟩
      rcases List.mem_cons.mp he with rfl | he
      · exact hlt
      · exact hlt.trans (ha e he)
    · rename_i hnlt
      split
      · rename_i heq
        exact List.pairwise_cons.mpr ⟨fun e he => heq ▸ ha e he, has⟩
      · rename_i hne
        have hgt : a.1 < k := lt_of_le_of_ne (not_lt.mp hnlt) (Ne.symm hne)
        refine List.pairwise_cons.mpr ⟨fun e he => ?_, ih has⟩
        rcases mem_insertEntry he with rfl | he
        · exact hgt
        · exact ha e he

/-- Puts a pair in, over the entry of an equal key. -/
def insert (m : SortedMap κ ν) (k : κ) (v : ν) : SortedMap κ ν :=
  ⟨insertEntry k v m.entries, insertEntry_sorted k v m.sorted⟩

theorem mem_insert {m : SortedMap κ ν} {k : κ} {v : ν} {e : κ × ν}
    (h : e ∈ (m.insert k v).entries) : e = (k, v) ∨ e ∈ m.entries :=
  mem_insertEntry h

/-! ## 2. Lookups -/

/-- The value of a key. -/
def lookupEntry (k : κ) : List (κ × ν) → Option ν
  | [] => none
  | e :: es => if k = e.1 then some e.2 else lookupEntry k es

/-- The value of a key. -/
def lookup (m : SortedMap κ ν) (k : κ) : Option ν := lookupEntry k m.entries

theorem lookupEntry_insertEntry_self (k : κ) (v : ν) (es : List (κ × ν)) :
    lookupEntry k (insertEntry k v es) = some v := by
  induction es with
  | nil => simp [insertEntry, lookupEntry]
  | cons e es ih =>
    unfold insertEntry
    by_cases hlt : k < e.1
    · simp [hlt, lookupEntry]
    by_cases heq : k = e.1
    · simp [heq, lookupEntry]
    · simp only [hlt, heq, if_false, lookupEntry, ih]

theorem lookupEntry_insertEntry_ne {k k' : κ} (h : k' ≠ k) (v : ν) (es : List (κ × ν)) :
    lookupEntry k' (insertEntry k v es) = lookupEntry k' es := by
  induction es with
  | nil => simp [insertEntry, lookupEntry, h]
  | cons e es ih =>
    unfold insertEntry
    by_cases hlt : k < e.1
    · simp only [hlt, if_true, lookupEntry, h, if_false]
    by_cases heq : k = e.1
    · have hne : k' ≠ e.1 := fun he => h (he.trans heq.symm)
      simp only [heq, lt_irrefl, if_true, if_false, lookupEntry, hne]
    · simp only [hlt, heq, if_false, lookupEntry, ih]

/-- An insertion gives its key the value. -/
theorem lookup_insert_self (m : SortedMap κ ν) (k : κ) (v : ν) : (m.insert k v).lookup k = some v :=
  lookupEntry_insertEntry_self k v m.entries

/-- An insertion leaves every other key alone. -/
theorem lookup_insert_ne (m : SortedMap κ ν) {k k' : κ} (h : k' ≠ k) (v : ν) :
    (m.insert k v).lookup k' = m.lookup k' :=
  lookupEntry_insertEntry_ne h v m.entries

theorem lookupEntry_eq_none_iff {k : κ} {es : List (κ × ν)} :
    lookupEntry k es = none ↔ ∀ e ∈ es, e.1 ≠ k := by
  induction es with
  | nil => simp [lookupEntry]
  | cons e es ih =>
    by_cases h : k = e.1
    · simp [lookupEntry, h]
    · simp [lookupEntry, h, ih, Ne.symm h]

/-- Among different keys each has the value it stands with. -/
theorem lookupEntry_of_mem {k : κ} {v : ν} {es : List (κ × ν)} (hkeys : (es.map (·.1)).Nodup)
    (h : (k, v) ∈ es) : lookupEntry k es = some v := by
  induction es with
  | nil => cases h
  | cons e es ih =>
    rw [List.map_cons, List.nodup_cons] at hkeys
    rcases List.mem_cons.mp h with he | hes
    · rw [lookupEntry, ← he, if_pos rfl]
    · have hne : k ≠ e.1 := fun hk => hkeys.1 (hk ▸ List.mem_map_of_mem hes)
      rw [lookupEntry, if_neg hne, ih hkeys.2 hes]

/-- A key has no value exactly where the map does not contain it. -/
theorem lookup_eq_none_iff {m : SortedMap κ ν} {k : κ} :
    m.lookup k = none ↔ m.contains k = false := by
  rw [lookup, lookupEntry_eq_none_iff, contains, List.any_eq_false]
  simp

/-! ## 3. Maps from pairs -/

theorem eq_of_entries {m m' : SortedMap κ ν} (h : m.entries = m'.entries) : m = m' := by
  cases m
  cases m'
  cases h
  rfl

/-- The map of a list of pairs; a later pair replaces an earlier one of its key. -/
def ofList (es : List (κ × ν)) : SortedMap κ ν := es.foldl (fun m e => m.insert e.1 e.2) empty

/-- A key above all others goes to the end. -/
theorem insertEntry_above {k : κ} (v : ν) {es : List (κ × ν)} (h : ∀ e ∈ es, e.1 < k) :
    insertEntry k v es = es ++ [(k, v)] := by
  induction es with
  | nil => rfl
  | cons e es ih =>
    have he := h e List.mem_cons_self
    rw [insertEntry, if_neg he.le.not_gt, if_neg he.ne', ih fun x hx => h x (List.mem_cons_of_mem _ hx)]
    rfl

/-- **The entries of a map give it back.** -/
theorem ofList_entries (m : SortedMap κ ν) : ofList m.entries = m := by
  have hfold (es : List (κ × ν)) (m : SortedMap κ ν)
      (hsorted : (m.entries ++ es).Pairwise (·.1 < ·.1)) :
      (es.foldl (fun m e => m.insert e.1 e.2) m).entries = m.entries ++ es := by
    induction es generalizing m with
    | nil => exact (List.append_nil _).symm
    | cons e es ih =>
      have habove : ∀ x ∈ m.entries, x.1 < e.1 := fun x hx =>
        (List.pairwise_append.mp hsorted).2.2 x hx e List.mem_cons_self
      have hinsert : (m.insert e.1 e.2).entries = m.entries ++ [e] := insertEntry_above e.2 habove
      have hnext : ((m.insert e.1 e.2).entries ++ es).Pairwise (·.1 < ·.1) := by
        rw [hinsert, List.append_assoc]
        exact hsorted
      rw [List.foldl_cons, ih _ hnext, hinsert, List.append_assoc]
      rfl
  exact eq_of_entries (hfold m.entries empty m.sorted)

end SortedMap
