/-!
# Entries in key order

Dictionaries are lists of entries in ascending order of their keys, each key once. Keys are ordered
by code points. `Entries.insert` keeps that order, and everything that builds a dictionary goes
through it.

* `get?_insert` — what is found after an insertion
* `Sorted.insert`, `Sorted.merge`, `sorted_ofList` — dictionaries stay in key order
* `Sorted.ext` — a dictionary is determined by what is found under each key
* `merge_merge` — merging is associative
-/

namespace CellScript

/-- Keys with what they stand for, in ascending key order. -/
abbrev Entries (α : Type) := List (String × α)

namespace Entries

variable {α : Type}

/-- The keys ascend strictly. -/
def Sorted (entries : Entries α) : Prop := entries.Pairwise fun a b => a.1 < b.1

/-- Puts a value under a key, replacing what stood there. -/
def insert (entries : Entries α) (key : String) (value : α) : Entries α :=
  match entries with
  | [] => [(key, value)]
  | (k, v) :: rest =>
    if key < k then (key, value) :: (k, v) :: rest
    else if key = k then (key, value) :: rest
    else (k, v) :: insert rest key value

/-- What stands under a key. -/
def get? (entries : Entries α) (key : String) : Option α :=
  (List.find? (fun entry => entry.1 == key) entries).map (·.2)

/-- Inserts all entries of the second collection; they override earlier ones. -/
def merge (entries more : Entries α) : Entries α :=
  more.foldl (fun acc entry => acc.insert entry.1 entry.2) entries

/-- Collects pairs in order; the last value of a key wins. -/
def ofList (pairs : List (String × α)) : Entries α := merge [] pairs

/-! ## Looking up -/

theorem get?_nil (key : String) : get? ([] : Entries α) key = none := rfl

theorem get?_cons (k : String) (v : α) (rest : Entries α) (key : String) :
    get? ((k, v) :: rest) key = if k = key then some v else get? rest key := by
  by_cases h : k = key
  · simp [get?, h]
  · simp [get?, h]

/-- An insertion is seen under its own key and nowhere else. -/
theorem get?_insert (entries : Entries α) (key other : String) (value : α) :
    (entries.insert key value).get? other =
      if key = other then some value else entries.get? other := by
  induction entries with
  | nil => rw [insert, get?_cons]
  | cons entry rest ih =>
    obtain ⟨k, v⟩ := entry
    rw [insert]
    split
    · rw [get?_cons]
    · split
      · next hk =>
        subst hk
        rw [get?_cons, get?_cons]
        split <;> rfl
      · next hk =>
        rw [get?_cons, get?_cons, ih]
        by_cases ho : k = other
        · rw [if_pos ho, if_pos ho, if_neg (fun h => hk (h.trans ho.symm))]
        · rw [if_neg ho, if_neg ho]

/-- Everything found is an entry. -/
theorem mem_of_get? {entries : Entries α} {key : String} {value : α}
    (h : entries.get? key = some value) : (key, value) ∈ entries := by
  induction entries with
  | nil => rw [get?_nil] at h; exact absurd h (by simp)
  | cons entry rest ih =>
    obtain ⟨k, v⟩ := entry
    rw [get?_cons] at h
    split at h
    · next hk => rw [← hk, Option.some.inj h]; exact List.mem_cons_self ..
    · exact List.mem_cons_of_mem _ (ih h)

/-! ## Order -/

/-- Two keys that are not in ascending order are equal or in descending order. -/
theorem lt_of_not_lt_of_ne {a b : String} (hlt : ¬ a < b) (hne : a ≠ b) : b < a := by
  grind

/-- The entries after an insertion are the new one and some of the old ones. -/
theorem mem_insert {entries : Entries α} {key : String} {value : α} {entry : String × α}
    (h : entry ∈ entries.insert key value) : entry = (key, value) ∨ entry ∈ entries := by
  induction entries with
  | nil => exact Or.inl (by simpa [insert] using h)
  | cons first rest ih =>
    obtain ⟨k, v⟩ := first
    rw [insert] at h
    split at h
    · exact List.mem_cons.mp h
    · split at h
      · rcases List.mem_cons.mp h with he | hm
        · exact Or.inl he
        · exact Or.inr (List.mem_cons_of_mem _ hm)
      · rcases List.mem_cons.mp h with he | hm
        · exact Or.inr (he ▸ List.mem_cons_self ..)
        · exact (ih hm).imp id (List.mem_cons_of_mem _)

theorem sorted_nil : Sorted ([] : Entries α) := List.Pairwise.nil

theorem Sorted.insert {entries : Entries α} (h : entries.Sorted) (key : String) (value : α) :
    (entries.insert key value).Sorted := by
  induction entries with
  | nil => exact List.pairwise_singleton ..
  | cons first rest ih =>
    obtain ⟨k, v⟩ := first
    obtain ⟨hhead, htail⟩ := List.pairwise_cons.mp h
    rw [Entries.insert]
    split
    · next hlt =>
      refine List.pairwise_cons.mpr ⟨fun entry hm => ?_, h⟩
      rcases List.mem_cons.mp hm with he | hr
      · rw [he]; exact hlt
      · exact String.lt_trans hlt (hhead entry hr)
    · next hlt =>
      split
      · next hk => exact List.pairwise_cons.mpr ⟨hk ▸ hhead, htail⟩
      · next hk =>
        refine List.pairwise_cons.mpr ⟨fun entry hm => ?_, ih htail⟩
        rcases mem_insert hm with he | hr
        · rw [he]; exact lt_of_not_lt_of_ne hlt hk
        · exact hhead entry hr

theorem Sorted.merge {entries : Entries α} (h : entries.Sorted) (more : Entries α) :
    (entries.merge more).Sorted := by
  induction more generalizing entries with
  | nil => exact h
  | cons entry rest ih => exact ih (h.insert entry.1 entry.2)

theorem sorted_ofList (pairs : List (String × α)) : (ofList pairs).Sorted :=
  sorted_nil.merge pairs

/-- The first key of a dictionary does not occur again. -/
theorem Sorted.get?_rest_eq_none {k : String} {v : α} {rest : Entries α}
    (h : Sorted ((k, v) :: rest)) : rest.get? k = none := by
  cases hfound : rest.get? k with
  | none => rfl
  | some w =>
    have hlt : k < k := (List.pairwise_cons.mp h).1 _ (mem_of_get? hfound)
    exact absurd hlt (String.lt_irrefl k)

/-- Entries of the second collection are found first. -/
theorem get?_merge {more : Entries α} (sorted : more.Sorted) (entries : Entries α) (key : String) :
    (entries.merge more).get? key = (more.get? key).or (entries.get? key) := by
  induction more generalizing entries with
  | nil => rfl
  | cons entry rest ih =>
    obtain ⟨k, v⟩ := entry
    change ((entries.insert k v).merge rest).get? key = _
    rw [ih (List.Pairwise.of_cons sorted), get?_insert, get?_cons]
    split
    · next same =>
      rw [← same, sorted.get?_rest_eq_none]
      rfl
    · rfl

/-- Under a key that stands before the first one there is nothing. -/
theorem Sorted.get?_eq_none_of_lt {k key : String} {v : α} {rest : Entries α}
    (h : Sorted ((k, v) :: rest)) (hlt : key < k) : get? ((k, v) :: rest) key = none := by
  cases hfound : get? ((k, v) :: rest) key with
  | none => rfl
  | some w =>
    rcases List.mem_cons.mp (mem_of_get? hfound) with he | hm
    · exact absurd ((Prod.mk.inj he).1 ▸ hlt) (String.lt_irrefl k)
    · exact absurd (String.lt_trans hlt ((List.pairwise_cons.mp h).1 _ hm)) (String.lt_irrefl key)

/-- **A dictionary is determined by what is found under each key.** -/
theorem Sorted.ext {left right : Entries α} (hl : left.Sorted) (hr : right.Sorted)
    (h : ∀ key, left.get? key = right.get? key) : left = right := by
  induction left generalizing right with
  | nil =>
    cases right with
    | nil => rfl
    | cons entry rest =>
      have hk := h entry.1
      rw [get?_nil, get?_cons, if_pos rfl] at hk
      exact absurd hk (by simp)
  | cons entry rest ih =>
    obtain ⟨k, v⟩ := entry
    cases right with
    | nil =>
      have hk := h k
      rw [get?_nil, get?_cons, if_pos rfl] at hk
      exact absurd hk (by simp)
    | cons other others =>
      obtain ⟨l, w⟩ := other
      have hkl : k = l := by
        by_cases heq : k = l
        · exact heq
        · exfalso
          by_cases hlt : k < l
          · have hk := h k
            rw [get?_cons, if_pos rfl, hr.get?_eq_none_of_lt hlt] at hk
            exact absurd hk (by simp)
          · have hk := h l
            rw [hl.get?_eq_none_of_lt (lt_of_not_lt_of_ne hlt heq), get?_cons, if_pos rfl] at hk
            exact absurd hk (by simp)
      subst hkl
      have hvw : v = w := by
        have hk := h k
        rw [get?_cons, get?_cons, if_pos rfl, if_pos rfl] at hk
        exact Option.some.inj hk
      subst hvw
      have hrest : rest = others := by
        refine ih (List.pairwise_cons.mp hl).2 (List.pairwise_cons.mp hr).2 fun key => ?_
        by_cases hkey : k = key
        · rw [← hkey, hl.get?_rest_eq_none, hr.get?_rest_eq_none]
        · have hk := h key
          rwa [get?_cons, get?_cons, if_neg hkey, if_neg hkey] at hk
      rw [hrest]

/-- An entry that overrides part of what is merged may be inserted before or after. -/
theorem merge_insert {entries more : Entries α} (sorted : entries.Sorted) (sortedMore : more.Sorted)
    (key : String) (value : α) :
    entries.merge (more.insert key value) = (entries.merge more).insert key value := by
  refine (sorted.merge _).ext ((sorted.merge _).insert key value) fun other => ?_
  rw [get?_merge (sortedMore.insert key value), get?_insert, get?_insert, get?_merge sortedMore]
  split <;> rfl

/-- Collections may be merged with each other before they are merged into a third. -/
theorem merge_merge {entries run : Entries α} (sorted : entries.Sorted) (sortedRun : run.Sorted)
    (more : Entries α) : entries.merge (run.merge more) = (entries.merge run).merge more := by
  induction more generalizing run with
  | nil => rfl
  | cons entry rest ih =>
    show entries.merge ((run.insert entry.1 entry.2).merge rest) =
      ((entries.merge run).insert entry.1 entry.2).merge rest
    rw [ih (sortedRun.insert entry.1 entry.2), merge_insert sorted sortedRun]

end Entries

end CellScript
