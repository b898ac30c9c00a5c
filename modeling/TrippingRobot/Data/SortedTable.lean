import Mathlib.Data.List.Sort

/-! Tables with one row for each key, in increasing order of the keys. -/

namespace TrippingRobot.Data

universe u v
variable {κ : Type u} {β : Type v} [LinearOrder κ]

/-- The row of a key replaced by what `put` makes of it, or inserted at its
place if there is none. -/
def upsertRows (site : κ) (put : Option β → β) : List (κ × β) → List (κ × β)
  | [] => [(site, put none)]
  | row :: rest =>
    if site < row.1 then (site, put none) :: row :: rest
    else if row.1 = site then (site, put (some row.2)) :: rest
    else row :: upsertRows site put rest

/-- Only the row of the key changes or comes in. -/
theorem upsertRows_split (site : κ) (put : Option β → β) (rows : List (κ × β)) :
    ∃ first old last, rows = first ++ (Option.toList old).map (fun value => (site, value)) ++ last ∧
      upsertRows site put rows = first ++ (site, put old) :: last := by
  induction rows with
  | nil => exact ⟨[], none, [], rfl, rfl⟩
  | cons row rest ih =>
    simp only [upsertRows]
    split
    · exact ⟨[], none, row :: rest, rfl, rfl⟩
    · split
      · rename_i same
        exact ⟨[], some row.2, rest, by simp [← same], rfl⟩
      · obtain ⟨first, old, last, split, changed⟩ := ih
        exact ⟨row :: first, old, last, by simp [split], by simp [changed]⟩

@[ext]
structure SortedTable (κ : Type u) (β : Type v) [LinearOrder κ] where
  rows : List (κ × β)
  sorted : rows.Pairwise fun first second => first.1 < second.1

private theorem upsertRows_keys {site key : κ} {put : Option β → β} (rows : List (κ × β)) :
    (∃ row ∈ upsertRows site put rows, row.1 = key) ↔ key = site ∨ ∃ row ∈ rows, row.1 = key := by
  induction rows with
  | nil => simp [upsertRows, eq_comm]
  | cons row rest ih =>
    simp only [upsertRows]
    split
    · simp [eq_comm]
    · split
      · rename_i same
        simp [← same, eq_comm]
      · simp only [List.mem_cons, exists_eq_or_imp, ih]
        tauto

private theorem upsertRows_sorted (site : κ) (put : Option β → β) {rows : List (κ × β)}
    (sorted : rows.Pairwise fun first second => first.1 < second.1) :
    (upsertRows site put rows).Pairwise fun first second => first.1 < second.1 := by
  induction rows with
  | nil => simp [upsertRows]
  | cons row rest ih =>
    have ⟨above, restSorted⟩ := List.pairwise_cons.mp sorted
    simp only [upsertRows]
    split
    · rename_i below
      refine List.pairwise_cons.mpr ⟨?_, sorted⟩
      intro other member
      rcases List.mem_cons.mp member with rfl | member
      · exact below
      · exact below.trans (above other member)
    · split
      · rename_i same
        exact List.pairwise_cons.mpr ⟨by simpa [← same] using above, restSorted⟩
      · rename_i notBelow different
        refine List.pairwise_cons.mpr ⟨?_, ih restSorted⟩
        intro other member
        rcases (upsertRows_keys rest).mp ⟨other, member, rfl⟩ with same | ⟨kept, keptMember, same⟩
        · rw [same]
          exact lt_of_le_of_ne (not_lt.mp notBelow) different
        · rw [← same]
          exact above kept keptMember

namespace SortedTable

def upsert (table : SortedTable κ β) (site : κ) (put : Option β → β) : SortedTable κ β where
  rows := upsertRows site put table.rows
  sorted := upsertRows_sorted site put table.sorted

def lookup (table : SortedTable κ β) (key : κ) : Option β :=
  (table.rows.find? fun row => row.1 = key).map Prod.snd

variable {table other : SortedTable κ β} {site key : κ}

theorem mem_iff_lookup (table : SortedTable κ β) (row : κ × β) :
    row ∈ table.rows ↔ table.lookup row.1 = some row.2 := by
  obtain ⟨rows, sorted⟩ := table
  simp only [lookup]
  induction rows with
  | nil => simp
  | cons first rest ih =>
    have ⟨above, restSorted⟩ := List.pairwise_cons.mp sorted
    by_cases same : first.1 = row.1
    · have absent : row ∉ rest := fun member => (above row member).ne same
      rw [List.find?_cons_of_pos (by simpa using same)]
      simp [absent, Prod.ext_iff, same, eq_comm]
    · rw [List.find?_cons_of_neg (by simpa using same), ← ih restSorted, List.mem_cons]
      exact or_iff_right fun equal => same (equal ▸ rfl)

theorem ext_lookup (agree : ∀ key, table.lookup key = other.lookup key) : table = other := by
  have antisymm : Std.Antisymm fun first second : κ × β => first.1 < second.1 :=
    ⟨fun _ _ below above => absurd below above.asymm⟩
  have irrefl : Std.Irrefl fun first second : κ × β => first.1 < second.1 :=
    ⟨fun _ => lt_irrefl _⟩
  apply SortedTable.ext
  apply table.sorted.eq_of_mem_iff other.sorted
  intro row
  rw [mem_iff_lookup, mem_iff_lookup, agree]

theorem lookup_upsert (put : Option β → β) :
    (table.upsert site put).lookup key =
      if key = site then some (put (table.lookup site)) else table.lookup key := by
  obtain ⟨rows, sorted⟩ := table
  simp only [lookup, upsert]
  induction rows with
  | nil => by_cases same : key = site <;> simp [upsertRows, same, eq_comm]
  | cons row rest ih =>
    have ⟨above, restSorted⟩ := List.pairwise_cons.mp sorted
    have ih := ih restSorted
    simp only [upsertRows]
    split
    · rename_i below
      have absent : (row :: rest).find? (fun row => row.1 = site) = none := by
        rw [List.find?_eq_none]
        intro other member
        rcases List.mem_cons.mp member with rfl | member
        · simpa using below.ne'
        · simpa using (below.trans (above other member)).ne'
      rw [absent]
      by_cases same : key = site
      · simp [same]
      · simp [same, Ne.symm same, List.find?_cons]
    · split
      · rename_i same
        by_cases found : key = site
        · simp [found, same]
        · have different : row.1 ≠ key := fun equal => found (equal.symm.trans same)
          simp [found, Ne.symm found, different]
      · rename_i different
        by_cases found : row.1 = key
        · have other : key ≠ site := fun equal => different (found.trans equal)
          simp [found, other]
        · rw [List.find?_cons_of_neg (by simpa using found), ih]
          simp [different, found]

/-- Rows of different keys are put in any order. -/
private theorem upsert_comm_of_ne (different : site ≠ key) (put later : Option β → β) :
    (table.upsert site put).upsert key later = (table.upsert key later).upsert site put := by
  apply ext_lookup
  intro other
  simp only [lookup_upsert, different, different.symm, if_false]
  grind

private theorem upsert_comm_of_put {put later : Option β → β}
    (commute : ∀ old, later (some (put old)) = put (some (later old))) :
    (table.upsert site put).upsert site later = (table.upsert site later).upsert site put := by
  apply ext_lookup
  intro other
  simp only [lookup_upsert, if_true, commute]
  grind

/-- Every row changed in its place. -/
def mapValues (change : β → β) (table : SortedTable κ β) : SortedTable κ β where
  rows := table.rows.map fun row => (row.1, change row.2)
  sorted := List.pairwise_map.mpr table.sorted

@[simp] theorem lookup_mapValues (change : β → β) (table : SortedTable κ β) (key : κ) :
    (table.mapValues change).lookup key = (table.lookup key).map change := by
  simp only [lookup, mapValues, List.find?_map, Option.map_map, Function.comp_def]

theorem mapValues_mapValues (first second : β → β) (table : SortedTable κ β) :
    (table.mapValues first).mapValues second = table.mapValues (second ∘ first) := by
  apply SortedTable.ext
  simp [mapValues]

theorem mapValues_upsert {change : β → β} {put later : Option β → β}
    (same : ∀ old, change (put old) = later (old.map change)) (table : SortedTable κ β) (site : κ) :
    (table.upsert site put).mapValues change = (table.mapValues change).upsert site later := by
  apply ext_lookup
  intro key
  simp only [lookup_mapValues, lookup_upsert]
  split
  · rw [Option.map_some, same]
  · rfl

theorem lookup_cons_self {row : κ × β} {rest : List (κ × β)}
    (sorted : (row :: rest).Pairwise fun first second => first.1 < second.1) :
    lookup ⟨row :: rest, sorted⟩ row.1 = some row.2 :=
  (mem_iff_lookup ⟨row :: rest, sorted⟩ row).mp List.mem_cons_self

theorem lookup_cons_of_ne {row : κ × β} {rest : List (κ × β)}
    (sorted : (row :: rest).Pairwise fun first second => first.1 < second.1)
    (different : row.1 ≠ key) :
    lookup ⟨row :: rest, sorted⟩ key = lookup ⟨rest, sorted.of_cons⟩ key := by
  rw [lookup, List.find?_cons_of_neg (by simpa using different), lookup]

theorem lookup_of_below (below : ∀ row ∈ table.rows, key < row.1) : table.lookup key = none := by
  rw [lookup, Option.map_eq_none_iff, List.find?_eq_none]
  intro row member
  simpa using (below row member).ne'

/-- A list of changes that commute on each row gives one table in any order. -/
theorem foldl_upsert_perm {ι : Type*} {first second : List ι} (same : first.Perm second)
    (site : ι → κ) (put : ι → Option β → β)
    (commute : ∀ one two old, put two (some (put one old)) = put one (some (put two old)))
    (table : SortedTable κ β) :
    first.foldl (fun table change => table.upsert (site change) (put change)) table =
      second.foldl (fun table change => table.upsert (site change) (put change)) table := by
  apply same.foldl_eq'
  intro one _ two _ table
  by_cases equal : site one = site two
  · rw [equal]
    exact upsert_comm_of_put (commute one two)
  · exact upsert_comm_of_ne equal _ _

end SortedTable

theorem upsertRows_insert {site : κ} {before after : List (κ × β)}
    (below : ∀ row ∈ before, row.1 < site) (above : ∀ row ∈ after.head?, site < row.1)
    (put : Option β → β) :
    upsertRows site put (before ++ after) = before ++ (site, put none) :: after := by
  induction before with
  | nil =>
    cases after with
    | nil => rfl
    | cons row rest => simp [upsertRows, above row (by simp)]
  | cons row rest ih =>
    have smaller := below row (by simp)
    simp [upsertRows, smaller.asymm, smaller.ne, ih fun row member => below row (by simp [member])]

theorem upsertRows_replace {site : κ} {before after : List (κ × β)}
    (below : ∀ row ∈ before, row.1 < site) (put : Option β → β) (value : β) :
    upsertRows site put (before ++ (site, value) :: after) =
      before ++ (site, put (some value)) :: after := by
  induction before with
  | nil => simp [upsertRows]
  | cons row rest ih =>
    have smaller := below row (by simp)
    simp [upsertRows, smaller.asymm, smaller.ne, ih fun row member => below row (by simp [member])]

end TrippingRobot.Data
