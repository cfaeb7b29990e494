import Mathlib.Data.List.Nodup
import Mathlib.Data.Int.Order.Basic

/-!
# Tables with keys

Two kinds of relational tables, each carrying its constraint.  A `KeyedTable`
has a unique key: no two rows agree on it, and an insertion that would break
this is ignored.  An `AutoTable` numbers its rows itself: identifiers are
positive, handed out in increasing order and never reused.
-/

namespace MuduoChat

/-- Rows in insertion order, no two with the same key. -/
structure KeyedTable {Row Key : Type} (key : Row → Key) where
  rows : List Row
  unique : (rows.map key).Nodup

namespace KeyedTable

variable {Row Key : Type} {key : Row → Key}

instance : Membership Row (KeyedTable key) where
  mem table row := row ∈ table.rows

def empty : KeyedTable key := ⟨[], List.nodup_nil⟩

def HasKey (table : KeyedTable key) (value : Key) : Prop :=
  ∃ row ∈ table, key row = value

instance [DecidableEq Key] (table : KeyedTable key) (value : Key) :
    Decidable (table.HasKey value) :=
  inferInstanceAs (Decidable (∃ row ∈ table.rows, key row = value))

theorem not_hasKey_iff {table : KeyedTable key} {value : Key} :
    ¬ table.HasKey value ↔ value ∉ table.rows.map key := by
  simp only [HasKey, List.mem_map]
  rfl

/-- A key has one row. -/
theorem eq_of_key_eq {table : KeyedTable key} {first second : Row}
    (hfirst : first ∈ table) (hsecond : second ∈ table)
    (hkey : key first = key second) : first = second :=
  List.inj_on_of_nodup_map table.unique hfirst hsecond hkey

/-- Insertion that leaves the table alone when the key is taken. -/
def insertIgnore [DecidableEq Key] (table : KeyedTable key) (row : Row) :
    KeyedTable key :=
  if h : table.HasKey (key row) then table
  else
    { rows := table.rows ++ [row]
      unique := by
        rw [List.map_append, List.nodup_append]
        refine ⟨table.unique, by simp, ?_⟩
        rintro value hvalue other hother rfl
        simp only [List.map_cons, List.map_nil, List.mem_singleton] at hother
        subst hother
        exact not_hasKey_iff.mp h hvalue }

def update (table : KeyedTable key) (selected : Row → Bool)
    (change : Row → Row) (hchange : ∀ row, key (change row) = key row) :
    KeyedTable key where
  rows := table.rows.map fun row => if selected row then change row else row
  unique := by
    have hkeys : (table.rows.map fun row =>
        if selected row then change row else row).map key =
          table.rows.map key := by
      rw [List.map_map]
      refine List.map_congr_left fun row _ => ?_
      simp only [Function.comp_apply]
      split
      · exact hchange row
      · rfl
    rw [hkeys]
    exact table.unique

def delete (table : KeyedTable key) (selected : Row → Bool) :
    KeyedTable key where
  rows := table.rows.filter fun row => !selected row
  unique := table.unique.sublist (List.filter_sublist.map key)

@[simp] theorem not_mem_empty {row : Row} :
    row ∉ (empty : KeyedTable key) :=
  List.not_mem_nil

theorem mem_insertIgnore [DecidableEq Key] {table : KeyedTable key}
    {row other : Row} :
    other ∈ table.insertIgnore row ↔
      other ∈ table ∨ ¬ table.HasKey (key row) ∧ other = row := by
  unfold insertIgnore
  split
  · rename_i htaken
    simp [htaken]
  · rename_i hfree
    simp only [hfree, not_false_eq_true, true_and]
    exact List.mem_append.trans (or_congr_right List.mem_singleton)

theorem HasKey.insertIgnore [DecidableEq Key] {table : KeyedTable key}
    {value : Key} (hkey : table.HasKey value) (row : Row) :
    (table.insertIgnore row).HasKey value := by
  obtain ⟨other, hother, rfl⟩ := hkey
  exact ⟨other, mem_insertIgnore.mpr (.inl hother), rfl⟩

theorem hasKey_insertIgnore_self [DecidableEq Key] (table : KeyedTable key)
    (row : Row) : (table.insertIgnore row).HasKey (key row) := by
  by_cases htaken : table.HasKey (key row)
  · exact htaken.insertIgnore row
  · exact ⟨row, mem_insertIgnore.mpr (.inr ⟨htaken, rfl⟩), rfl⟩

theorem mem_update {table : KeyedTable key} {selected : Row → Bool}
    {change : Row → Row} {hchange : ∀ row, key (change row) = key row}
    {other : Row} :
    other ∈ table.update selected change hchange ↔
      ∃ row ∈ table,
        other = if selected row then change row else row := by
  refine List.mem_map.trans (exists_congr fun row => ?_)
  exact and_congr_right fun _ => eq_comm

theorem mem_delete {table : KeyedTable key} {selected : Row → Bool}
    {other : Row} :
    other ∈ table.delete selected ↔
      other ∈ table ∧ selected other = false := by
  refine List.mem_filter.trans (and_congr_right fun _ => ?_)
  simp

theorem hasKey_update {table : KeyedTable key} {selected : Row → Bool}
    {change : Row → Row} {hchange : ∀ row, key (change row) = key row}
    {value : Key} :
    (table.update selected change hchange).HasKey value ↔
      table.HasKey value := by
  constructor
  · rintro ⟨other, hother, hkey⟩
    obtain ⟨row, hrow, rfl⟩ := mem_update.mp hother
    have hsame : key row = value := by
      split at hkey
      · rwa [hchange] at hkey
      · exact hkey
    exact ⟨row, hrow, hsame⟩
  · rintro ⟨row, hrow, hkey⟩
    have hsame :
        key (if selected row then change row else row) = value := by
      split
      · rw [hchange, hkey]
      · exact hkey
    exact ⟨_, mem_update.mpr ⟨row, hrow, rfl⟩, hsame⟩

/-! ## Lookup by key -/

section Lookup

variable [DecidableEq Key] {table : KeyedTable key} {value : Key} {row : Row}

def get? (table : KeyedTable key) (value : Key) : Option Row :=
  table.rows.find? fun row => key row = value

theorem get?_eq_some : table.get? value = some row ↔
    row ∈ table ∧ key row = value := by
  constructor
  · intro hget
    have hkey : key row = value := by simpa using List.find?_some hget
    exact ⟨List.mem_of_find?_eq_some hget, hkey⟩
  · rintro ⟨hrow, rfl⟩
    cases hget : table.get? (key row) with
    | none =>
        have hnone := List.find?_eq_none.mp hget row hrow
        simp at hnone
    | some other =>
        have hkey : key other = key row := by
          simpa using List.find?_some hget
        have hother := List.mem_of_find?_eq_some hget
        rw [eq_of_key_eq hother hrow hkey]

theorem get?_eq_none : table.get? value = none ↔ ¬ table.HasKey value := by
  rw [not_hasKey_iff, get?, List.find?_eq_none, List.mem_map]
  simp

theorem get?_insertIgnore (added : Row) :
    (table.insertIgnore added).get? value =
      (table.get? value).or (if key added = value then some added
        else none) := by
  unfold insertIgnore
  split
  · rename_i htaken
    split
    · rename_i hkey
      cases hget : table.get? value with
      | none =>
          rw [get?_eq_none, ← hkey] at hget
          exact (hget htaken).elim
      | some row => rfl
    · exact (Option.or_none).symm
  · rw [get?, List.find?_append]
    congr 1
    by_cases hkey : key added = value <;> simp [hkey]

theorem get?_update {selected : Row → Bool} {change : Row → Row}
    {hchange : ∀ row, key (change row) = key row} :
    (table.update selected change hchange).get? value =
      (table.get? value).map fun row =>
        if selected row then change row else row := by
  have hkey (row : Row) :
      key (if selected row then change row else row) = key row := by
    split
    · exact hchange row
    · rfl
  rw [get?, update, List.find?_map, get?]
  congr 2
  funext row
  simp only [Function.comp_apply, hkey]

end Lookup

end KeyedTable

/-- Rows with the identifiers the table gave them, in insertion order. -/
structure AutoTable (Row : Type) where
  entries : List (Int × Row) := []
  next : Int := 1
  increasing : (entries.map Prod.fst).Pairwise (· < ·) := by simp
  fresh : ∀ entry ∈ entries, 0 < entry.1 ∧ entry.1 < next := by simp
  positive : 0 < next := by simp

namespace AutoTable

variable {Row : Type}

def empty : AutoTable Row := {}

def insert (table : AutoTable Row) (row : Row) : AutoTable Row where
  entries := table.entries ++ [(table.next, row)]
  next := table.next + 1
  increasing := by
    rw [List.map_append, List.pairwise_append]
    refine ⟨table.increasing, by simp, ?_⟩
    intro id hid other hother
    obtain ⟨entry, hentry, rfl⟩ := List.mem_map.mp hid
    simp only [List.map_cons, List.map_nil, List.mem_singleton] at hother
    rw [hother]
    exact (table.fresh entry hentry).2
  fresh := by
    intro entry hentry
    rcases List.mem_append.mp hentry with hmem | hmem
    · obtain ⟨hpos, hlt⟩ := table.fresh entry hmem
      exact ⟨hpos, by omega⟩
    · rw [List.mem_singleton] at hmem
      subst hmem
      exact ⟨table.positive, Int.lt_succ table.next⟩
  positive := by
    have hpos := table.positive
    omega

def update (table : AutoTable Row) (selected : Int → Row → Bool)
    (change : Row → Row) : AutoTable Row where
  entries := table.entries.map fun entry =>
    (entry.1, if selected entry.1 entry.2 then change entry.2 else entry.2)
  next := table.next
  increasing := by
    simpa [List.map_map, Function.comp_def] using table.increasing
  fresh := by
    intro entry hentry
    obtain ⟨other, hother, rfl⟩ := List.mem_map.mp hentry
    exact table.fresh other hother
  positive := table.positive

def get? (table : AutoTable Row) (id : Int) : Option Row :=
  (table.entries.find? fun entry => entry.1 = id).map Prod.snd

theorem mem_of_get? {table : AutoTable Row} {id : Int} {row : Row}
    (hget : table.get? id = some row) : (id, row) ∈ table.entries := by
  obtain ⟨entry, hfind, rfl⟩ := Option.map_eq_some_iff.mp hget
  have hid : entry.1 = id := by simpa using List.find?_some hfind
  rw [← hid]
  exact List.mem_of_find?_eq_some hfind

theorem get?_of_mem {table : AutoTable Row} {id : Int} {row : Row}
    (hrow : (id, row) ∈ table.entries) : table.get? id = some row := by
  have hunique : (table.entries.map Prod.fst).Nodup :=
    table.increasing.imp fun hlt => Int.ne_of_lt hlt
  cases hfind : table.entries.find? (fun entry => entry.1 = id) with
  | none =>
      have hnone := List.find?_eq_none.mp hfind _ hrow
      simp at hnone
  | some entry =>
      have hid : entry.1 = id := by simpa using List.find?_some hfind
      have hsame := List.inj_on_of_nodup_map hunique
        (List.mem_of_find?_eq_some hfind) hrow hid
      rw [get?, hfind, hsame]
      rfl

theorem isSome_get? {table : AutoTable Row} {id : Int} {row : Row}
    (hrow : (id, row) ∈ table.entries) : (table.get? id).isSome = true := by
  simp only [get?, Option.isSome_map, List.find?_isSome]
  exact ⟨_, hrow, by simp⟩

theorem get?_eq_none_of_next_le {table : AutoTable Row} {id : Int}
    (hid : table.next ≤ id) : table.get? id = none := by
  rw [get?, Option.map_eq_none_iff, List.find?_eq_none]
  intro entry hentry
  have hlt := (table.fresh entry hentry).2
  simp only [decide_eq_true_eq]
  omega

theorem get?_insert (table : AutoTable Row) (row : Row) (id : Int) :
    (table.insert row).get? id =
      if id = table.next then some row else table.get? id := by
  have hsplit : (table.insert row).get? id =
      (table.get? id).or (if table.next = id then some row else none) := by
    simp only [get?, insert, List.find?_append, List.find?_cons,
      List.find?_nil]
    by_cases hid : table.next = id <;>
      cases table.entries.find? (fun entry => entry.1 = id) <;> simp [hid]
  rw [hsplit]
  split
  · rename_i hid
    subst hid
    rw [get?_eq_none_of_next_le le_rfl]
    simp
  · rename_i hid
    rw [if_neg (Ne.symm hid), Option.or_none]

theorem get?_update (table : AutoTable Row) (selected : Int → Row → Bool)
    (change : Row → Row) (id : Int) :
    (table.update selected change).get? id =
      (table.get? id).map fun row =>
        if selected id row then change row else row := by
  have hkey : ((fun entry : Int × Row => decide (entry.1 = id)) ∘
      fun entry : Int × Row => (entry.1,
        if selected entry.1 entry.2 then change entry.2 else entry.2)) =
        fun entry : Int × Row => decide (entry.1 = id) := rfl
  rw [get?, update, List.find?_map, hkey, get?]
  cases hfind : table.entries.find? (fun entry => entry.1 = id) with
  | none => rfl
  | some entry =>
      have hid : entry.1 = id := by simpa using List.find?_some hfind
      simp [hid]

theorem update_eq_self {table : AutoTable Row} {selected : Int → Row → Bool}
    {change : Row → Row}
    (hsame : ∀ entry ∈ table.entries, selected entry.1 entry.2 = true →
      change entry.2 = entry.2) : table.update selected change = table := by
  have hentries : (table.entries.map fun entry => (entry.1,
      if selected entry.1 entry.2 then change entry.2 else entry.2)) =
        table.entries := by
    refine (List.map_congr_left fun entry hentry => ?_).trans
      (List.map_id' _)
    split
    · rename_i hselected
      rw [hsame entry hentry hselected]
    · rfl
  obtain ⟨entries, next, _, _, _⟩ := table
  simp only [update, mk.injEq, and_true]
  exact hentries

end AutoTable

end MuduoChat
