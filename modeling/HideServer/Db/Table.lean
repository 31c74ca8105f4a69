import Mathlib.Logic.Function.Basic
import Mathlib.Data.List.Basic
import Mathlib.Data.Option.Basic

/-!
# Tables with a generated key

A table maps generated keys to rows and knows the next key. Each operation of an object mapper is
described by the rows it leaves, key by key.
-/

namespace Db

open Function List

/-- Rows by key, and the next key. -/
structure Table (ρ : Type) where
  rows : Nat → Option ρ
  next : Nat
  absent : ∀ id, next ≤ id → rows id = none

namespace Table

variable {ρ : Type}

variable {p : ρ → Bool}

def empty : Table ρ := ⟨fun _ => none, 1, fun _ _ => rfl⟩

variable (table : Table ρ)

theorem lt_next {id : Nat} {row : ρ} (hrow : table.rows id = some row) : id < table.next := by
  by_contra hge
  rw [table.absent id (by omega)] at hrow
  simp at hrow

variable (table : Table ρ)

def matching (p : ρ → Bool) : List (Nat × ρ) :=
  (range table.next).filterMap fun id => ((table.rows id).filter p).map fun row => (id, row)

/-- One of the rows that match. Which one is up to the database: `choice` stands for what decides it. -/
def find? (p : ρ → Bool) (choice : Nat) : Option (Nat × ρ) :=
  (table.matching p)[choice % (table.matching p).length]?

def count (p : ρ → Bool) : Nat :=
  (range table.next).countP fun id => (table.rows id).any p

/-- Another row matches. -/
def others (id : Nat) (p : ρ → Bool) : Bool :=
  (range table.next).any fun key => key ≠ id && (table.rows key).any p

theorem mem_matching {table : Table ρ} {id : Nat} {row : ρ} :
    (id, row) ∈ table.matching p ↔ table.rows id = some row ∧ p row = true := by
  unfold matching
  rw [mem_filterMap]
  constructor
  · rintro ⟨key, -, hkey⟩
    rw [Option.map_eq_some_iff] at hkey
    obtain ⟨found, hfound, heq⟩ := hkey
    cases heq
    exact Option.filter_eq_some_iff.mp hfound
  · rintro ⟨hrow, hp⟩
    refine ⟨id, mem_range.mpr (table.lt_next hrow), ?_⟩
    rw [hrow, Option.filter_some_pos hp, Option.map_some]

theorem find?_some {table : Table ρ} {choice id : Nat} {row : ρ} (h : table.find? p choice = some (id, row)) :
    table.rows id = some row ∧ p row = true :=
  mem_matching.mp (mem_of_getElem? h)

theorem exists_find? {table : Table ρ} {id : Nat} {row : ρ} (hrow : table.rows id = some row) (hp : p row = true) :
    ∃ choice, table.find? p choice = some (id, row) := by
  obtain ⟨choice, hlt, hchoice⟩ := getElem_of_mem (mem_matching.mpr ⟨hrow, hp⟩)
  refine ⟨choice, ?_⟩
  rw [find?, Nat.mod_eq_of_lt hlt, getElem?_eq_getElem hlt, hchoice]

theorem find?_none {table : Table ρ} {choice : Nat} (h : table.find? p choice = none) {id : Nat} {row : ρ}
    (hrow : table.rows id = some row) : p row = false := by
  unfold find? at h
  rw [getElem?_eq_none_iff] at h
  by_contra hp
  have hmem : (id, row) ∈ table.matching p := mem_matching.mpr ⟨hrow, by simpa using hp⟩
  have hlt := Nat.mod_lt choice (length_pos_of_mem hmem)
  omega

theorem others_eq_false {table : Table ρ} {id : Nat} :
    table.others id p = false ↔ ∀ key row, table.rows key = some row → p row = true → key = id := by
  unfold others
  rw [any_eq_false]
  constructor
  · intro h key row hrow hp
    by_contra hne
    apply h key (mem_range.mpr (table.lt_next hrow))
    simp [hne, hrow, hp]
  · intro h key _ hother
    simp only [ne_eq, decide_not, Bool.and_eq_true, Bool.not_eq_true', decide_eq_false_iff_not,
      Option.any_eq_true] at hother
    obtain ⟨hne, row, hrow, hp⟩ := hother
    exact hne (h key row hrow hp)

theorem count_eq_zero {table : Table ρ} : table.count p = 0 ↔ ∀ id row, table.rows id = some row → p row = false := by
  unfold count
  rw [countP_eq_zero]
  constructor
  · intro h id row hrow
    have hid := h id (mem_range.mpr (table.lt_next hrow))
    rw [hrow] at hid
    simpa using hid
  · intro h id _
    cases hrow : table.rows id with
    | none => simp
    | some row => simp [h id row hrow]

def insert (row : ρ) : Table ρ where
  rows := update table.rows table.next (some row)
  next := table.next + 1
  absent id hid := by
    rw [update_of_ne (by omega)]
    exact table.absent id (by omega)

/-- Save an entity under a key it has already: an update, or an insert if the row has been deleted since. -/
def save (id : Nat) (row : ρ) : Table ρ where
  rows := update table.rows id (some row)
  next := max table.next (id + 1)
  absent key hkey := by
    rw [update_of_ne (by omega)]
    exact table.absent key (by omega)

def modify (p : ρ → Bool) (f : ρ → ρ) : Table ρ where
  rows id := (table.rows id).map fun row => if p row then f row else row
  next := table.next
  absent id hid := by rw [table.absent id hid, Option.map_none]

def delete (p : ρ → Bool) : Table ρ where
  rows id := (table.rows id).filter fun row => !p row
  next := table.next
  absent id hid := by rw [table.absent id hid, Option.filter_none]

@[simp] theorem rows_empty (id : Nat) : (empty : Table ρ).rows id = none := rfl

theorem rows_insert (row : ρ) (id : Nat) :
    (table.insert row).rows id = if id = table.next then some row else table.rows id :=
  update_apply ..

theorem rows_save (key : Nat) (row : ρ) (id : Nat) :
    (table.save key row).rows id = if id = key then some row else table.rows id :=
  update_apply ..

theorem rows_modify (p : ρ → Bool) (f : ρ → ρ) (id : Nat) :
    (table.modify p f).rows id = (table.rows id).map fun row => if p row then f row else row := rfl

theorem rows_delete (p : ρ → Bool) (id : Nat) :
    (table.delete p).rows id = (table.rows id).filter fun row => !p row := rfl

theorem count_insert (row : ρ) (p : ρ → Bool) :
    (table.insert row).count p = table.count p + if p row then 1 else 0 := by
  have hbefore : (range table.next).countP (fun id => ((table.insert row).rows id).any p) = table.count p := by
    refine countP_congr fun id hid => ?_
    rw [rows_insert, if_neg (Nat.ne_of_lt (mem_range.mp hid))]
  change (range (table.next + 1)).countP _ = _
  rw [range_succ, countP_append, hbefore]
  simp [rows_insert]

theorem count_delete_le (p q : ρ → Bool) : (table.delete q).count p ≤ table.count p := by
  refine countP_mono_left fun id _ hafter => ?_
  obtain ⟨row, hrow, hp⟩ := (Option.any_eq_true ..).mp hafter
  rw [(Option.filter_eq_some_iff.mp hrow).1]
  exact hp

theorem of_rows_delete {table : Table ρ} {id : Nat} {row : ρ} (h : (table.delete p).rows id = some row) :
    table.rows id = some row :=
  (Option.filter_eq_some_iff.mp h).1

end Table

end Db
