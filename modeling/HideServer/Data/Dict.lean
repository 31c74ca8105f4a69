import Mathlib.Data.List.Nodup
import Mathlib.Data.Option.Basic

/-!
# Dictionaries that keep their insertion order

The entries stand in the order their keys were first set, and no key is listed twice. For the objects
of JavaScript this takes for granted that no key is a name inherited from `Object.prototype`.
-/

structure Dict (κ ρ : Type) where
  entries : List (κ × ρ)
  nodup : (entries.map Prod.fst).Nodup
  deriving DecidableEq

namespace Dict

open List

variable {κ ρ : Type} [DecidableEq κ]

def empty : Dict κ ρ := ⟨[], nodup_nil⟩

variable (d : Dict κ ρ) (key : κ)

def get? : Option ρ :=
  (d.entries.find? fun entry => entry.1 = key).map Prod.snd

def keys : List κ := d.entries.map Prod.fst

def filter (p : κ → ρ → Bool) : Dict κ ρ where
  entries := d.entries.filter fun entry => p entry.1 entry.2
  nodup := d.nodup.sublist (filter_sublist.map Prod.fst)

def erase : Dict κ ρ := d.filter fun other _ => other ≠ key

def replaced (value : ρ) (entries : List (κ × ρ)) : List (κ × ρ) :=
  entries.map fun entry => if entry.1 = key then (key, value) else entry

theorem map_fst_replaced (value : ρ) (entries : List (κ × ρ)) :
    (replaced key value entries).map Prod.fst = entries.map Prod.fst := by
  unfold replaced
  rw [map_map]
  apply map_congr_left
  intro entry _
  simp only [Function.comp_apply]
  split_ifs with hkey
  · exact hkey.symm
  · rfl

def set (value : ρ) : Dict κ ρ :=
  if h : key ∈ d.entries.map Prod.fst then
    ⟨replaced key value d.entries, by rw [map_fst_replaced]; exact d.nodup⟩
  else
    ⟨d.entries ++ [(key, value)], by
      rw [map_append, nodup_append']
      refine ⟨d.nodup, nodup_singleton _, ?_⟩
      simpa using h⟩

def modify (f : ρ → ρ) : Dict κ ρ :=
  match d.get? key with
  | none => d
  | some value => d.set key (f value)

/-- Every value is changed. -/
def mapValues (f : ρ → ρ) : Dict κ ρ where
  entries := d.entries.map fun entry => (entry.1, f entry.2)
  nodup := by
    rw [map_map]
    exact d.nodup

theorem nodup_eraseDups : (keys : List κ) → keys.eraseDups.Nodup
  | [] => by simp
  | key :: keys => by
    rw [eraseDups_cons, nodup_cons]
    refine ⟨?_, nodup_eraseDups _⟩
    simp
termination_by keys => keys.length
decreasing_by
  have := length_filter_le (fun other => !other == key) keys
  simp only [length_cons]
  omega

variable {d : Dict κ ρ} {key : κ}

theorem mem_entries {value : ρ} : (key, value) ∈ d.entries ↔ d.get? key = some value := by
  unfold get?
  constructor
  · intro hmem
    obtain ⟨entry, hfind⟩ : ∃ entry, d.entries.find? (fun entry => entry.1 = key) = some entry := by
      rw [← Option.isSome_iff_exists, find?_isSome]
      exact ⟨(key, value), hmem, by simp⟩
    have hkey : entry.1 = key := by simpa using find?_some hfind
    have heq := inj_on_of_nodup_map d.nodup (mem_of_find?_eq_some hfind) hmem hkey
    rw [hfind, heq]
    rfl
  · intro hget
    obtain ⟨entry, hfind, rfl⟩ := Option.map_eq_some_iff.mp hget
    have hkey : entry.1 = key := by simpa using find?_some hfind
    subst hkey
    exact mem_of_find?_eq_some hfind

theorem mem_keys : key ∈ d.keys ↔ (d.get? key).isSome := by
  rw [Option.isSome_iff_exists]
  constructor
  · intro hmem
    obtain ⟨⟨_, value⟩, hentry, rfl⟩ := mem_map.mp hmem
    exact ⟨value, mem_entries.mp hentry⟩
  · rintro ⟨value, hget⟩
    exact mem_map.mpr ⟨(key, value), mem_entries.mpr hget, rfl⟩

@[simp] theorem get?_empty (key : κ) : (empty : Dict κ ρ).get? key = none := rfl

@[simp] theorem get?_filter (d : Dict κ ρ) (p : κ → ρ → Bool) (key : κ) :
    (d.filter p).get? key = (d.get? key).filter (p key) := by
  ext value
  rw [← mem_entries, Option.filter_eq_some_iff, ← mem_entries]
  simp [filter]

theorem get?_erase (d : Dict κ ρ) (key other : κ) :
    (d.erase key).get? other = if other = key then none else d.get? other := by
  unfold erase
  rw [get?_filter]
  split_ifs with h
  · simp [h]
  · cases d.get? other <;> simp [h]

theorem mem_replaced {key other : κ} {value found : ρ} {entries : List (κ × ρ)} (hkey : key ∈ entries.map Prod.fst) :
    (other, found) ∈ replaced key value entries ↔ if other = key then found = value else
    (other, found) ∈ entries := by
  unfold replaced
  rw [mem_map]
  constructor
  · rintro ⟨entry, hentry, heq⟩
    split_ifs at heq with hold
    · cases heq
      simp
    · subst heq
      rw [if_neg hold]
      exact hentry
  · intro h
    split_ifs at h with hother
    · obtain ⟨entry, hentry, hfst⟩ := mem_map.mp hkey
      exact ⟨entry, hentry, by simp [hfst, hother, h]⟩
    · exact ⟨(other, found), h, if_neg hother⟩

theorem get?_set (d : Dict κ ρ) (key : κ) (value : ρ) (other : κ) :
    (d.set key value).get? other = if other = key then some value else d.get? other := by
  ext found
  rw [← mem_entries]
  unfold set
  split_ifs with hkey hother hother
  · rw [mem_replaced hkey, if_pos hother, Option.some.injEq, eq_comm]
  · rw [mem_replaced hkey, if_neg hother, mem_entries]
  · subst hother
    have habsent : (other, found) ∉ d.entries := by
      intro hmem
      exact hkey (mem_map.mpr ⟨_, hmem, rfl⟩)
    simp [habsent, eq_comm]
  · simp [hother, mem_entries]

theorem set_eq_self {value : ρ} (h : d.get? key = some value) : d.set key value = d := by
  have hkey : key ∈ d.entries.map Prod.fst := mem_map.mpr ⟨_, mem_entries.mpr h, rfl⟩
  have hentries : replaced key value d.entries = d.entries.map id := by
    apply map_congr_left
    intro entry hentry
    split_ifs with hfst
    · rw [← hfst, mem_entries.mp (show (entry.1, entry.2) ∈ d.entries from hentry)] at h
      rw [← Option.some.inj h, ← hfst]
      rfl
    · rfl
  rw [map_id] at hentries
  unfold set
  rw [dif_pos hkey]
  congr

theorem modify_eq_self {f : ρ → ρ} (h : ∀ value ∈ d.get? key, f value = value) : d.modify key f = d := by
  unfold modify
  split
  · rfl
  · rename_i value hvalue
    rw [h value hvalue]
    exact set_eq_self hvalue

theorem get?_modify (d : Dict κ ρ) (key : κ) (f : ρ → ρ) (other : κ) :
    (d.modify key f).get? other = if other = key then (d.get? other).map f else d.get? other := by
  unfold modify
  split
  · split_ifs with hother
    · simp [*]
    · rfl
  · rw [get?_set]
    split_ifs with hother
    · simp [*]
    · rfl

theorem get?_mapValues (d : Dict κ ρ) (f : ρ → ρ) (key : κ) : (d.mapValues f).get? key = (d.get? key).map f := by
  unfold get? mapValues
  rw [find?_map, Option.map_map, Option.map_map]
  rfl

end Dict
