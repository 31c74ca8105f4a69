import HideServer.Manage.Service

/-!
# Rosters

Which workspaces exist, under which uuid, and who has which role in each. Whether every workspace still
has exactly one owner has an exact answer for each operation on a roster.
-/

namespace HideServer.Manage

@[ext] structure Roster where
  uuid : Nat → Option String
  role : Nat → String → Option Role

namespace Roster

/-- A workspace comes with its owner. -/
def found (r : Roster) (id : Nat) (uuid uid : String) : Roster where
  uuid key := if key = id then some uuid else r.uuid key
  role key user := if key = id ∧ user = uid then some .owner else r.role key user

/-- The other members go. -/
def keep (r : Roster) (id : Nat) (members : List String) : Roster where
  uuid := r.uuid
  role key user := if key = id ∧ user ∉ members then none else r.role key user

/-- A member comes, whatever role they had. -/
def join (r : Roster) (id : Nat) (uid : String) : Roster where
  uuid := r.uuid
  role key user := if key = id ∧ user = uid then some .member else r.role key user

/-- Workspaces go with their members. -/
def dissolve (r : Roster) (p : Nat → Prop) [DecidablePred p] : Roster where
  uuid key := if p key then none else r.uuid key
  role key user := if p key then none else r.role key user

/-- A user leaves every workspace. -/
def depart (r : Roster) (uid : String) : Roster where
  uuid := r.uuid
  role key user := if user = uid then none else r.role key user

/-- Every workspace has exactly one owner. -/
def WellOwned (r : Roster) : Prop := ∀ id, r.uuid id ≠ none → ∃! uid, r.role id uid = some .owner

/-- Roles are held by users with a name, in workspaces that exist, and no two of these have the same uuid. -/
structure Proper (r : Roster) : Prop where
  named : ∀ id, r.role id "" = none
  refers : ∀ id uid, r.role id uid ≠ none → r.uuid id ≠ none
  distinct : ∀ id id' uuid, r.uuid id = some uuid → r.uuid id' = some uuid → id = id'

section

variable {r : Roster} {id : Nat} {uid : String}

theorem proper_found (hproper : r.Proper) {uuid : String} (hnamed : uid ≠ "")
    (hunique : ∀ key, r.uuid key ≠ some uuid) : (r.found id uuid uid).Proper := by
  constructor
  · intro key
    have hother : ¬(key = id ∧ "" = uid) := fun h => hnamed h.2.symm
    simp only [found, if_neg hother]
    exact hproper.named key
  · intro key user hrole
    simp only [found] at hrole ⊢
    split_ifs with hkey
    · simp
    · rw [if_neg (by simp [hkey])] at hrole
      exact hproper.refers key user hrole
  · intro key key' uuid' hleft hright
    simp only [found] at hleft hright
    split_ifs at hleft hright with hkey hkey' hkey'
    · rw [hkey, hkey']
    · cases hleft
      exact absurd hright (hunique key')
    · cases hright
      exact absurd hleft (hunique key)
    · exact hproper.distinct key key' uuid' hleft hright

theorem wellOwned_found (hproper : r.Proper) (hfresh : r.uuid id = none) (howned : r.WellOwned) {uuid : String} :
    (r.found id uuid uid).WellOwned := by
  intro key hkey
  by_cases heq : key = id
  · subst heq
    refine ⟨uid, by simp [found], ?_⟩
    intro other hother
    by_contra hne
    simp only [found, true_and, if_neg hne] at hother
    exact hproper.refers key other (by simp [hother]) hfresh
  · simp only [found, heq, if_false, false_and] at hkey ⊢
    exact howned key hkey

theorem proper_keep (hproper : r.Proper) (members : List String) : (r.keep id members).Proper := by
  refine ⟨fun key => ?_, fun key user hrole => hproper.refers key user ?_, hproper.distinct⟩
  · simp [keep, hproper.named key]
  · intro hnone
    apply hrole
    simp [keep, hnone]

theorem wellOwned_keep_iff (howned : r.WellOwned) (hexists : r.uuid id ≠ none) (members : List String) :
    (r.keep id members).WellOwned ↔ ∀ owner, r.role id owner = some .owner → owner ∈ members := by
  constructor
  · intro hkept owner howner
    obtain ⟨kept, hrole, -⟩ := hkept id hexists
    simp only [keep, true_and] at hrole
    split_ifs at hrole with hmem
    obtain rfl := (howned id hexists).unique howner hrole
    exact hmem
  · intro hmembers key hkey
    obtain ⟨owner, howner, hunique⟩ := howned key hkey
    refine ⟨owner, ?_, ?_⟩
    · have hstays : ¬(key = id ∧ owner ∉ members) := by
        rintro ⟨rfl, hgone⟩
        exact hgone (hmembers owner howner)
      simp only [keep, if_neg hstays]
      exact howner
    · intro other hother
      apply hunique
      simp only [keep] at hother
      split_ifs at hother
      exact hother

theorem proper_join (hproper : r.Proper) (hnamed : uid ≠ "") (hexists : r.uuid id ≠ none) : (r.join id uid).Proper := by
  refine ⟨fun key => ?_, fun key user hrole => ?_, hproper.distinct⟩
  · have hother : ¬(key = id ∧ "" = uid) := fun h => hnamed h.2.symm
    simp only [join, if_neg hother]
    exact hproper.named key
  · simp only [join] at hrole ⊢
    split_ifs at hrole with hkey
    · rw [hkey.1]
      exact hexists
    · exact hproper.refers key user hrole

theorem wellOwned_join_iff (howned : r.WellOwned) (hexists : r.uuid id ≠ none) :
    (r.join id uid).WellOwned ↔ r.role id uid ≠ some .owner := by
  constructor
  · intro hjoined howner
    obtain ⟨owner, hrole, -⟩ := hjoined id hexists
    simp only [join, true_and] at hrole
    split_ifs at hrole with hsame
    · cases hrole
    · exact hsame ((howned id hexists).unique hrole howner)
  · intro hnot key hkey
    obtain ⟨owner, howner, hunique⟩ := howned key hkey
    refine ⟨owner, ?_, ?_⟩
    · have hother : ¬(key = id ∧ owner = uid) := by
        rintro ⟨rfl, rfl⟩
        exact hnot howner
      simp only [join, if_neg hother]
      exact howner
    · intro other hother
      simp only [join] at hother
      split_ifs at hother
      · cases hother
      · exact hunique other hother

variable {p : Nat → Prop} [DecidablePred p]

theorem dissolve_of_none (hnone : ∀ id, ¬p id) : r.dissolve p = r := by
  ext1 <;> simp [dissolve, hnone]

theorem dissolve_eq {q : Nat → Prop} [DecidablePred q] (h : ∀ id, p id ↔ q id) : r.dissolve p = r.dissolve q := by
  simp [dissolve, h]

theorem dissolve_dissolve (q : Nat → Prop) [DecidablePred q] :
    (r.dissolve p).dissolve q = r.dissolve fun id => p id ∨ q id := by
  ext1
  · funext key
    by_cases hp : p key <;> by_cases hq : q key <;> simp [dissolve, hp, hq]
  · funext key user
    by_cases hp : p key <;> by_cases hq : q key <;> simp [dissolve, hp, hq]

theorem proper_dissolve (hproper : r.Proper) : (r.dissolve p).Proper := by
  constructor
  · intro key
    simp [dissolve, hproper.named key]
  · intro key user hrole
    simp only [dissolve] at hrole ⊢
    split_ifs at hrole ⊢ with hp
    · exact absurd rfl hrole
    · exact hproper.refers key user hrole
  · intro key key' uuid hleft hright
    simp only [dissolve] at hleft hright
    split_ifs at hleft hright
    exact hproper.distinct key key' uuid hleft hright

theorem wellOwned_dissolve (howned : r.WellOwned) : (r.dissolve p).WellOwned := by
  intro key hkey
  simp only [dissolve] at hkey ⊢
  split_ifs at hkey ⊢ with hp
  · exact absurd rfl hkey
  · exact howned key hkey

theorem proper_depart (hproper : r.Proper) : (r.depart uid).Proper := by
  refine ⟨fun key => ?_, fun key user hrole => hproper.refers key user ?_, hproper.distinct⟩
  · simp [depart, hproper.named key]
  · intro hnone
    apply hrole
    simp [depart, hnone]

theorem wellOwned_depart_iff (howned : r.WellOwned) :
    (r.depart uid).WellOwned ↔ ∀ id, r.uuid id ≠ none → r.role id uid ≠ some .owner := by
  constructor
  · intro hdeparted id hexists howner
    obtain ⟨owner, hrole, -⟩ := hdeparted id hexists
    simp only [depart] at hrole
    split_ifs at hrole with hsame
    exact hsame ((howned id hexists).unique hrole howner)
  · intro hnot key hkey
    obtain ⟨owner, howner, hunique⟩ := howned key hkey
    refine ⟨owner, ?_, ?_⟩
    · have hother : owner ≠ uid := by
        rintro rfl
        exact hnot key hkey howner
      simp only [depart, if_neg hother]
      exact howner
    · intro other hother
      simp only [depart] at hother
      split_ifs at hother
      exact hunique other hother

end

end Roster

end HideServer.Manage
