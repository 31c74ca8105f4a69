import HideServer.Manage.Owners

/-!
# Who may change what

The roster changes only at the hands of those who may change it. An invitation is the decoded token that
is handed in; one without a workspace counts for the row the database picks.
-/

namespace HideServer.Manage

open Async Trace

namespace Roster

structure ChangedBy (r : Roster) (actor : String) (joins : Nat → Prop) (after : Roster) : Prop where
  uuid (id : Nat) : after.uuid id = r.uuid id ∨
    (r.uuid id = none ∧ after.role id actor = some .owner) ∨ (after.uuid id = none ∧ r.role id actor = some .owner)
  role (id : Nat) (uid : String) : after.role id uid = r.role id uid ∨
    (after.role id uid = some .owner ∧ uid = actor ∧ r.uuid id = none) ∨
    (after.role id uid = some .member ∧ uid = actor ∧ joins id) ∨
    (after.role id uid = none ∧ (uid = actor ∨ r.role id actor = some .owner))

variable {r : Roster} {id : Nat} {actor : String} {joins : Nat → Prop}

theorem ChangedBy.refl (r : Roster) : r.ChangedBy actor joins r := ⟨fun _ => .inl rfl, fun _ _ => .inl rfl⟩

theorem changedBy_found (hfresh : r.uuid id = none) (uuid : String) : r.ChangedBy actor joins (r.found id uuid actor) := by
  constructor <;> grind [found]

theorem changedBy_keep (howner : r.role id actor = some .owner) (members : List String) :
    r.ChangedBy actor joins (r.keep id members) := by
  constructor <;> grind [keep]

theorem changedBy_join (hjoins : joins id) : r.ChangedBy actor joins (r.join id actor) := by
  constructor <;> grind [join]

variable {p : Nat → Prop} [DecidablePred p]

theorem changedBy_dissolve (howner : ∀ id, p id → r.role id actor = some .owner) :
    r.ChangedBy actor joins (r.dissolve p) := by
  constructor <;> grind [dissolve]

theorem changedBy_dissolve_depart (howner : ∀ id, p id → r.role id actor = some .owner) :
    r.ChangedBy actor joins ((r.dissolve p).depart actor) := by
  constructor <;> simp only [depart, dissolve] <;> grind

end Roster

/-- Who makes the call. -/
def Op.actor : Op → String
  | .create uid .. | .update uid .. | .invite uid .. | .inviteAll uid .. | .accept uid .. | .delete uid ..
  | .deleteOwned uid .. => uid

def Op.Joins (s : Store) : Op → Nat → Prop
  | .accept inviteeId token _ _ choice' _, id => joining s inviteeId token choice' = some id
  | _, _ => False

/-- What a call changes, its caller may change. -/
def Authorized (s : Store) (op : Op) : Prop := s.roster.ChangedBy op.actor (op.Joins s) (perform s op).roster

def NoAdmin (s : Store) : Prop := ∀ id uid, s.roster.role id uid ≠ some .admin

section

variable {s : Store} {op : Op} {id : Nat} {uid : String}

theorem NoAdmin.owner (h : NoAdmin s)
    (hlevel : (s.roster.role id uid).any (fun role => decide (Role.admin.level ≤ role.level)) = true) :
    s.roster.role id uid = some .owner := by
  obtain ⟨role, hrole, hlevel⟩ := (Option.any_eq_true ..).mp hlevel
  cases role with
  | member => exact absurd (of_decide_eq_true hlevel) (by decide)
  | admin => exact absurd hrole (h id uid)
  | owner => exact hrole

theorem Authorized.noAdmin (h : Authorized s op) (hadmin : NoAdmin s) : NoAdmin (perform s op) := by
  intro id uid
  have hrole := h.role id uid
  have hbefore := hadmin id uid
  grind

theorem Becomes.changedBy {after : Roster} (h : Becomes s op after) (hadmin : NoAdmin s) :
    s.roster.ChangedBy op.actor (op.Joins s) after := by
  cases h with
  | same => exact .refl _
  | found _ hfresh _ => exact Roster.changedBy_found hfresh _
  | kept members hreaches => exact Roster.changedBy_keep (hadmin.owner (Bool.and_eq_true_iff.mp hreaches).1) members
  | joined _ hjoining => exact Roster.changedBy_join hjoining
  | dissolved hallowed => exact Roster.changedBy_dissolve fun id h => hadmin.owner (hallowed id h)
  | stayed howned => exact Roster.changedBy_dissolve howned
  | left howned => exact Roster.changedBy_dissolve_depart howned

/-- The case of one call. -/
theorem authorized_perform (hproper : s.roster.Proper) (hadmin : NoAdmin s) (op : Op) : Authorized s op :=
  (becomes_perform hproper op).changedBy hadmin

end

/-- In every run from the empty store, each call is authorized, and nobody becomes an admin. -/
theorem authorized_run (ops : List Op) : Along perform Authorized .empty ops ∧ Always perform NoAdmin .empty ops := by
  have hstart : Store.empty.roster.Proper ∧ NoAdmin .empty := ⟨proper_empty, fun _ _ h => by cases h⟩
  have hstep (s : Store) (op : Op) (h : s.roster.Proper ∧ NoAdmin s) (_ : True) :
      (perform s op).roster.Proper ∧ NoAdmin (perform s op) :=
    ⟨proper_perform h.1 op, (authorized_perform h.1 h.2 op).noAdmin h.2⟩
  have hfree : Along perform (fun _ _ => True) .empty ops := along_of_forall fun _ _ => trivial
  exact ⟨along_of_invariant hstep (fun s op h _ => authorized_perform h.1 h.2 op) hstart hfree,
    always_of_invariant hstep (fun _ h => h.2) hstart hfree⟩

end HideServer.Manage
