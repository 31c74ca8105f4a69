import HideServer.Manage.Effects
import HideServer.Async.Trace

/-!
# One owner per workspace

Every workspace has one owner unless an operation takes it away. Three can: an update, an invitation
that the owner accepts, and a user who leaves while the deletion is rolled back.
-/

namespace HideServer.Manage

open Async Trace Roster

def ExactlyOneOwner (s : Store) : Prop := s.roster.WellOwned

/-- An update that gets as far as replacing the members keeps the owner among them; the owner does not accept an
invitation; a user who leaves has every owned workspace deleted first. -/
def KeepsOwner (s : Store) : Op → Prop
  | .update uid data _ _ _ commits _ =>
    ∀ id members, data.id = some id → data.members = some members → reachesMembers s uid id data = true → commits = true →
      ∀ owner, s.roster.role id owner = some .owner → owner ∈ members
  | .accept inviteeId token _ _ choice' commits =>
    ∀ id, joining s inviteeId token choice' = some id → commits = true → s.roster.role id inviteeId ≠ some .owner
  | .deleteOwned uid _ commits leaves =>
    leaves = true → ∀ id uuid, s.roster.uuid id = some uuid → s.roster.role id uid = some .owner → commits uuid = true
  | _ => True

section

variable {s : Store} (hproper : s.roster.Proper) (howned : s.roster.WellOwned)

include howned

theorem owner_update (uid : String) (data : UpdateData) (ntfnIds : String → String)
    (sessions : Sessions) (choice : Nat) (commits saves : Bool) :
    ExactlyOneOwner (perform s (.update uid data ntfnIds sessions choice commits saves)) ↔
      KeepsOwner s (.update uid data ntfnIds sessions choice commits saves) := by
  unfold ExactlyOneOwner
  cases hid : data.id with
  | none => simp [perform, updateWorkspace, KeepsOwner, hid, howned]
  | some id =>
    rw [roster_update s uid data ntfnIds sessions choice commits saves hid]
    by_cases hreaches : reachesMembers s uid id data = true
    · have hexists : s.roster.uuid id ≠ none := by
        intro hnone
        simp [reachesMembers, uuid_eq_none_iff.mp hnone] at hreaches
      cases hmembers : data.members with
      | none => simp [KeepsOwner, keepAny, hid, hmembers, hreaches, howned]
      | some members =>
        cases commits with
        | false => simp [KeepsOwner, keepAny, hreaches, howned]
        | true =>
          have hkeep := wellOwned_keep_iff howned hexists members
          simpa [KeepsOwner, keepAny, hid, hmembers, hreaches] using hkeep
    · refine iff_of_true (by simpa [hreaches] using howned) ?_
      intro key members hkey _ hreaches'
      rw [hid] at hkey
      cases hkey
      exact absurd hreaches' hreaches

include hproper

theorem owner_accept (inviteeId : String) (token : Option InvitationToken) (sessions : Sessions)
    (choice choice' : Nat) (commits : Bool) :
    ExactlyOneOwner (perform s (.accept inviteeId token sessions choice choice' commits)) ↔
      KeepsOwner s (.accept inviteeId token sessions choice choice' commits) := by
  unfold ExactlyOneOwner
  rw [roster_accept]
  cases hjoining : joining s inviteeId token choice' with
  | none => simp [KeepsOwner, hjoining, howned]
  | some id =>
    cases commits with
    | false => simp [KeepsOwner, howned]
    | true =>
      by_cases hnamed : inviteeId = ""
      · simp [KeepsOwner, hnamed, hproper.named, howned]
      · have hjoin : (s.roster.join id inviteeId).WellOwned ↔ _ :=
          wellOwned_join_iff howned (uuid_of_joining hjoining)
        simpa [KeepsOwner, hjoining, hnamed] using hjoin

theorem owner_deleteOwned (uid : String) (sessions : Sessions) (commits : String → Bool) (leaves : Bool) :
    ExactlyOneOwner (perform s (.deleteOwned uid sessions commits leaves)) ↔
      KeepsOwner s (.deleteOwned uid sessions commits leaves) := by
  unfold ExactlyOneOwner
  rw [roster_deleteOwnedWorkspaces s hproper]
  cases leaves with
  | false => simp [KeepsOwner, wellOwned_dissolve howned]
  | true =>
    rw [if_pos rfl, wellOwned_depart_iff (wellOwned_dissolve howned)]
    simp only [KeepsOwner, forall_const]
    constructor
    · intro hnone id uuid huuid howner
      by_contra hfails
      apply hnone id
      · simp [dissolve, huuid, howner, hfails]
      · simp [dissolve, huuid, howner, hfails]
    · intro hcommits id hexists howner
      simp only [dissolve] at hexists howner
      split_ifs at hexists howner with hremains
      obtain ⟨uuid, huuid⟩ := Option.ne_none_iff_exists'.mp hexists
      apply hremains
      exact ⟨howner, by simp [huuid, hcommits id uuid huuid howner]⟩

/-- The case of one call. -/
theorem exactlyOneOwner_iff (op : Op) : ExactlyOneOwner (perform s op) ↔ KeepsOwner s op := by
  have hbecomes := becomes_perform hproper op
  cases op with
  | update uid data ntfnIds sessions choice commits saves => exact owner_update howned ..
  | accept inviteeId token sessions choice choice' commits => exact owner_accept hproper howned ..
  | deleteOwned uid sessions commits leaves => exact owner_deleteOwned hproper howned ..
  | create | invite | inviteAll | delete =>
    refine iff_of_true ?_ trivial
    unfold ExactlyOneOwner
    generalize (perform s _).roster = after at hbecomes ⊢
    cases hbecomes
    all_goals first
      | exact howned
      | exact wellOwned_dissolve howned
      | exact wellOwned_found hproper ‹_› howned

end

theorem proper_empty : Store.empty.roster.Proper :=
  ⟨fun _ => rfl, fun _ _ hrole => absurd rfl hrole, fun _ _ _ huuid => nomatch huuid⟩

theorem exactlyOneOwner_empty : ExactlyOneOwner .empty := fun _ hexists => absurd rfl hexists

/-- Every workspace has exactly one owner in every state reached if and only if no operation takes an owner away. -/
theorem exactlyOneOwner_run_iff (ops : List Op) :
    Always perform ExactlyOneOwner .empty ops ↔ Along perform KeepsOwner .empty ops := by
  rw [always_iff, and_iff_right exactlyOneOwner_empty]
  have hstep : ∀ s op, s.roster.Proper ∧ ExactlyOneOwner s → KeepsOwner s op →
      (perform s op).roster.Proper ∧ ExactlyOneOwner (perform s op) := by
    intro s op ⟨hproper, howned⟩ hkeeps
    exact ⟨proper_perform hproper op, (exactlyOneOwner_iff hproper howned op).mpr hkeeps⟩
  apply along_iff_of_invariant hstep
  · intro s op ⟨hproper, howned⟩
    exact exactlyOneOwner_iff hproper howned op
  · exact ⟨proper_empty, exactlyOneOwner_empty⟩

def noSessions : Sessions := fun _ => none

def demoUuid : String := "6ba7b810-9dad-11d1-80b4-00c04fd430c8"

/-- Alice creates a workspace. -/
def founded : List Op := [.create "alice" ⟨some "demo", "d", "node", false⟩ demoUuid true true]

def ownerNotListed : List Op :=
  founded ++ [.update "alice" ⟨some 1, none, none, some ["bob"]⟩ id noSessions 0 true true]

def ownerAccepts : List Op :=
  founded ++ [.accept "alice" (some ⟨some "alice", some demoUuid, some "n1"⟩) noSessions 0 0 true]

/-- The owner leaves, and the deletion of the workspace is rolled back. -/
def ownerLeaves : List Op := founded ++ [.deleteOwned "alice" noSessions (fun _ => false) true]

theorem not_exactlyOneOwner {s : Store} (id : Nat) (hrow : (s.workspaces.rows id).isSome = true)
    (hnone : (s.memberships.entries.all fun entry => decide (entry.2 ≠ .owner)) = true) : ¬ExactlyOneOwner s := by
  intro howned
  have hexists : s.roster.uuid id ≠ none := fun h => by simp [uuid_eq_none_iff.mp h] at hrow
  obtain ⟨uid, howner, -⟩ := howned id hexists
  have hentry := List.all_eq_true.mp hnone ((id, uid), .owner) (Dict.mem_entries.mpr howner)
  simp at hentry

theorem owner_lost : ¬Always perform ExactlyOneOwner .empty ownerNotListed ∧
    ¬Always perform ExactlyOneOwner .empty ownerAccepts ∧
    ¬Always perform ExactlyOneOwner .empty ownerLeaves := by
  refine ⟨?_, ?_, ?_⟩
  all_goals
    intro halways
    exact not_exactlyOneOwner 1 (by decide) (by decide) halways.final

end HideServer.Manage
