import HideServer.User.Profile
import HideServer.Async.Trace

/-!
# Whose profile a document is

A registration looks only for a document of the user's own, and replaces whatever has the username; so
does a new username, and leaves the first document.
-/

namespace HideServer.User

open Async Async.Prog Cache Trace Dict

/-- The id of a document is its username. -/
def Users.Keyed (users : Users) : Prop :=
  ∀ id profile, users.get? id = some profile → profile.username = id

/-- No user has two documents. -/
def Users.Single (users : Users) : Prop :=
  ∀ id id' profile profile', users.get? id = some profile → users.get? id' = some profile' →
    profile.uid = profile'.uid → id = id'

/-- Where the documents differ, they are the user's, before and after. -/
def OwnOnly (uid : String) (before after : Users) : Prop :=
  ∀ id, after.get? id ≠ before.get? id →
    ∀ profile, before.get? id = some profile ∨ after.get? id = some profile → profile.uid = uid

/-- The call leaves the documents of the other users alone. -/
def SparesOthers (s : Store) (op : Op) : Prop := OwnOnly op.uid s.users (step s op).users

def Op.registers : Op → Option String
  | .create _ data .. => given data.username
  | .update .. | .delete .. => none

def Op.renames : Op → Option String
  | .update _ data .. => given data.username
  | .create .. | .delete .. => none

/-- The call goes through. -/
def accepted (s : Store) (op : Op) : Bool := (run exec (program op) s).1.isOk

/-- Of the calls that go through, none registers with the username of another user's document, and none changes the
username of a document. -/
structure Undisputed (s : Store) (op : Op) : Prop where
  untaken : accepted s op = true → ∀ profile ∈ op.registers.bind s.users.get?, profile.uid = op.uid
  kept : accepted s op = true → ∀ username ∈ op.renames, ∀ profile ∈ s.users.of op.uid, profile.username = username

instance (s : Store) (op : Op) : Decidable (Undisputed s op) :=
  decidable_of_iff ((accepted s op = true → ∀ profile ∈ op.registers.bind s.users.get?, profile.uid = op.uid) ∧
    (accepted s op = true → ∀ username ∈ op.renames, ∀ profile ∈ s.users.of op.uid, profile.username = username))
    ⟨fun h => ⟨h.1, h.2⟩, fun h => ⟨h.untaken, h.kept⟩⟩

/-- What a call can do to the documents; only one that goes through does anything. -/
inductive Writes (users : Users) (op : Op) : Bool → Users → Prop where
  | nothing {ok : Bool} : Writes users op ok users
  | created (profile : Profile) (huid : profile.uid = op.uid) (hname : op.registers = some profile.username)
      (hnew : users.of op.uid = []) : Writes users op true (users.set profile.username profile)
  | renamed (old new : Profile) (hold : old ∈ users.of op.uid) (hname : op.renames = some new.username)
      (hother : new.username ≠ old.username) : Writes users op true (users.set new.username new)
  | changed (old : Profile) (changes : Changes) (hold : old ∈ users.of op.uid)
      (hsame : (changes.apply old).username = old.username) :
      Writes users op true (users.modify old.username changes.apply)
  | deleted (old : Profile) (hold : old ∈ users.of op.uid) : Writes users op true (users.erase old.username)

theorem mem_of {users : Users} {uid : String} {profile : Profile} :
    profile ∈ users.of uid ↔ profile.uid = uid ∧ ∃ id, users.get? id = some profile := by
  constructor
  · intro hmem
    obtain ⟨⟨id, found⟩, hentry, rfl⟩ := List.mem_map.mp hmem
    obtain ⟨hentry, huid⟩ := List.mem_filter.mp hentry
    exact ⟨of_decide_eq_true huid, id, mem_entries.mp hentry⟩
  · rintro ⟨huid, id, hget⟩
    exact List.mem_map.mpr ⟨(id, profile), List.mem_filter.mpr ⟨mem_entries.mpr hget, decide_eq_true huid⟩, rfl⟩

theorem writes_createUser (s : Store) (user : Profile) (data : CreateData) (provided : Option Bool)
    (expiry : String) (stored : Bool) :
    Writes s.users (.create user data provided expiry stored)
      (run exec (createUser user data provided expiry stored) s).1.isOk
      (run exec (createUser user data provided expiry stored) s).2.users := by
  unfold createUser validateCreateUser
  split
  · exact .nothing
  · rename_i name username hvalid
    have hname : given data.username = some username := by
      split at hvalid
      · split_ifs at hvalid
        cases hvalid
        assumption
      · cases hvalid
    simp only [perform_bind, run_await]
    split
    · exact .nothing
    · rename_i hcount
      have hnew : s.users.of user.uid = [] := List.eq_nil_of_length_eq_zero (not_not.mp hcount)
      cases provided with
      | none => exact .nothing
      | some provided =>
        cases stored with
        | false => exact .nothing
        | true => exact .created (registered user name username data provided expiry) rfl hname hnew

theorem writes_deleteUser (s : Store) (uid : String) (choice : Nat) (stored : Bool) :
    Writes s.users (.delete uid choice stored) (run exec (deleteUser uid choice stored) s).1.isOk
      (run exec (deleteUser uid choice stored) s).2.users := by
  unfold deleteUser
  simp only [perform_bind, run_await, exec]
  split
  · exact .nothing
  · rename_i profile hfound
    cases stored with
    | false => exact .nothing
    | true => exact .deleted profile (List.mem_of_getElem? hfound)

theorem writes_writeChanges {s : Store} {op : Op} {old : Profile} (changes : Changes) (stored : Bool)
    (hold : old ∈ s.users.of op.uid) (hrenames : op.renames = changes.username) :
    Writes s.users op (run exec (writeChanges old changes stored) s).1
      (run exec (writeChanges old changes stored) s).2.users := by
  unfold writeChanges
  split_ifs with hother
  · obtain ⟨username, hname, hne⟩ := (Option.any_eq_true ..).mp hother
    have happly : (changes.apply old).username = username := by simp [Changes.apply, hname]
    cases stored with
    | false => exact .nothing
    | true =>
      refine .renamed old (changes.apply old) hold ?_ ?_
      · rw [happly, hrenames, hname]
      · rw [happly]
        exact of_decide_eq_true hne
  · simp only [perform, run_await, exec]
    split_ifs with hthere
    · refine .changed old changes hold ?_
      cases hname : changes.username with
      | none => simp [Changes.apply, hname]
      | some username => simpa [Changes.apply, hname] using hother
    · exact .nothing

theorem writes_updateUser (s : Store) (uid : String) (data : UpdateData) (choice : Nat) (stored : Bool) :
    Writes s.users (.update uid data choice stored) (run exec (updateUser uid data choice stored) s).1.isOk
      (run exec (updateUser uid data choice stored) s).2.users := by
  unfold updateUser
  split
  · exact .nothing
  split_ifs
  · exact .nothing
  simp only [perform_bind, run_await]
  split
  · exact .nothing
  · rename_i old hfound
    have hwrites : Writes s.users (.update uid data choice stored) (run exec (writeChanges old data.changes stored) s).1
        (run exec (writeChanges old data.changes stored) s).2.users :=
      writes_writeChanges data.changes stored (List.mem_of_getElem? hfound) rfl
    simp only [run_bind, exec]
    generalize run exec (writeChanges old data.changes stored) s = written at hwrites ⊢
    obtain ⟨ok, after⟩ := written
    cases ok <;> exact hwrites

/-- What a call writes, if it is accepted. -/
theorem writes_step (s : Store) (op : Op) : Writes s.users op (accepted s op) (step s op).users := by
  cases op with
  | create user data provided expiry stored => exact writes_createUser s user data provided expiry stored
  | update uid data choice stored => exact writes_updateUser s uid data choice stored
  | delete uid choice stored => exact writes_deleteUser s uid choice stored

section

variable {uid : String} {op : Op} {users after : Users} {ok : Bool}

theorem get?_of_mem {profile : Profile} (hkeyed : users.Keyed) (hmem : profile ∈ users.of uid) :
    users.get? profile.username = some profile := by
  obtain ⟨-, id, hget⟩ := mem_of.mp hmem
  rw [hkeyed id profile hget]
  exact hget

theorem Writes.keyed (h : Writes users op ok after) (hkeyed : users.Keyed) : after.Keyed := by
  intro id found hfound
  cases h with
  | nothing => exact hkeyed id found hfound
  | created profile | renamed _ profile =>
    rw [get?_set] at hfound
    split_ifs at hfound with hid
    · cases hfound
      exact hid.symm
    · exact hkeyed id found hfound
  | changed old changes hold hsame =>
    rw [get?_modify] at hfound
    split_ifs at hfound with hid
    · rw [hid, get?_of_mem hkeyed hold] at hfound
      cases hfound
      rw [hid]
      exact hsame
    · exact hkeyed id found hfound
  | deleted old =>
    rw [get?_erase] at hfound
    split_ifs at hfound
    exact hkeyed id found hfound

/-- Only the user's own documents change. -/
structure Tended (uid : String) (users after : Users) : Prop where
  own : OwnOnly uid users after
  single : users.Single → after.Single

theorem tended_set {profile : Profile} (huid : profile.uid = uid) (hnew : users.of uid = [])
    (hfree : users.get? profile.username = none) : Tended uid users (users.set profile.username profile) where
  own id hchange found hfound := by
    rw [get?_set] at hchange hfound
    split_ifs at hchange hfound with hid
    · rw [hid, hfree] at hfound
      obtain hfound | hfound := hfound
      · cases hfound
      · cases hfound
        exact huid
    · exact absurd rfl hchange
  single hsingle id id' found found' hfound hfound' hsame := by
    have hother : ∀ key other, users.get? key = some other → other.uid ≠ uid := by
      intro key other hget hown
      have hmem := mem_of.mpr ⟨hown, key, hget⟩
      rw [hnew] at hmem
      cases hmem
    rw [get?_set] at hfound hfound'
    split_ifs at hfound hfound' with hid hid'
    · rw [hid, hid']
    · cases hfound
      exact absurd (hsame.symm.trans huid) (hother _ _ hfound')
    · cases hfound'
      exact absurd (hsame.trans huid) (hother _ _ hfound)
    · exact hsingle id id' found found' hfound hfound' hsame

theorem tended_modify {old : Profile} (changes : Changes) (hkeyed : users.Keyed)
    (hold : old ∈ users.of uid) : Tended uid users (users.modify old.username changes.apply) := by
  have huid := (mem_of.mp hold).1
  have hget := get?_of_mem hkeyed hold
  refine ⟨fun id hchange found hfound => ?_, fun hsingle id id' found found' hfound hfound' hsame => ?_⟩
  · rw [get?_modify] at hchange hfound
    split_ifs at hchange hfound with hid
    · rw [hid, hget] at hfound
      obtain hfound | hfound := hfound <;> cases hfound <;> exact huid
    · exact absurd rfl hchange
  · -- an update leaves the field `uid` as it is
    have hbefore : ∀ key other, (users.modify old.username changes.apply).get? key = some other →
        ∃ profile, users.get? key = some profile ∧ profile.uid = other.uid := by
      intro key other hother
      rw [get?_modify] at hother
      split_ifs at hother
      · obtain ⟨profile, hprofile, rfl⟩ := Option.map_eq_some_iff.mp hother
        exact ⟨profile, hprofile, rfl⟩
      · exact ⟨other, hother, rfl⟩
    obtain ⟨profile, hprofile, heq⟩ := hbefore id found hfound
    obtain ⟨profile', hprofile', heq'⟩ := hbefore id' found' hfound'
    exact hsingle id id' profile profile' hprofile hprofile' (heq.trans (hsame.trans heq'.symm))

theorem tended_erase {old : Profile} (hkeyed : users.Keyed) (hold : old ∈ users.of uid) :
    Tended uid users (users.erase old.username) := by
  have hget := get?_of_mem hkeyed hold
  refine ⟨fun id hchange found hfound => ?_, fun hsingle id id' found found' hfound hfound' hsame => ?_⟩
  · rw [get?_erase] at hchange hfound
    split_ifs at hchange hfound with hid
    · rw [hid, hget] at hfound
      obtain hfound | hfound := hfound <;> cases hfound
      exact (mem_of.mp hold).1
    · exact absurd rfl hchange
  · rw [get?_erase] at hfound hfound'
    split_ifs at hfound hfound'
    exact hsingle id id' found found' hfound hfound' hsame

end

theorem tended_step {s : Store} {op : Op} (hkeyed : s.users.Keyed) (hcond : Undisputed s op) :
    Tended op.uid s.users (step s op).users := by
  have hwrites := writes_step s op
  generalize hok : accepted s op = ok at hwrites
  generalize (step s op).users = after at hwrites ⊢
  cases hwrites with
  | nothing => exact ⟨fun id hchange => absurd rfl hchange, id⟩
  | created profile huid hname hnew =>
    refine tended_set huid hnew (Option.eq_none_iff_forall_ne_some.mpr fun found hfound => ?_)
    -- it would be a document of the user's own, and there is none
    have hown : found ∈ s.users.of op.uid := mem_of.mpr ⟨hcond.untaken hok found (by rw [hname]; exact hfound), _, hfound⟩
    rw [hnew] at hown
    cases hown
  | renamed old new hold hname hother => exact absurd (hcond.kept hok _ hname old hold).symm hother
  | changed old changes hold hsame => exact tended_modify changes hkeyed hold
  | deleted old hold => exact tended_erase hkeyed hold

/-- As long as nobody registers under another's username or changes their own, a user has one document, it lies
under its username, and only the user touches it. -/
theorem profiles_kept (s : Store) (ops : List Op) (hkeyed : s.users.Keyed)
    (hsingle : s.users.Single) (hcond : Along step Undisputed s ops) :
    Always step (fun s => s.users.Keyed ∧ s.users.Single) s ops ∧ Along step SparesOthers s ops := by
  have hstep : ∀ s op, s.users.Keyed ∧ s.users.Single → Undisputed s op →
      (step s op).users.Keyed ∧ (step s op).users.Single := by
    rintro s op ⟨hkeyed, hsingle⟩ hundisputed
    exact ⟨(writes_step s op).keyed hkeyed, (tended_step hkeyed hundisputed).single hsingle⟩
  refine ⟨always_of_invariant hstep (fun _ h => h) ⟨hkeyed, hsingle⟩ hcond, ?_⟩
  refine along_of_invariant hstep ?_ ⟨hkeyed, hsingle⟩ hcond
  rintro s op ⟨hkeyed, -⟩ hundisputed
  exact (tended_step hkeyed hundisputed).own

def registration (uid name username : String) : Op :=
  .create ⟨uid, "", "", uid ++ "@hide.io", "", "google.com", none⟩ ⟨some name, some username, none⟩ (some true) "" true

def newNames (uid name username : String) : Op :=
  .update uid ⟨some uid, some name, some username, none, none, none⟩ 0 true

theorem profiles_kept_two_users :
    Always step (fun s => s.users.Keyed ∧ s.users.Single) .empty
        [registration "u1" "Anna" "anna", registration "u2" "Benjamin" "ben", newNames "u1" "Anna B" "anna", .delete "u2" 0 true] ∧
      Along step SparesOthers .empty
        [registration "u1" "Anna" "anna", registration "u2" "Benjamin" "ben", newNames "u1" "Anna B" "anna", .delete "u2" 0 true] :=
  profiles_kept .empty _ (by simp [Users.Keyed, Store.empty]) (by simp [Users.Single, Store.empty]) (by decide +kernel)

/-- The second registration replaces the document of the first user; a new username leaves the old document where
it was. -/
theorem profiles_not_kept :
    ¬Along step SparesOthers .empty [registration "u1" "Anna" "anna", registration "u2" "Benjamin" "anna"] ∧
      ¬(run step .empty [registration "u1" "Anna" "anna", newNames "u1" "Anna" "annie"]).users.Single := by
  constructor
  · rintro ⟨-, hspares, -⟩
    have hown := hspares "anna" (by decide +kernel)
      ⟨"u1", "Anna", "anna", "u1@hide.io", "", "google.com", none⟩ (.inl (by decide +kernel))
    exact absurd hown (by decide)
  · intro hsingle
    have hsame := hsingle "anna" "annie" ⟨"u1", "Anna", "anna", "u1@hide.io", "", "google.com", none⟩
      ⟨"u1", "Anna", "annie", "u1@hide.io", "", "google.com", none⟩ (by decide +kernel) (by decide +kernel) rfl
    exact absurd hsame (by decide)

end HideServer.User
