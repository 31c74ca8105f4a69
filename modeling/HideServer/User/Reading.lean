import HideServer.User.Ownership

/-!
# Reading profiles

Profiles are cached under `profile:<uid>` and, for lists, `users:<uid>`, and no call that writes clears
either. What a reader sees beside the email address and the issuer is the `Visible` part.
-/

namespace HideServer.User

open Async Async.Prog Cache Function Trace List

/-- What a reader gets. -/
structure PartialUser where
  uid : String
  name : String
  username : String
  email : Option String
  picture : String
  issuer : Option String
  expireAt : Option String
  deriving DecidableEq, Repr

/-- What every reader gets to see. -/
structure Visible where
  uid : String
  name : String
  username : String
  picture : String
  expireAt : Option String
  deriving DecidableEq, Repr

def Profile.visible (profile : Profile) : Visible :=
  ⟨profile.uid, profile.name, profile.username, profile.picture, profile.expireAt⟩

variable (user : PartialUser)

def PartialUser.visible : Visible :=
  ⟨user.uid, user.name, user.username, user.picture, user.expireAt⟩

def Profile.whole (profile : Profile) : PartialUser :=
  ⟨profile.uid, profile.name, profile.username, some profile.email, profile.picture, some profile.issuer, profile.expireAt⟩

variable (actorUid : String)

/-- Only the user sees the email address. -/
def hideConfidentialFields : PartialUser :=
  if user.uid ≠ actorUid then { user with email := none } else user

/-- `delete user?.issuer` -/
def withoutIssuer : PartialUser := { user with issuer := none }

/-- The collection and the two caches. -/
structure Site where
  store : Store
  listed : String → Option Profile

def Site.empty : Site := ⟨.empty, fun _ => none⟩

inductive Query where
  | cachedProfile (uid : String)
  | cachedUser (uid : String)
  /-- The first of the documents found, if the collection can be read. -/
  | find (uid : String) (choice : Nat) (served : Bool)
  | cacheProfile (uid : String) (profile : Profile)
  | cacheUser (uid : String) (profile : Profile)
  deriving DecidableEq, Repr

abbrev Query.Answer : Query → Type
  | .cachedProfile _ | .cachedUser _ => Option Profile
  | .find .. => Option (Option Profile)
  | .cacheProfile .. | .cacheUser .. => Unit

namespace Site

def exec : (query : Query) → Site → query.Answer × Site
  | .cachedProfile uid, s => (s.store.profiles uid, s)
  | .cachedUser uid, s => (s.listed uid, s)
  | .find uid choice served, s =>
    (if served then some (s.store.users.of uid)[choice % (s.store.users.of uid).length]? else none, s)
  | .cacheProfile uid profile, s =>
    ((), { s with store := { s.store with profiles := update s.store.profiles uid (some profile) } })
  | .cacheUser uid profile, s => ((), { s with listed := update s.listed uid (some profile) })

end Site

abbrev Query.Io := Prog Query Query.Answer

abbrev query (query : Query) : Query.Io query.Answer := perform query

/-! ### The calls -/

/-- A uid that is looked up, and what the database makes of it if it is asked. -/
structure Lookup where
  uid : String
  choice : Nat
  served : Bool
  deriving DecidableEq, Repr

/-- `getProfile` of `search.service.ts`. -/
def getProfile (lookup : Lookup) (actorUid : String) : Query.Io (Except String PartialUser) := do
  let cached : Option Profile ← query (.cachedProfile lookup.uid)
  match cached with
  | some profile => return .ok (hideConfidentialFields profile.whole actorUid)
  | none =>
    let found : Option (Option Profile) ← query (.find lookup.uid lookup.choice lookup.served)
    match found with
    | none => return .error "unavailable"
    | some none => return .error "USER_NOT_FOUND"
    | some (some profile) =>
      query (.cacheProfile lookup.uid profile)
      return .ok (hideConfidentialFields profile.whole actorUid)

/-- A lookup that fails is no different from one that finds nothing. -/
def fetchUserFromDB (lookup : Lookup) : Query.Io (Option Profile) := do
  let found : Option (Option Profile) ← query (.find lookup.uid lookup.choice lookup.served)
  match found with
  | some (some profile) =>
    query (.cacheUser lookup.uid profile)
    return some profile
  | _ => return none

def cachedUsers : List Lookup → Query.Io (List (Lookup × Option Profile))
  | [] => return []
  | lookup :: lookups => do
    let cached : Option Profile ← query (.cachedUser lookup.uid)
    let rest ← cachedUsers lookups
    return (lookup, cached) :: rest

def fetchUsers : List (Lookup × Option Profile) → Query.Io (List (Option Profile))
  | [] => return []
  | (_, some profile) :: entries => do
    let rest ← fetchUsers entries
    return some profile :: rest
  | (lookup, none) :: entries => do
    let user ← fetchUserFromDB lookup
    let rest ← fetchUsers entries
    return user :: rest

/-- `getUsers` of `search.service.ts`. -/
def getUsers (lookups : List Lookup) (actorUid : String) : Query.Io (List (Option PartialUser)) := do
  let cached ← cachedUsers lookups
  let users ← fetchUsers cached
  return users.map (Option.map fun user => hideConfidentialFields (withoutIssuer user.whole) actorUid)

inductive Label where
  | write (op : Op)
  | getProfile (lookup : Lookup) (actorUid : String)
  | getUsers (lookups : List Lookup) (actorUid : String)
  deriving DecidableEq, Repr

namespace Site

variable {uid : String}

variable (s : Site)

def step : Label → Site
  | .write op => { s with store := User.step s.store op }
  | .getProfile lookup actorUid => (run exec (getProfile lookup actorUid) s).2
  | .getUsers lookups actorUid => (run exec (getUsers lookups actorUid) s).2

/-! ### What the reads are to answer -/

/-- What is stored for the uid looks like this; `none` if nothing is. -/
def Holds (uid : String) : Option Visible → Prop
  | none => s.store.users.of uid = []
  | some visible => s.store.users.of uid ≠ [] ∧ ∀ profile ∈ s.store.users.of uid, profile.visible = visible

/-- The read answers with what is stored. -/
def Answered : Label → Prop
  | .write _ => True
  | .getProfile lookup actorUid =>
    (∀ user, (run exec (getProfile lookup actorUid) s).1 = .ok user → s.Holds lookup.uid (some user.visible)) ∧
      ((run exec (getProfile lookup actorUid) s).1 = .error "USER_NOT_FOUND" → s.Holds lookup.uid none)
  | .getUsers lookups actorUid =>
    Forall₂ (fun lookup user => s.Holds lookup.uid (user.map PartialUser.visible)) lookups
      (run exec (getUsers lookups actorUid) s).1

/-- Every read that the database serves, if it is asked, is answered with what is stored. -/
def Transparent : Prop :=
  (∀ uid choice actorUid, s.Answered (.getProfile ⟨uid, choice, true⟩ actorUid)) ∧
    ∀ lookups actorUid, (∀ lookup ∈ lookups, lookup.served = true) → s.Answered (.getUsers lookups actorUid)

/-- Neither cache has anything about the user. -/
def Uncached (uid : String) : Prop := s.store.profiles uid = none ∧ s.listed uid = none

/-- What a call has to be like for the reads to stay right. -/
def Harmless : Label → Prop
  -- the user is registered as the request names them, and not in the place of someone who is cached
  | .write (.create user data provided expiry stored) =>
    ∀ name username, validateCreateUser data = .ok (name, username) → s.store.users.of user.uid = [] →
      ∀ account ∈ provided, stored = true →
        (registered user name username data account expiry).visible = user.visible ∧
          ∀ old ∈ s.store.users.get? username, s.Uncached old.uid
  -- the username stays, and nothing else that can be seen changes if the user is cached
  | .write (.update uid data _ stored) =>
    validateUpdateUser uid data = none → stored = true → ∀ old ∈ s.store.users.of uid,
      (∀ username ∈ data.changes.username, username = old.username) ∧
        ((data.changes.apply old).visible = old.visible ∨ s.Uncached uid)
  | .write (.delete uid _ stored) => stored = true → s.store.users.of uid ≠ [] → s.Uncached uid
  | .getProfile .. => True
  -- a user who is not cached can be looked up, if there is such a user
  | .getUsers lookups _ =>
    ∀ lookup ∈ lookups, s.listed lookup.uid = none → lookup.served = true ∨ s.store.users.of lookup.uid = []

/-! ### What is cached is what is stored -/

structure Fresh (s : Site) (uid : String) : Prop where
  profile : ∀ profile ∈ s.store.profiles uid, s.Holds uid (some profile.visible)
  listed : ∀ profile ∈ s.listed uid, s.Holds uid (some profile.visible)
  agree : ∀ profile ∈ s.store.users.of uid, s.Holds uid (some profile.visible)

@[simp] theorem visible_hide : (hideConfidentialFields user actorUid).visible = user.visible := by
  unfold hideConfidentialFields
  split <;> rfl

@[simp] theorem visible_withoutIssuer : (withoutIssuer user).visible = user.visible := rfl

@[simp] theorem visible_whole (profile : Profile) : profile.whole.visible = profile.visible := rfl

variable {lookup : Lookup} {profile : Profile}

section

variable {s : Site} {uid : String}

/-- The document that a look-up finds. -/
def found (s : Site) (lookup : Lookup) : Option Profile :=
  if lookup.served then (s.store.users.of lookup.uid)[lookup.choice % (s.store.users.of lookup.uid).length]? else none

theorem mem_of_found (h : s.found lookup = some profile) : profile ∈ s.store.users.of lookup.uid := by
  unfold found at h
  split_ifs at h
  exact mem_of_getElem? h

theorem of_eq_nil_of_found (hserved : lookup.served = true) (h : s.found lookup = none) :
    s.store.users.of lookup.uid = [] := by
  rw [found, if_pos hserved, getElem?_eq_none_iff] at h
  by_contra hne
  exact absurd (Nat.mod_lt lookup.choice (length_pos_iff.mpr hne)) (Nat.not_lt.mpr h)

theorem exists_found (hmem : profile ∈ s.store.users.of uid) :
    ∃ choice, s.found ⟨uid, choice, true⟩ = some profile := by
  obtain ⟨choice, hlt, hget⟩ := getElem_of_mem hmem
  refine ⟨choice, ?_⟩
  rw [found, if_pos rfl, Nat.mod_eq_of_lt hlt, getElem?_eq_getElem hlt, hget]

theorem run_getProfile_cached (hcached : s.store.profiles lookup.uid = some profile) :
    run exec (getProfile lookup actorUid) s = (.ok (hideConfidentialFields profile.whole actorUid), s) := by
  simp [getProfile, exec, hcached]

theorem run_getProfile_found (hcached : s.store.profiles lookup.uid = none) (hfound : s.found lookup = some profile) :
    run exec (getProfile lookup actorUid) s =
      (.ok (hideConfidentialFields profile.whole actorUid), (exec (.cacheProfile lookup.uid profile) s).2) := by
  unfold found at hfound
  split_ifs at hfound with hserved
  simp [getProfile, exec, hcached, hserved, hfound]

theorem run_getProfile_missing (hcached : s.store.profiles lookup.uid = none) (hfound : s.found lookup = none) :
    run exec (getProfile lookup actorUid) s =
      (.error (if lookup.served then "USER_NOT_FOUND" else "unavailable"), s) := by
  unfold found at hfound
  split_ifs at hfound with hserved
  · simp [getProfile, exec, hcached, hserved, hfound]
  · simp [getProfile, exec, hcached, hserved]

theorem Fresh.answered (h : s.Fresh lookup.uid) (actorUid : String) : s.Answered (.getProfile lookup actorUid) := by
  simp only [Answered]
  cases hcached : s.store.profiles lookup.uid with
  | some profile =>
    rw [run_getProfile_cached actorUid hcached]
    refine ⟨fun user huser => ?_, fun herror => by cases herror⟩
    cases huser
    rw [visible_hide, visible_whole]
    exact h.profile profile hcached
  | none =>
    cases hfound : s.found lookup with
    | some profile =>
      rw [run_getProfile_found actorUid hcached hfound]
      refine ⟨fun user huser => ?_, fun herror => by cases herror⟩
      cases huser
      rw [visible_hide, visible_whole]
      exact h.agree profile (mem_of_found hfound)
    | none =>
      rw [run_getProfile_missing actorUid hcached hfound]
      constructor
      · intro user huser
        cases huser
      · intro herror
        cases hserved : lookup.served with
        | true => exact of_eq_nil_of_found hserved hfound
        | false => simp [hserved] at herror

/-! Lists of users -/

/-- Only look-ups have been cached. -/
def Grown (s t : Site) : Prop :=
  t.store = s.store ∧ ∀ uid, t.listed uid = s.listed uid ∨ ∃ profile ∈ s.store.users.of uid, t.listed uid = some profile

theorem Grown.trans {t u : Site} (h : s.Grown t) (h' : t.Grown u) : s.Grown u := by
  refine ⟨h'.1.trans h.1, fun uid => ?_⟩
  rcases h'.2 uid with hsame | ⟨profile, hmem, hnew⟩
  · rw [hsame]
    exact h.2 uid
  · rw [h.1] at hmem
    exact .inr ⟨profile, hmem, hnew⟩

theorem run_cachedUsers (s : Site) (lookups : List Lookup) :
    run exec (cachedUsers lookups) s = (lookups.map fun lookup => (lookup, s.listed lookup.uid), s) := by
  induction lookups with
  | nil => rfl
  | cons lookup lookups ih => simp [cachedUsers, exec, ih]

theorem run_fetchUserFromDB (s : Site) (lookup : Lookup) :
    (run exec (fetchUserFromDB lookup) s).1 = s.found lookup ∧ s.Grown (run exec (fetchUserFromDB lookup) s).2 := by
  cases hfound : s.found lookup with
  | some profile =>
    have hmem := mem_of_found hfound
    unfold found at hfound
    split_ifs at hfound with hserved
    simp only [fetchUserFromDB, run_bind, run_perform, exec, hserved, if_true, hfound, pure_eq, run_ret, true_and]
    refine ⟨rfl, fun uid => ?_⟩
    simp only [update_apply]
    split_ifs with huid
    · subst huid
      exact .inr ⟨profile, hmem, rfl⟩
    · exact .inl rfl
  | none =>
    unfold found at hfound
    split_ifs at hfound with hserved <;> simp [fetchUserFromDB, exec, *, Grown]

theorem found_of_grown {t : Site} (h : s.Grown t) (lookup : Lookup) : t.found lookup = s.found lookup := by
  simp only [found, h.1]

theorem run_fetchUsers (s : Site) (entries : List (Lookup × Option Profile)) :
    (run exec (fetchUsers entries) s).1 = entries.map (fun entry => entry.2.or (s.found entry.1)) ∧
      s.Grown (run exec (fetchUsers entries) s).2 := by
  induction entries generalizing s with
  | nil => exact ⟨rfl, rfl, fun _ => .inl rfl⟩
  | cons entry entries ih =>
    obtain ⟨lookup, cached⟩ := entry
    cases cached with
    | some profile =>
      obtain ⟨hvalue, hgrown⟩ := ih s
      simp only [fetchUsers, run_bind, pure_eq, run_ret, map_cons, hvalue]
      exact ⟨rfl, hgrown⟩
    | none =>
      obtain ⟨hfirst, hgrown⟩ := run_fetchUserFromDB s lookup
      obtain ⟨hvalue, hgrown'⟩ := ih (run exec (fetchUserFromDB lookup) s).2
      simp only [fetchUsers, run_bind, pure_eq, run_ret, map_cons, hvalue, hfirst, found_of_grown hgrown]
      exact ⟨rfl, hgrown.trans hgrown'⟩

theorem grown_getUsers (s : Site) (lookups : List Lookup) (actorUid : String) :
    s.Grown (run exec (getUsers lookups actorUid) s).2 := by
  simp only [getUsers, run_bind, run_cachedUsers, pure_eq, run_ret]
  exact (run_fetchUsers s _).2

theorem answered_getUsers_iff (s : Site) (lookups : List Lookup) (actorUid : String) :
    s.Answered (.getUsers lookups actorUid) ↔
      ∀ lookup ∈ lookups, s.Holds lookup.uid (((s.listed lookup.uid).or (s.found lookup)).map Profile.visible) := by
  simp only [Answered, getUsers, run_bind, run_cachedUsers, run_fetchUsers, pure_eq, run_ret, map_map,
    forall₂_map_right_iff, forall₂_same, comp_apply, Option.map_map]
  simp only [comp_def, visible_hide, visible_withoutIssuer, visible_whole]

theorem Fresh.holds_listed_iff (h : s.Fresh lookup.uid) :
    s.Holds lookup.uid (((s.listed lookup.uid).or (s.found lookup)).map Profile.visible) ↔
      (s.listed lookup.uid = none → lookup.served = true ∨ s.store.users.of lookup.uid = []) := by
  cases hlisted : s.listed lookup.uid with
  | some profile => simpa using h.listed profile hlisted
  | none =>
    cases hfound : s.found lookup with
    | some profile =>
      have hserved : lookup.served = true := by
        unfold found at hfound
        split_ifs at hfound with hserved
        exact hserved
      simpa [hserved] using h.agree profile (mem_of_found hfound)
    | none =>
      simp only [Option.or_none, Option.map_none, Holds, forall_const]
      constructor
      · exact .inr
      · rintro (hserved | hempty)
        · exact of_eq_nil_of_found hserved hfound
        · exact hempty

/-- The reads are right exactly if what is cached is what is stored. -/
theorem transparent_iff : s.Transparent ↔ ∀ uid, s.Fresh uid := by
  constructor
  · rintro ⟨hone, hmany⟩ uid
    have hprofile : ∀ profile ∈ s.store.profiles uid, s.Holds uid (some profile.visible) := by
      intro profile hcached
      have hanswer := (hone uid 0 uid).1 _ (congrArg Prod.fst (run_getProfile_cached uid hcached))
      rwa [visible_hide, visible_whole] at hanswer
    refine ⟨hprofile, fun profile hlisted => ?_, fun profile hmem => ?_⟩
    · have hanswer := hmany [⟨uid, 0, true⟩] uid (by simp)
      rw [answered_getUsers_iff] at hanswer
      have hholds := hanswer _ mem_cons_self
      rw [hlisted] at hholds
      exact hholds
    · cases hcached : s.store.profiles uid with
      | some cached =>
        have hholds := hprofile cached hcached
        rwa [hholds.2 profile hmem]
      | none =>
        obtain ⟨choice, hfound⟩ := exists_found hmem
        have hanswer := (hone uid choice uid).1 _ (congrArg Prod.fst (run_getProfile_found uid hcached hfound))
        rwa [visible_hide, visible_whole] at hanswer
  · intro hfresh
    refine ⟨fun uid choice actorUid => (hfresh uid).answered actorUid, fun lookups actorUid hserved => ?_⟩
    rw [answered_getUsers_iff]
    intro lookup hlookup
    exact (hfresh lookup.uid).holds_listed_iff.mpr fun _ => .inl (hserved lookup hlookup)

end

variable {new : Profile}

section

variable {s t : Site} {uid : String}

theorem Fresh.of_subset (h : s.Fresh uid) (hprofiles : t.store.profiles uid = s.store.profiles uid)
    (hlisted : t.listed uid = s.listed uid) (hsub : ∀ profile ∈ t.store.users.of uid, profile ∈ s.store.users.of uid)
    (hkept : ¬s.Uncached uid → ∀ profile ∈ s.store.users.of uid, profile ∈ t.store.users.of uid) : t.Fresh uid := by
  have hholds {profile : Profile} (hcached : ¬s.Uncached uid) (hold : s.Holds uid (some profile.visible)) :
      t.Holds uid (some profile.visible) := by
    obtain ⟨other, hother⟩ := exists_mem_of_ne_nil _ hold.1
    exact ⟨ne_nil_of_mem (hkept hcached other hother), fun found hfound => hold.2 found (hsub found hfound)⟩
  constructor
  · intro profile hprofile
    rw [hprofiles] at hprofile
    refine hholds (fun hnone => ?_) (h.profile profile hprofile)
    rw [hnone.1] at hprofile
    cases hprofile
  · intro profile hprofile
    rw [hlisted] at hprofile
    refine hholds (fun hnone => ?_) (h.listed profile hprofile)
    rw [hnone.2] at hprofile
    cases hprofile
  · intro profile hmem
    exact ⟨ne_nil_of_mem hmem, fun found hfound => (h.agree profile (hsub profile hmem)).2 found (hsub found hfound)⟩

theorem fresh_of_grown (hgrown : s.Grown t) (h : s.Fresh uid) : t.Fresh uid := by
  have hholds (visible : Option Visible) : t.Holds uid visible ↔ s.Holds uid visible := by
    simp only [Holds, hgrown.1]
  refine ⟨fun profile hprofile => ?_, fun profile hprofile => ?_, fun profile hmem => ?_⟩
  · rw [hgrown.1] at hprofile
    exact (hholds _).mpr (h.profile profile hprofile)
  · rcases hgrown.2 uid with hsame | ⟨new, hnew, hlisted⟩
    · rw [hsame] at hprofile
      exact (hholds _).mpr (h.listed profile hprofile)
    · rw [hlisted] at hprofile
      obtain rfl : new = profile := Option.some.inj hprofile
      exact (hholds _).mpr (h.agree new hnew)
  · rw [hgrown.1] at hmem
    exact (hholds _).mpr (h.agree profile hmem)

theorem fresh_cacheProfile (h : s.Fresh uid) (hmem : profile ∈ s.store.users.of lookup.uid) :
    (exec (.cacheProfile lookup.uid profile) s).2.Fresh uid := by
  refine ⟨fun cached hcached => ?_, h.listed, h.agree⟩
  simp only [exec, update_apply] at hcached
  split_ifs at hcached with huid
  · subst huid
    cases hcached
    exact h.agree profile hmem
  · exact h.profile cached hcached

theorem fresh_getProfile (hfresh : ∀ uid, s.Fresh uid) (lookup : Lookup) (actorUid : String) :
    (step s (.getProfile lookup actorUid)).Fresh uid := by
  simp only [step]
  cases hcached : s.store.profiles lookup.uid with
  | some profile =>
    rw [run_getProfile_cached actorUid hcached]
    exact hfresh uid
  | none =>
    cases hfound : s.found lookup with
    | some profile =>
      rw [run_getProfile_found actorUid hcached hfound]
      exact fresh_cacheProfile (hfresh uid) (mem_of_found hfound)
    | none =>
      rw [run_getProfile_missing actorUid hcached hfound]
      exact hfresh uid

variable {users : Users}

theorem mem_of_set (hkeyed : users.Keyed) :
    profile ∈ Users.of (users.set new.username new) uid ↔
      profile = new ∧ new.uid = uid ∨ profile ∈ users.of uid ∧ profile.username ≠ new.username := by
  simp only [mem_of, Dict.get?_set]
  constructor
  · rintro ⟨hown, id, hget⟩
    split_ifs at hget with hid
    · cases hget
      exact .inl ⟨rfl, hown⟩
    · refine .inr ⟨⟨hown, id, hget⟩, ?_⟩
      rw [hkeyed id profile hget]
      exact hid
  · rintro (⟨rfl, hown⟩ | ⟨⟨hown, id, hget⟩, hne⟩)
    · exact ⟨hown, profile.username, if_pos rfl⟩
    · refine ⟨hown, id, ?_⟩
      rw [if_neg, hget]
      rwa [← hkeyed id profile hget]

theorem mem_of_erase (hkeyed : users.Keyed) {username : String} :
    profile ∈ Users.of (users.erase username) uid ↔ profile ∈ users.of uid ∧ profile.username ≠ username := by
  simp only [mem_of, Dict.get?_erase]
  constructor
  · rintro ⟨hown, id, hget⟩
    split_ifs at hget with hid
    refine ⟨⟨hown, id, hget⟩, ?_⟩
    rw [hkeyed id profile hget]
    exact hid
  · rintro ⟨⟨hown, id, hget⟩, hne⟩
    refine ⟨hown, id, ?_⟩
    rw [if_neg, hget]
    rwa [← hkeyed id profile hget]

theorem eq_of_username (hkeyed : users.Keyed) {uid' : String} {other : Profile}
    (hmem : profile ∈ users.of uid) (hother : other ∈ users.of uid') (hname : other.username = profile.username) :
    other = profile := by
  have hget := get?_of_mem hkeyed hmem
  rw [← hname, get?_of_mem hkeyed hother] at hget
  exact Option.some.inj hget

theorem Fresh.unique (h : s.Fresh uid) (hkeyed : s.store.users.Keyed) {other : Profile}
    (hmem : profile ∈ s.store.users.of uid) (hother : other ∈ s.store.users.of uid) : other = profile := by
  have hlike := (h.agree profile hmem).2 other hother
  exact eq_of_username hkeyed hmem hother (congrArg Visible.username hlike)

theorem Fresh.uncached (h : s.Fresh uid) (hnone : s.store.users.of uid = []) : s.Uncached uid := by
  constructor
  · by_contra hcached
    obtain ⟨profile, hprofile⟩ := Option.ne_none_iff_exists'.mp hcached
    exact (h.profile profile hprofile).1 hnone
  · by_contra hcached
    obtain ⟨profile, hprofile⟩ := Option.ne_none_iff_exists'.mp hcached
    exact (h.listed profile hprofile).1 hnone

end

section

variable {s : Site}

def wrote (s : Site) (users : Users) (profiles : String → Option Profile) : Site := ⟨⟨users, profiles⟩, s.listed⟩

theorem fresh_of_only {t : Site} (hmem : ∀ profile, profile ∈ t.store.users.of uid ↔ profile = new) :
    t.Fresh uid ↔ (∀ profile ∈ t.store.profiles uid, new.visible = profile.visible) ∧
        ∀ profile ∈ t.listed uid, new.visible = profile.visible := by
  have hholds (visible : Visible) : t.Holds uid (some visible) ↔ new.visible = visible := by
    have hne : t.store.users.of uid ≠ [] := ne_nil_of_mem ((hmem new).mpr rfl)
    simp [Holds, hne, hmem]
  constructor
  · intro h
    exact ⟨fun profile hprofile => (hholds _).mp (h.profile profile hprofile),
      fun profile hprofile => (hholds _).mp (h.listed profile hprofile)⟩
  · rintro ⟨hprofiles, hlisted⟩
    refine ⟨fun profile h => (hholds _).mpr (hprofiles profile h), fun profile h => (hholds _).mpr (hlisted profile h), ?_⟩
    intro profile h
    rw [hholds, (hmem profile).mp h]

theorem Fresh.set_of_ne (h : s.Fresh uid) (hkeyed : s.store.users.Keyed) {profiles : String → Option Profile}
    (hprofiles : profiles uid = s.store.profiles uid) (hne : uid ≠ new.uid)
    (hreplaced : ∀ old ∈ s.store.users.get? new.username, old.uid = uid → s.Uncached uid) :
    (s.wrote (s.store.users.set new.username new) profiles).Fresh uid := by
  refine h.of_subset hprofiles rfl ?_ ?_
  · intro profile hmem
    rcases (mem_of_set hkeyed).mp hmem with ⟨-, hnewuid⟩ | ⟨hmem, -⟩
    · exact absurd hnewuid.symm hne
    · exact hmem
  · intro hcached profile hmem
    refine (mem_of_set hkeyed).mpr (.inr ⟨hmem, fun hname => hcached ?_⟩)
    have hget := get?_of_mem hkeyed hmem
    rw [hname] at hget
    exact hreplaced profile hget (mem_of.mp hmem).1

theorem fresh_created_iff (hkeyed : s.store.users.Keyed) (hfresh : ∀ uid, s.Fresh uid) {user : Profile}
    (huid : new.uid = user.uid) (hnone : s.store.users.of user.uid = []) :
    (∀ uid, (s.wrote (s.store.users.set new.username new) (update s.store.profiles user.uid (some user))).Fresh uid) ↔
      new.visible = user.visible ∧ ∀ old ∈ s.store.users.get? new.username, s.Uncached old.uid := by
  have hlisted := ((hfresh user.uid).uncached hnone).2
  have hown : ∀ profile, profile ∈ Users.of (s.store.users.set new.username new) user.uid ↔ profile = new := by
    intro profile
    rw [mem_of_set hkeyed, hnone]
    simp [huid]
  have hnew := fresh_of_only (t := s.wrote (s.store.users.set new.username new)
    (update s.store.profiles user.uid (some user))) hown
  simp only [wrote, update_self, Option.mem_some_iff, forall_eq', hlisted, Option.not_mem_none, false_imp_iff,
    implies_true, and_true] at hnew
  constructor
  · intro h
    refine ⟨hnew.mp (h user.uid), fun old hold => ?_⟩
    have holdmem : old ∈ s.store.users.of old.uid := mem_of.mpr ⟨rfl, _, hold⟩
    have hother : old.uid ≠ user.uid := by
      intro hsame
      rw [hsame, hnone] at holdmem
      cases holdmem
    have hgone : Users.of (s.store.users.set new.username new) old.uid = [] := by
      rw [eq_nil_iff_forall_not_mem]
      intro profile hmem
      rcases (mem_of_set hkeyed).mp hmem with ⟨-, hsame⟩ | ⟨hmem, hne⟩
      · exact hother (hsame.symm.trans huid)
      · rw [(hfresh old.uid).unique hkeyed holdmem hmem] at hne
        exact hne (hkeyed _ old hold)
    have huncached := (h old.uid).uncached hgone
    simpa only [Uncached, wrote, update_of_ne hother] using huncached
  · rintro ⟨hvisible, hreplaced⟩ uid
    by_cases hsame : uid = user.uid
    · rw [hsame]
      exact hnew.mpr hvisible
    · refine (hfresh uid).set_of_ne hkeyed (update_of_ne hsame ..) (huid ▸ hsame) fun old hold huid => ?_
      rw [← huid]
      exact hreplaced old hold

variable {old : Profile}

theorem fresh_changed_iff (hkeyed : s.store.users.Keyed) (hfresh : ∀ uid, s.Fresh uid)
    (hold : old ∈ s.store.users.of uid) (huid : new.uid = uid) (hname : new.username = old.username) :
    (∀ uid, (s.wrote (s.store.users.set old.username new) s.store.profiles).Fresh uid) ↔
      new.visible = old.visible ∨ s.Uncached uid := by
  rw [← hname]
  have hunique {profile : Profile} (hmem : profile ∈ s.store.users.of uid) : profile = old :=
    (hfresh uid).unique hkeyed hold hmem
  have hown : ∀ profile, profile ∈ Users.of (s.store.users.set new.username new) uid ↔ profile = new := by
    intro profile
    rw [mem_of_set hkeyed]
    constructor
    · rintro (⟨heq, -⟩ | ⟨hmem, hne⟩)
      · exact heq
      · rw [hunique hmem, hname] at hne
        exact absurd rfl hne
    · exact fun heq => .inl ⟨heq, huid⟩
  have hnew := fresh_of_only (t := s.wrote (s.store.users.set new.username new) s.store.profiles) hown
  have hbefore := (fresh_of_only (t := s) fun profile => ⟨hunique, fun heq => heq ▸ hold⟩).mp (hfresh uid)
  constructor
  · intro h
    obtain ⟨hprofiles, hlisted⟩ := hnew.mp (h uid)
    cases hcached : s.store.profiles uid with
    | some profile => exact .inl ((hprofiles profile hcached).trans (hbefore.1 profile hcached).symm)
    | none =>
      cases hcached' : s.listed uid with
      | some profile => exact .inl ((hlisted profile hcached').trans (hbefore.2 profile hcached').symm)
      | none => exact .inr ⟨hcached, hcached'⟩
  · intro h other
    by_cases hsame : other = uid
    · rw [hsame, hnew]
      rcases h with hvisible | hnone
      · rw [hvisible]
        exact hbefore
      · simp [wrote, hnone.1, hnone.2]
    · refine (hfresh other).set_of_ne hkeyed rfl (huid ▸ hsame) fun replaced hreplaced hother => absurd ?_ hsame
      rw [hname, get?_of_mem hkeyed hold] at hreplaced
      cases hreplaced
      exact hother.symm.trans (mem_of.mp hold).1

theorem not_fresh_renamed (hkeyed : s.store.users.Keyed) (hold : old ∈ s.store.users.of uid)
    (huid : new.uid = uid) (hname : new.username ≠ old.username) :
    ¬(s.wrote (s.store.users.set new.username new) s.store.profiles).Fresh uid := by
  intro h
  have hnewmem : new ∈ Users.of (s.store.users.set new.username new) uid := (mem_of_set hkeyed).mpr (.inl ⟨rfl, huid⟩)
  have holdmem : old ∈ Users.of (s.store.users.set new.username new) uid :=
    (mem_of_set hkeyed).mpr (.inr ⟨hold, hname.symm⟩)
  exact hname (congrArg Visible.username ((h.agree old holdmem).2 new hnewmem))

theorem fresh_deleted_iff (hkeyed : s.store.users.Keyed) (hfresh : ∀ uid, s.Fresh uid)
    (hold : old ∈ s.store.users.of uid) :
    (∀ uid, (s.wrote (s.store.users.erase old.username) s.store.profiles).Fresh uid) ↔ s.Uncached uid := by
  have hgone : Users.of (s.store.users.erase old.username) uid = [] := by
    rw [eq_nil_iff_forall_not_mem]
    intro profile hmem
    obtain ⟨hmem, hne⟩ := (mem_of_erase hkeyed).mp hmem
    exact hne (congrArg Profile.username ((hfresh uid).unique hkeyed hold hmem))
  constructor
  · exact fun h => (h uid).uncached hgone
  · intro hnone other
    refine (hfresh other).of_subset rfl rfl (fun profile hmem => ((mem_of_erase hkeyed).mp hmem).1) ?_
    intro hcached profile hmem
    refine (mem_of_erase hkeyed).mpr ⟨hmem, fun hnames => hcached ?_⟩
    rw [← (mem_of.mp hmem).1, eq_of_username hkeyed hold hmem hnames, (mem_of.mp hold).1]
    exact hnone

theorem fresh_unchanged_iff (hfresh : ∀ uid, s.Fresh uid) {op : Op} (hsame : User.step s.store op = s.store) {P : Prop}
    (hP : P) : (∀ uid, (step s (.write op)).Fresh uid) ↔ P := by
  simp only [step, hsame, hP, iff_true]
  exact hfresh

theorem fresh_create_iff (hkeyed : s.store.users.Keyed) (hfresh : ∀ uid, s.Fresh uid) (user : Profile)
    (data : CreateData) (provided : Option Bool) (expiry : String) (stored : Bool) :
    (∀ uid, (step s (.write (.create user data provided expiry stored))).Fresh uid) ↔
      s.Harmless (.write (.create user data provided expiry stored)) := by
  cases hvalid : validateCreateUser data with
  | error err =>
    refine fresh_unchanged_iff hfresh (by simp [User.step, program, createUser, hvalid]) ?_
    intro name username hok
    rw [hvalid] at hok
    cases hok
  | ok names =>
    obtain ⟨name, username⟩ := names
    by_cases hnone : s.store.users.of user.uid = []
    · cases provided with
      | none =>
        refine fresh_unchanged_iff hfresh (by simp [User.step, program, createUser, hvalid, hnone, User.exec]) ?_
        intro _ _ _ _ account haccount
        cases haccount
      | some account =>
        cases stored with
        | false =>
          refine fresh_unchanged_iff hfresh (by simp [User.step, program, createUser, hvalid, hnone, User.exec]) ?_
          intro _ _ _ _ _ _ hstored
          cases hstored
        | true =>
          have hstep : step s (.write (.create user data (some account) expiry true)) =
              s.wrote (s.store.users.set username (registered user name username data account expiry))
                (update s.store.profiles user.uid (some user)) := by
            simp [step, User.step, program, createUser, hvalid, hnone, User.exec, wrote]
          rw [hstep]
          have huid : (registered user name username data account expiry).uid = user.uid := rfl
          refine (fresh_created_iff hkeyed hfresh huid hnone).trans ?_
          simp [Harmless, hvalid, hnone, registered]
    · refine fresh_unchanged_iff hfresh (by simp [User.step, program, createUser, hvalid, hnone, User.exec]) ?_
      intro _ _ _ hempty
      exact absurd hempty hnone

theorem find_eq (hkeyed : s.store.users.Keyed) (hfresh : ∀ uid, s.Fresh uid)
    (hold : old ∈ s.store.users.of uid) (choice : Nat) :
    (s.store.users.of uid)[choice % (s.store.users.of uid).length]? = some old := by
  have hlt := Nat.mod_lt choice (length_pos_of_mem hold)
  rw [getElem?_eq_getElem hlt, (hfresh uid).unique hkeyed hold (getElem_mem hlt)]

theorem apply_of_isEmpty {changes : Changes} (hempty : changes.isEmpty = true) (old : Profile) :
    changes.username = none ∧ changes.apply old = old := by
  simp only [Changes.isEmpty, Bool.and_eq_true, Option.isNone_iff_eq_none] at hempty
  obtain ⟨⟨⟨hname, husername⟩, hemail⟩, hpicture⟩ := hempty
  simp [Changes.apply, hname, husername, hemail, hpicture]

theorem fresh_writeChanges_iff (hkeyed : s.store.users.Keyed) (hfresh : ∀ uid, s.Fresh uid)
    (hold : old ∈ s.store.users.of uid) (changes : Changes) :
    (∀ uid, Fresh ⟨(run User.exec (writeChanges old changes true) s.store).2, s.listed⟩ uid) ↔
      (∀ username ∈ changes.username, username = old.username) ∧
        ((changes.apply old).visible = old.visible ∨ s.Uncached uid) := by
  have huid : (changes.apply old).uid = uid := (mem_of.mp hold).1
  unfold writeChanges
  split_ifs with hother
  · obtain ⟨username, hname, hne⟩ := (Option.any_eq_true ..).mp hother
    have hne : username ≠ old.username := of_decide_eq_true hne
    have happly : (changes.apply old).username ≠ old.username := by simpa [Changes.apply, hname] using hne
    constructor
    · intro h
      exact absurd (h uid) (not_fresh_renamed hkeyed hold huid happly)
    · intro h
      exact absurd (h.1 username hname) hne
  · have hkept : ∀ username ∈ changes.username, username = old.username := by
      intro username hname
      by_contra hne
      exact hother ((Option.any_eq_true ..).mpr ⟨username, hname, decide_eq_true hne⟩)
    have hsame : (changes.apply old).username = old.username := by
      cases hname : changes.username with
      | none => simp [Changes.apply, hname]
      | some username => simpa [Changes.apply, hname] using hkept username hname
    have hget := get?_of_mem hkeyed hold
    have hafter : (⟨(run User.exec (ask (.update old.username changes true)) s.store).2, s.listed⟩ : Site) =
        s.wrote (s.store.users.set old.username (changes.apply old)) s.store.profiles := by
      simp [User.exec, hget, Dict.modify, wrote]
    rw [hafter, fresh_changed_iff hkeyed hfresh hold huid hsame]
    exact (and_iff_right hkept).symm

theorem fresh_update_iff (hkeyed : s.store.users.Keyed) (hfresh : ∀ uid, s.Fresh uid) (uid : String)
    (data : UpdateData) (choice : Nat) (stored : Bool) :
    (∀ other, (step s (.write (.update uid data choice stored))).Fresh other) ↔
      s.Harmless (.write (.update uid data choice stored)) := by
  cases hvalid : validateUpdateUser uid data with
  | some err =>
    refine fresh_unchanged_iff hfresh (by simp [User.step, program, updateUser, hvalid]) ?_
    intro hok
    rw [hvalid] at hok
    cases hok
  | none =>
    by_cases hempty : data.changes.isEmpty = true
    · refine fresh_unchanged_iff hfresh (by simp [User.step, program, updateUser, hvalid, hempty]) ?_
      intro _ _ old _
      obtain ⟨hname, hsame⟩ := apply_of_isEmpty hempty old
      simp [hname, hsame]
    · by_cases hnone : s.store.users.of uid = []
      · refine fresh_unchanged_iff hfresh ?_ ?_
        · simp [User.step, program, updateUser, hvalid, hempty, User.exec, hnone]
        · intro _ _ old hold
          rw [hnone] at hold
          cases hold
      · obtain ⟨old, hold⟩ := exists_mem_of_ne_nil _ hnone
        have hstep : User.step s.store (.update uid data choice stored) =
            (run User.exec (writeChanges old data.changes stored) s.store).2 := by
          simp [User.step, program, updateUser, hvalid, hempty, User.exec, find_eq hkeyed hfresh hold choice]
        cases stored with
        | false =>
          refine fresh_unchanged_iff hfresh ?_ ?_
          · rw [hstep, writeChanges]
            split_ifs <;> simp [User.exec]
          · intro _ hstored
            cases hstored
        | true =>
          simp only [step, hstep]
          rw [fresh_writeChanges_iff hkeyed hfresh hold]
          constructor
          · intro h _ _ profile hprofile
            rw [(hfresh uid).unique hkeyed hold hprofile]
            exact h
          · intro h
            exact h hvalid rfl old hold

theorem fresh_delete_iff (hkeyed : s.store.users.Keyed) (hfresh : ∀ uid, s.Fresh uid) (uid : String) (choice : Nat)
    (stored : Bool) :
    (∀ other, (step s (.write (.delete uid choice stored))).Fresh other) ↔
      s.Harmless (.write (.delete uid choice stored)) := by
  by_cases hnone : s.store.users.of uid = []
  · refine fresh_unchanged_iff hfresh (by simp [User.step, program, deleteUser, hnone, User.exec]) ?_
    intro _ hsome
    exact absurd hnone hsome
  · obtain ⟨old, hold⟩ := exists_mem_of_ne_nil _ hnone
    have hfind := find_eq hkeyed hfresh hold choice
    cases stored with
    | false =>
      refine fresh_unchanged_iff hfresh (by simp [User.step, program, deleteUser, hfind, User.exec]) ?_
      intro hstored
      cases hstored
    | true =>
      have hstep : step s (.write (.delete uid choice true)) =
          s.wrote (s.store.users.erase old.username) s.store.profiles := by
        simp [step, User.step, program, deleteUser, hfind, User.exec, wrote]
      rw [hstep, fresh_deleted_iff hkeyed hfresh hold]
      simp [Harmless, hnone]

end

/-! ### Runs -/

variable {s : Site}

theorem keyed_step (hkeyed : s.store.users.Keyed) (label : Label) : (step s label).store.users.Keyed := by
  have hexec : ∀ (query : Query) (s : Site), s.store.users.Keyed → (exec query s).2.store.users.Keyed := by
    intro query s hkeyed
    cases query <;> exact hkeyed
  cases label with
  | write op => exact (writes_step s.store op).keyed hkeyed
  | getProfile lookup actorUid => exact run_preserves hexec (getProfile lookup actorUid) hkeyed
  | getUsers lookups actorUid => exact run_preserves hexec (getUsers lookups actorUid) hkeyed

/-- The case of one call. -/
theorem harmless_iff (hkeyed : s.store.users.Keyed) (htransparent : s.Transparent) (label : Label) :
    (s.Answered label ∧ (step s label).Transparent) ↔ s.Harmless label := by
  rw [transparent_iff] at htransparent
  rw [transparent_iff]
  cases label with
  | write op =>
    simp only [Answered, true_and]
    cases op with
    | create user data provided expiry stored =>
      exact fresh_create_iff hkeyed htransparent user data provided expiry stored
    | update uid data choice stored => exact fresh_update_iff hkeyed htransparent uid data choice stored
    | delete uid choice stored => exact fresh_delete_iff hkeyed htransparent uid choice stored
  | getProfile lookup actorUid =>
    simp only [Harmless, iff_true]
    exact ⟨(htransparent lookup.uid).answered actorUid, fun uid => fresh_getProfile htransparent lookup actorUid⟩
  | getUsers lookups actorUid =>
    have hafter : ∀ uid, (step s (.getUsers lookups actorUid)).Fresh uid :=
      fun uid => fresh_of_grown (grown_getUsers s lookups actorUid) (htransparent uid)
    rw [answered_getUsers_iff, and_iff_left hafter]
    exact forall₂_congr fun lookup _ => (htransparent lookup.uid).holds_listed_iff

/-- The reads of a run are right, and so is every read that could be made in its stead, exactly if every call is
harmless. -/
theorem transparent_run_iff (s : Site) (hkeyed : s.store.users.Keyed) (htransparent : s.Transparent)
    (labels : List Label) :
    Along step (fun s label => s.Answered label ∧ (step s label).Transparent) s labels ↔
      Along step Harmless s labels := by
  have hstep : ∀ (s : Site) label, s.store.users.Keyed ∧ s.Transparent → s.Harmless label →
      (step s label).store.users.Keyed ∧ (step s label).Transparent := by
    rintro s label ⟨hkeyed, htransparent⟩ hharmless
    exact ⟨keyed_step hkeyed label, ((harmless_iff hkeyed htransparent label).mpr hharmless).2⟩
  refine along_iff_of_invariant hstep ?_ ⟨hkeyed, htransparent⟩
  rintro s label ⟨hkeyed, htransparent⟩
  exact harmless_iff hkeyed htransparent label

/-- One user is registered, and nothing is cached. -/
def stored (profile : Profile) : Site := ⟨⟨Dict.empty.set profile.username profile, fun _ => none⟩, fun _ => none⟩

theorem keyed_empty : Users.Keyed .empty := by simp [Users.Keyed]

theorem keyed_stored (profile : Profile) : (stored profile).store.users.Keyed := by
  intro id found hget
  simp only [stored, Dict.get?_set, Dict.get?_empty] at hget
  split_ifs at hget with hid
  cases hget
  exact hid.symm

theorem transparent_stored (profile : Profile) : (stored profile).Transparent := by
  rw [transparent_iff]
  have honly : ∀ uid found, found ∈ (stored profile).store.users.of uid → found = profile := by
    intro uid found hfound
    rcases (mem_of_set keyed_empty).mp hfound with ⟨heq, -⟩ | ⟨hnone, -⟩
    · exact heq
    · cases hnone
  intro uid
  refine ⟨fun _ hcached => ?_, fun _ hcached => ?_, fun found hfound => ⟨ne_nil_of_mem hfound, fun other hother => ?_⟩⟩
  · cases hcached
  · cases hcached
  · rw [honly uid found hfound, honly uid other hother]

def anna : Profile := ⟨"u1", "Anna", "anna", "u1@hide.io", "", "google.com", none⟩

/-- The user registers once more, which is refused, and changes their email. -/
def harmlessCalls : List Label :=
  [.write (registration "u1" "Anna B" "annab"), .getProfile ⟨"u1", 0, true⟩ "u2",
    .getUsers [⟨"u1", 0, true⟩, ⟨"u3", 0, false⟩] "u2",
    .write (.update "u1" ⟨some "u1", none, none, some "anna@mail.org", none, none⟩ 0 true),
    .getUsers [⟨"u1", 0, false⟩] "u1"]

theorem transparent_harmlessCalls :
    Along step Harmless (stored anna) harmlessCalls ∧
      Along step (fun s label => s.Answered label ∧ (step s label).Transparent) (stored anna) harmlessCalls := by
  have hharmless : Along step Harmless (stored anna) harmlessCalls := by
    refine ⟨?_, trivial, ?_, ?_, ?_, trivial⟩
    · intro name username _ hnone
      exact absurd hnone (by decide +kernel)
    · have hstored : ∀ lookup ∈ [Lookup.mk "u1" 0 true, ⟨"u3", 0, false⟩], lookup.served = true ∨
          (run step (stored anna) (harmlessCalls.take 2)).store.users.of lookup.uid = [] := by decide +kernel
      exact fun lookup hlookup _ => hstored lookup hlookup
    · intro _ _ old _
      refine ⟨fun username husername => ?_, .inl rfl⟩
      cases husername
    · have hlisted : ∀ lookup ∈ [Lookup.mk "u1" 0 false],
          (run step (stored anna) (harmlessCalls.take 4)).listed lookup.uid ≠ none := by decide +kernel
      exact fun lookup hlookup hnone => absurd hnone (hlisted lookup hlookup)
  exact ⟨hharmless, (transparent_run_iff (stored anna) (keyed_stored anna) (transparent_stored anna) _).mpr hharmless⟩

theorem not_answered_getProfile (profile : Profile)
    (hanswer : (run exec (getProfile ⟨uid, 0, true⟩ uid) s).1 = .ok user) (hmem : profile ∈ s.store.users.of uid)
    (hdiffers : profile.visible ≠ user.visible) : ¬s.Answered (.getProfile ⟨uid, 0, true⟩ uid) := by
  rintro ⟨hok, -⟩
  exact hdiffers ((hok user hanswer).2 profile hmem)

theorem not_answered_getUsers (profile : Profile) (hlisted : s.listed uid = some profile)
    (hdiffers : ¬s.Holds uid (some profile.visible)) : ¬s.Answered (.getUsers [⟨uid, 0, true⟩] actorUid) := by
  rw [answered_getUsers_iff]
  intro hanswered
  have hholds := hanswered _ mem_cons_self
  rw [hlisted] at hholds
  exact hdiffers hholds

/-- A user who registers is shown as the request named them; to others who have seen them, a new name is not shown, and
a profile that is deleted is. -/
theorem stale_reads :
    ¬Along step Answered .empty [.write (registration "u1" "Anna" "anna"), .getProfile ⟨"u1", 0, true⟩ "u1"] ∧
      ¬Along step Answered .empty [.write (registration "u1" "Anna" "anna"), .getUsers [⟨"u1", 0, true⟩] "u2",
          .write (newNames "u1" "Anna B" "anna"), .getUsers [⟨"u1", 0, true⟩] "u2"] ∧
      ¬Along step Answered .empty [.write (registration "u1" "Anna" "anna"), .getUsers [⟨"u1", 0, true⟩] "u2",
          .write (.delete "u1" 0 true), .getUsers [⟨"u1", 0, true⟩] "u2"] := by
  refine ⟨?_, ?_, ?_⟩
  · rintro ⟨-, hanswered, -⟩
    refine not_answered_getProfile ⟨"u1", "", "", some "u1@hide.io", "", some "google.com", none⟩ anna ?_ ?_ ?_
      hanswered <;> decide +kernel
  · rintro ⟨-, -, -, hanswered, -⟩
    refine not_answered_getUsers "u2" anna ?_ ?_ hanswered
    · decide +kernel
    · intro hholds
      exact absurd (hholds.2 { anna with name := "Anna B" } (by decide +kernel)) (by decide)
  · rintro ⟨-, -, -, hanswered, -⟩
    refine not_answered_getUsers "u2" anna ?_ ?_ hanswered
    · decide +kernel
    · intro hholds
      exact absurd hholds.1 (by decide +kernel)

end Site

end HideServer.User
