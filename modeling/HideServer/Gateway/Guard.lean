import HideServer.Async.Pool
import HideServer.User.Reading

/-!
# Who passes the guard

A request is let through if its token is valid and its user has a profile, cached or among the
documents. What is found is cached, and what is cached is not looked up again. A socket connects
whether there is a profile or not.
-/

namespace HideServer.Gateway.Guard

open Async Async.Prog Cache User

/-- `none` if the documents cannot be read. So do the guard, `handleAuthentication` and `getUserProfile`. -/
def findProfile (lookup : Lookup) : Query.Io (Option (Option Profile)) := do
  let cached : Option Profile ← query (.cachedProfile lookup.uid)
  match cached with
  | some profile => return some (some profile)
  | none =>
    let found : Option (Option Profile) ← query (.find lookup.uid lookup.choice lookup.served)
    match found with
    | some (some profile) =>
      query (.cacheProfile lookup.uid profile)
      return some (some profile)
    | _ => return found

def bearer (header : String) : String :=
  if "Bearer ".toList.isPrefixOf header.toList then String.ofList ((header.toList.splitOn ' ')[1]?.getD []) else header

/-- The user of the request, and whether it is let through; `none` if the guard throws. -/
abbrev Outcome := Option (String × Bool)

/-- `validate` is what the auth service makes of a token. -/
def canActivate (validate : String → Option String) (authorization : Option String) (path : String) (choice : Nat)
    (served : Bool) : Query.Io Outcome :=
  match (given authorization).map (validate ∘ bearer) with
  | some (some uid) => do
    if path = "/api/user/register" then return some (uid, true)
    let profile ← findProfile ⟨uid, choice, served⟩
    return profile.map fun profile => (uid, profile.isSome)
  | _ => return none

/-- The profile is looked up and cached, but not asked for. -/
def handleAuthentication (validate : String → Option String) (token : String) (choice : Nat) (served : Bool) :
    Query.Io Outcome :=
  match validate token with
  | none => return none
  | some uid => do
    let profile ← findProfile ⟨uid, choice, served⟩
    return profile.map fun _ => (uid, true)

def refreshProfileCheckCache (data : Profile) : Query.Io Unit := do
  let cached : Option Profile ← query (.cachedProfile data.uid)
  match cached with
  | none => query (.cacheProfile data.uid data)
  | some _ => return ()

inductive Op where
  | guard (validate : String → Option String) (authorization : Option String) (path : String) (choice : Nat) (served : Bool)
  | socket (validate : String → Option String) (token : String) (choice : Nat) (served : Bool)
  | getUserProfile (lookup : Lookup)
  | getProfile (lookup : Lookup) (actorUid : String)
  | registered (data : Profile)

def program : Op → Query.Io Outcome
  | .guard validate authorization path choice served => canActivate validate authorization path choice served
  | .socket validate token choice served => handleAuthentication validate token choice served
  | .getUserProfile lookup => do
    let _ ← findProfile lookup
    return none
  | .getProfile lookup actorUid => do
    let _ ← User.getProfile lookup actorUid
    return none
  | .registered data => do
    refreshProfileCheckCache data
    return none

inductive Change where
  | documents (users : Users)
  /-- `createUser` caches the user, and `removeCaches` deletes what is cached. -/
  | cached (uid : String) (profile : Option Profile)

def change (s : Site) : Change → Site
  | .documents users => { s with store := { s.store with users := users } }
  | .cached uid profile => { s with store := { s.store with profiles := Function.update s.store.profiles uid profile } }

abbrev Service := Pool Site Op Query Query.Answer Outcome

def step : Service → Action Op Change → Service := Pool.step program Site.exec change

/-- No step stores or caches a profile of the user. -/
def Unregistered (uid : String) (_ : Service) : Action Op Change → Prop
  | .spawn (.registered data) => data.uid ≠ uid
  | .outside (.documents users) => users.of uid = []
  | .outside (.cached other profile) => other = uid → profile = none
  | _ => True

/-- The request is not let through. -/
def Refuses (uid : String) : Op → Outcome → Prop
  | .guard _ _ path _ _, outcome => path ≠ "/api/user/register" → outcome ≠ some (uid, true)
  | _, _ => True

def Nothing (uid : String) : (query : Query) → query.Answer → Prop
  | .cachedProfile other, cached => other = uid → cached = none
  | .find other _ _, found => other = uid → ∀ profile, found ≠ some (some profile)
  | _, _ => True

def Spares (uid : String) : Query → Prop
  | .cacheProfile other _ => other ≠ uid
  | _ => True

/-- There is no profile, and no task has one at hand: if it finds nothing, it caches nothing and lets nobody pass. -/
def ShutOut (uid : String) : Service → Prop :=
  Pool.Assured (fun s => s.store.users.of uid = [] ∧ s.store.profiles uid = none) (Spares uid) (Nothing uid) (Refuses uid)

variable {uid : String}

theorem safe_findProfile (lookup : Lookup) :
    (findProfile lookup).Safe (Spares uid) (Nothing uid) fun found => lookup.uid = uid → ∀ profile, found ≠ some (some profile) := by
  refine .perform_bind trivial fun cached hcached => ?_
  cases cached with
  | some profile => exact fun huid => absurd (hcached huid) nofun
  | none =>
    refine .perform_bind trivial fun found hfound => ?_
    split
    · have hother : lookup.uid ≠ uid := fun huid => hfound huid _ rfl
      exact ⟨hother, fun _ _ huid => absurd huid hother⟩
    · exact hfound

theorem safe_program {op : Op} (hop : ∀ data, op = .registered data → data.uid ≠ uid) :
    (program op).Safe (Spares uid) (Nothing uid) (Refuses uid op) := by
  cases op with
  | guard validate authorization path choice served =>
    simp only [program, canActivate]
    split
    · refine .ite (fun hpath hne => absurd hpath hne) fun _ => .bind (safe_findProfile _) fun found hfound _ hpassed => ?_
      obtain ⟨profile, rfl, heq⟩ := Option.map_eq_some_iff.mp hpassed
      cases profile with
      | none => simp at heq
      | some profile => exact hfound (congrArg Prod.fst heq) profile rfl
    · exact nofun
  | socket validate token choice served =>
    simp only [program, handleAuthentication]
    split
    · trivial
    · exact .bind (safe_findProfile _) fun _ _ => trivial
  | getUserProfile lookup => exact .bind (safe_findProfile lookup) fun _ _ => trivial
  | getProfile lookup actorUid =>
    refine .perform_bind trivial fun cached _ => ?_
    cases cached with
    | some profile => trivial
    | none =>
      refine .perform_bind trivial fun found hfound => ?_
      rcases found with _ | _ | profile
      · trivial
      · trivial
      · exact .single (fun huid => hfound huid profile rfl)
  | registered data =>
    refine .perform_bind trivial fun cached _ => ?_
    cases cached with
    | none => exact .single (hop data rfl)
    | some profile => trivial

theorem ShutOut.step {pool : Service} (h : ShutOut uid pool) {action : Action Op Change}
    (haction : Unregistered uid pool action) : ShutOut uid (step pool action) := by
  apply Pool.assured_step h
  · rintro op rfl
    refine safe_program fun data hdata => ?_
    subst hdata
    exact haction
  · intro query
    cases query with
    | cachedProfile other =>
      refine ⟨?_, fun _ => h.shared⟩
      rintro rfl
      exact h.shared.2
    | find other choice served =>
      refine ⟨?_, fun _ => h.shared⟩
      rintro rfl profile
      simp only [Site.exec, h.shared.1]
      split <;> simp
    | cacheProfile other profile =>
      exact ⟨trivial, fun hother => ⟨h.shared.1, (Function.update_of_ne (Ne.symm hother) ..).trans h.shared.2⟩⟩
    | _ => exact ⟨trivial, fun _ => h.shared⟩
  · rintro a rfl
    cases a with
    | documents users => exact ⟨haction, h.shared.2⟩
    | cached other profile =>
      refine ⟨h.shared.1, ?_⟩
      simp only [change, Function.update_apply]
      split_ifs with huid
      · exact haction huid.symm
      · exact h.shared.2

/-- A user without a profile stays shut out, however the calls are interleaved, until a registration stores or caches
one. -/
theorem shut_out {pool : Service} (h : ShutOut uid pool) (actions : List (Action Op Change))
    (hrun : Trace.Along step (Unregistered uid) pool actions) :
    ∀ task ∈ (Trace.run step pool actions).tasks, ∀ outcome, task.prog = .ret outcome → Refuses uid task.op outcome := by
  have hfinal : ShutOut uid (Trace.run step pool actions) := Trace.run_invariant (fun _ _ h haction => h.step haction) h hrun
  exact fun task htask outcome hended => hfinal.ended htask hended

def request : Op := .guard some (some "Bearer alice") "/api/workspace/all" 0 true

def asked : List (Action Op Change) := [.spawn request, .resume 0, .resume 0]

theorem shut_out_alice : (Trace.run step ⟨.empty, []⟩ asked).tasks.map (·.prog) = [.ret (some ("alice", false))] ∧
    Refuses "alice" request (some ("alice", false)) :=
  have hstart : ShutOut "alice" ⟨.empty, []⟩ := ⟨⟨rfl, rfl⟩, by simp⟩
  ⟨rfl, shut_out hstart asked (by simp [asked, Unregistered, request]) _ (.head []) _ rfl⟩

/-- No step deletes the cached profile. -/
def Undeleted (uid : String) (_ : Service) : Action Op Change → Prop
  | .outside (.cached other profile) => other = uid → profile.isSome
  | _ => True

/-- The request is let through. -/
def Admits (uid : String) : Op → Outcome → Prop
  | .guard validate authorization _ _ _, outcome =>
    (given authorization).map (validate ∘ bearer) = some (some uid) → outcome = some (uid, true)
  | _, _ => True

def Known (uid : String) : (query : Query) → query.Answer → Prop
  | .cachedProfile other, cached => other = uid → cached.isSome
  | _, _ => True

/-- A profile is cached, and no call of the guard has missed it. -/
def LetIn (uid : String) : Service → Prop :=
  Pool.Assured (fun s => (s.store.profiles uid).isSome) (fun _ => True) (Known uid) (Admits uid)

theorem known_findProfile (lookup : Lookup) :
    (findProfile lookup).Safe (fun _ => True) (Known uid) fun found => lookup.uid = uid → ∃ profile, found = some (some profile) := by
  refine .perform_bind trivial fun cached hcached => ?_
  cases cached with
  | some profile => exact fun _ => ⟨profile, rfl⟩
  | none =>
    have hother : lookup.uid ≠ uid := fun huid => Bool.false_ne_true (hcached huid)
    refine .perform_bind trivial fun found _ => ?_
    split
    · exact ⟨trivial, fun _ _ huid => absurd huid hother⟩
    · exact fun huid => absurd huid hother

theorem known_program (op : Op) : (program op).Safe (fun _ => True) (Known uid) (Admits uid op) := by
  cases op with
  | guard validate authorization path choice served =>
    simp only [program, canActivate]
    split
    · rename_i other hother
      refine .ite (fun _ huid => ?_) fun _ => .bind (known_findProfile _) fun found hfound huid => ?_
      all_goals cases hother.symm.trans huid
      · rfl
      · obtain ⟨profile, rfl⟩ := hfound rfl
        rfl
    · rename_i hnone
      exact fun huid => absurd huid (hnone uid)
  | _ => exact .any _

theorem LetIn.step {pool : Service} (h : LetIn uid pool) {action : Action Op Change} (haction : Undeleted uid pool action) :
    LetIn uid (step pool action) := by
  apply Pool.assured_step h fun op _ => known_program op
  · intro query
    cases query with
    | cachedProfile other =>
      refine ⟨?_, fun _ => h.shared⟩
      rintro rfl
      exact h.shared
    | cacheProfile other profile =>
      refine ⟨trivial, fun _ => ?_⟩
      simp only [Site.exec, Function.update_apply]
      split_ifs
      · rfl
      · exact h.shared
    | _ => exact ⟨trivial, fun _ => h.shared⟩
  · rintro a rfl
    cases a with
    | documents users => exact h.shared
    | cached other profile =>
      simp only [change, Function.update_apply]
      split_ifs with huid
      · exact haction huid.symm
      · exact h.shared

/-- A user whose profile is cached is let in with every valid token, whatever becomes of the documents, until what is
cached is deleted. -/
theorem let_in {pool : Service} (h : LetIn uid pool) (actions : List (Action Op Change))
    (hrun : Trace.Along step (Undeleted uid) pool actions) :
    ∀ task ∈ (Trace.run step pool actions).tasks, ∀ outcome, task.prog = .ret outcome → Admits uid task.op outcome := by
  have hfinal : LetIn uid (Trace.run step pool actions) := Trace.run_invariant (fun _ _ h haction => h.step haction) h hrun
  exact fun task htask outcome hended => hfinal.ended htask hended

def known : Service := step ⟨.empty, []⟩ (.outside (.cached "alice" (some ⟨"alice", "", "", "", "", "", none⟩)))

theorem let_in_alice : (Trace.run step known asked).tasks.map (·.prog) = [.ret (some ("alice", true))] ∧
    Admits "alice" request (some ("alice", true)) :=
  have hstart : LetIn "alice" known := ⟨rfl, by simp [known, step]⟩
  ⟨rfl, let_in hstart asked (by simp [asked, Undeleted, request]) _ (.head []) _ rfl⟩

end HideServer.Gateway.Guard
