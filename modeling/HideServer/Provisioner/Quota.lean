import Mathlib.Data.Finset.Card
import HideServer.Manage.Owners
import HideServer.Provisioner.Recording

/-!
# The creation quota

The workspaces of a user are counted before a request goes ahead, and the row is written when the
workspace answers. The requests of one user run side by side over the workspace service. One that was
found eligible holds a place until it is over or its row is there.
-/

namespace HideServer.Manage

/-- The workspaces of a user. -/
def Store.existing (s : Store) (uid : String) : Finset Nat :=
  (Finset.range s.workspaces.next).filter fun id =>
    (s.workspaces.rows id).isSome ∧ (s.memberships.get? (id, uid)).isSome

def Store.existingCount (s : Store) (uid : String) : Nat := (s.existing uid).card

structure Limits where
  guest : Option Int
  nonGuest : Option Int
  deriving DecidableEq, Repr

def Limits.limit (limits : Limits) (isGuest : Bool) : Int :=
  (if isGuest then limits.guest else limits.nonGuest).getD 1

/-- `account` says whether the user is a guest, if the lookup of the account succeeds. -/
def checkEligibility (s : Store) (uid : String) (limits : Limits) (account : Option Bool) : Except String Unit :=
  match account with
  | none => .error "Internal server error"
  | some isGuest =>
    if (s.existingCount uid : Int) ≥ limits.limit isGuest then .error "MAX_WORKSPACE_QUOTA_REACHED" else .ok ()

theorem mem_existing {s : Store} {uid : String} {id : Nat} :
    id ∈ s.existing uid ↔ s.roster.uuid id ≠ none ∧ s.roster.role id uid ≠ none := by
  simp only [Store.existing, Finset.mem_filter, Finset.mem_range, ne_eq, uuid_eq_none_iff, Option.isSome_iff_ne_none]
  refine ⟨fun h => h.2, fun h => ⟨?_, h⟩⟩
  obtain ⟨row, hrow⟩ := Option.ne_none_iff_exists'.mp h.1
  exact s.workspaces.lt_next hrow

theorem existingCount_create (s : Store) (uid : String) (data : CreateData) (uuid : String) (profile commits : Bool) :
    (perform s (.create uid data uuid profile commits)).existingCount uid ≤ s.existingCount uid + 1 := by
  refine (Finset.card_le_card fun id hid => ?_).trans (Finset.card_insert_le s.workspaces.next (s.existing uid))
  rw [mem_existing] at hid
  rw [Finset.mem_insert, mem_existing]
  obtain hsame | ⟨hfound, -⟩ := roster_create s uid data uuid profile commits
  · rw [hsame] at hid
    exact .inr hid
  · rw [hfound] at hid
    by_cases hnew : id = s.workspaces.next
    · exact .inl hnew
    · simp only [Roster.found, hnew, if_false, false_and] at hid
      exact .inr hid

/-- The operation brings this user to no workspace. -/
def Op.Foreign (uid : String) : Op → Prop
  | .create user .. | .accept user .. => user ≠ uid
  | _ => True

theorem Becomes.role_of_foreign {s : Store} {op : Op} {after : Roster} (h : Becomes s op after) {uid : String}
    (hop : op.Foreign uid) {id : Nat} (hrole : after.role id uid ≠ none) : s.roster.role id uid ≠ none := by
  contrapose! hrole
  have hother {user : String} {key : Nat} (huser : user ≠ uid) : ¬(id = key ∧ uid = user) := fun hboth => huser hboth.2.symm
  cases h with
  | same => exact hrole
  | found =>
    simp only [Roster.found, if_neg (hother hop)]
    exact hrole
  | joined =>
    simp only [Roster.join, if_neg (hother hop)]
    exact hrole
  | kept => simp [Roster.keep, hrole]
  | dissolved | stayed => simp [Roster.dissolve, hrole]
  | left => simp [Roster.depart, Roster.dissolve, hrole]

theorem existingCount_foreign {s : Store} (hproper : s.roster.Proper) {uid : String} {op : Op} (hop : op.Foreign uid) :
    (perform s op).existingCount uid ≤ s.existingCount uid := by
  refine Finset.card_le_card fun id hid => ?_
  rw [mem_existing] at hid ⊢
  have hrole := (becomes_perform hproper op).role_of_foreign hop hid.2
  exact ⟨hproper.refers id uid hrole, hrole⟩

end HideServer.Manage

namespace HideServer.Provisioner

open Async Async.Prog Trace Manage

/-- What every other service answers just now. -/
structure Surroundings where
  others : (call : Call) → call.Answer
  identified : Bool
  /-- The profile of the user can be had, and the database commits. -/
  profile : Bool
  commits : Bool
  responds : Bool

structure Service where
  store : Manage.Store
  now : Surroundings

def Surroundings.deliver (now : Surroundings) (answer : HttpAnswer) : HttpAnswer :=
  if now.responds then answer else .failed

def eligibilityEndpoint (result : Except String Unit) : HttpAnswer :=
  match result with
  | .ok () => .answered 200 .malformed
  | .error message =>
    if message = "MAX_WORKSPACE_QUOTA_REACHED" then .answered 403 (.json message .zero)
    else .answered 500 (.json message .zero)

structure Customer where
  uid : String
  isGuest : Bool
  limits : Manage.Limits
  deriving DecidableEq, Repr

def Customer.limit (customer : Customer) : Int := customer.limits.limit customer.isGuest

namespace Service

def exec (customer : Customer) : (call : Call) → Service → call.Answer × Service
  | .checkEligibility _, s =>
    let account := if s.now.identified then some customer.isGuest else none
    (s.now.deliver (eligibilityEndpoint (Manage.checkEligibility s.store customer.uid customer.limits account)), s)
  | .createWorkspace _ req uuid, s =>
    let answered := createEndpoint s.store customer.uid req uuid s.now.profile s.now.commits
    (s.now.deliver answered.1, { s with store := answered.2 })
  | call, s => (s.now.others call, s)

/-- What happens besides the requests: the world changes, or the workspace service does something for others. -/
inductive Outside (uid : String) where
  | change (now : Surroundings)
  | elsewhere (op : { op : Manage.Op // op.Foreign uid })

def outside {uid : String} (s : Service) : Outside uid → Service
  | .change now => { s with now := now }
  | .elsewhere op => { s with store := perform s.store op.1 }

theorem createEndpoint_store (store : Manage.Store) (uid : String) (req : ProvisionRequest) (uuid : String)
    (profile commits : Bool) :
    (createEndpoint store uid req uuid profile commits).2 = perform store
        (.create uid ⟨some req.name, req.description, req.image, req.dedicated⟩ uuid profile commits) := by
  unfold createEndpoint
  dsimp only
  split
  · rfl
  · split_ifs <;> rfl

theorem exec_store {customer : Customer} {call : Call} {s : Service}
    (h : ∀ header req uuid, call ≠ .createWorkspace header req uuid) : (exec customer call s).2.store = s.store := by
  cases call with
  | createWorkspace header req uuid => exact absurd rfl (h header req uuid)
  | _ => rfl

theorem below_limit_of_exec {customer : Customer} {header : String} {body : Body} {s : Service}
    (h : (exec customer (.checkEligibility header) s).1 = .answered 200 body) :
    (s.store.existingCount customer.uid : Int) < customer.limit := by
  by_contra hfull
  revert h
  simp only [exec, Surroundings.deliver, Manage.checkEligibility]
  cases s.now.responds <;> cases s.now.identified
  · simp
  · simp
  · simp [eligibilityEndpoint]
  · have hge : (s.store.existingCount customer.uid : Int) ≥ customer.limits.limit customer.isGuest := not_lt.mp hfull
    simp [eligibilityEndpoint, hge]

end Service

inductive Stage where
  | arriving
  | eligible
  | spent
  deriving DecidableEq, Repr

/-- A row is asked for only once, and only after the check. -/
def checking : Protocol Call Call.Answer Stage where
  allowed stage call :=
    match call with
    | .createWorkspace .. => stage = .eligible
    | _ => True
  after stage call answer :=
    match stage, call, answer with
    | .arriving, .checkEligibility _, .answered 200 _ => .eligible
    | _, .createWorkspace .., _ => .spent
    | stage, _, _ => stage

theorem below_limit_of_after {customer : Customer} {s : Service} {stage : Stage} {call : Call} (hstage : stage ≠ .eligible)
    (h : checking.after stage call (Service.exec customer call s).1 = .eligible) :
    (∃ header, call = .checkEligibility header) ∧ (s.store.existingCount customer.uid : Int) < customer.limit := by
  cases call with
  | createWorkspace => cases stage <;> cases h
  | checkEligibility header =>
    refine ⟨⟨header, rfl⟩, ?_⟩
    cases stage with
    | eligible | spent => cases hstage h
    | arriving =>
      generalize hanswer : (Service.exec customer (.checkEligibility header) s).1 = answer at h
      rcases answer with _ | ⟨status, body⟩
      · cases h
      · by_cases hstatus : status = 200
        · subst hstatus
          exact Service.below_limit_of_exec hanswer
        · simp [checking, hstatus] at h
  | _ => cases stage <;> cases hstage h

abbrev NewRequest := { req : ProvisionRequest // req.uuid = "" }

/-- A request, served as a whole. -/
def handle (settings : Settings) (userHeader : String) (req : NewRequest) : Io Reply :=
  serve settings ⟨"POST", some req.1, userHeader⟩

theorem overlooks_checking : Overlooks checking := by
  refine fun call hcall stage => ⟨?_, fun answer => ?_⟩
  · cases call with
    | createWorkspace => cases hcall
    | _ => trivial
  · cases call with
    | createWorkspace | checkEligibility => cases hcall
    | _ => cases stage <;> rfl

/-- What validation leads to. -/
def Cleared (refusal : Option Decision) (stage : Stage) : Prop :=
  match refusal with
  | none => stage = .eligible
  | some decision => decision.job = none

/-- What the decision leads to. -/
def Decided (decision : Decision) (stage : Stage) : Prop :=
  decision.job = none ∨ decision.job = some true ∧ stage = .eligible

section

variable (settings : Settings) (userHeader : String) (req : NewRequest)

theorem eligible_checkEligibility :
    (checkEligibility userHeader).Follows checking (fun result stage => result = .ok true → stage = .eligible)
      .arriving := by
  refine .perform_bind trivial fun answer => ?_
  rcases answer with _ | ⟨status, body⟩
  · intro herror
    cases herror
  · intro hok
    obtain rfl : status = 200 := of_decide_eq_true (Except.ok.inj hok)
    rfl

theorem cleared_validate : (validate req.1 userHeader).Follows checking Cleared .arriving := by
  unfold validate
  rw [if_pos req.2]
  refine overlooks_checking.perform_bind (by trivial) fun _ => .ite (fun _ => rfl) fun _ => ?_
  refine overlooks_checking.perform_bind (by trivial) fun templates => ?_
  cases templates with
  | none => rfl
  | some templates =>
    refine .ite (fun _ => rfl) fun _ => .ite (fun _ => rfl) fun _ => .ite (fun huuid => absurd req.2 huuid) fun _ => ?_
    refine (eligible_checkEligibility userHeader).bind fun result stage heligible => ?_
    cases result with
    | error err => rfl
    | ok passed =>
      cases passed with
      | false => rfl
      | true => exact heligible rfl

theorem decided_create : (create req.1 userHeader).Follows checking Decided .eligible := by
  have hconsumed : (if req.1.dedicated = true then consumeAccessCode req.1.accessCode userHeader else return .ok ()).Follows
      checking (fun _ stage => stage = .eligible) .eligible :=
    .ite (fun _ => overlooks_checking.perform_bind (by trivial) fun _ => rfl) fun _ => rfl
  refine hconsumed.bind ?_
  rintro result stage rfl
  cases result with
  | error err => exact .inl rfl
  | ok value => exact .inr ⟨rfl, rfl⟩

theorem decided_provisionHandler :
    (provisionHandler settings ⟨"POST", some req.1, userHeader⟩).Follows checking Decided .arriving := by
  refine (cleared_validate userHeader req).bind fun refusal stage hcleared => ?_
  cases refusal with
  | some decision => exact .inl hcleared
  | none =>
    obtain rfl : stage = .eligible := hcleared
    exact .ite (fun huuid => absurd req.2 huuid) fun _ => decided_create userHeader req

theorem follows_finishProvision (privateKey uuid : String) :
    (finishProvision req.1 userHeader true privateKey uuid).Follows checking (fun _ _ => True) .eligible := by
  have hcreate : (createWorkspace req.1 userHeader uuid).Follows checking (fun _ _ => True) .eligible := by
    refine .perform_bind rfl fun answer => ?_
    rcases answer with _ | ⟨status, body⟩
    · trivial
    · cases body <;> trivial
  exact hcreate.bind fun _ _ _ => .perform_bind trivial fun _ => trivial

theorem follows_background : (background settings req.1 userHeader true).Follows checking (fun _ _ => True) .eligible := by
  have hprovision : (provision settings req.1 userHeader true).Follows checking (fun _ _ => True) .eligible := by
    refine follows_provision settings req.1 overlooks_checking trivial ?_ (follows_finishProvision userHeader req)
    rintro after - message err
    exact ⟨trivial, fun _ => trivial⟩
  refine hprovision.bind fun result stage _ => ?_
  cases result with
  | error | ok => exact .ite (fun _ => overlooks_checking.perform_bind (by trivial) fun _ => trivial) fun _ => trivial

theorem follows_handle : (handle settings userHeader req).Follows checking (fun _ _ => True) .arriving := by
  refine (decided_provisionHandler settings userHeader req).bind fun decision stage hdecided => ?_
  have hjob : (startJob settings ⟨"POST", some req.1, userHeader⟩ decision).Follows checking (fun _ _ => True) stage := by
    unfold startJob
    rcases hdecided with hnone | ⟨hnew, rfl⟩
    · rw [hnone]
      trivial
    · rw [hnew]
      exact follows_background settings userHeader req
  exact hjob.bind fun _ _ _ => trivial

end

abbrev Requests := Pool Service NewRequest Call Call.Answer Reply

def Call.isCheck : Call → Bool
  | .checkEligibility _ => true
  | _ => false

namespace Requests

def holdsPlace (task : Task NewRequest Call Call.Answer Reply) : Bool :=
  checking.reached .arriving task.seen = .eligible && task.prog.head?.isSome

def places (pool : Requests) : Nat := pool.tasks.countP holdsPlace

variable (settings : Settings) (userHeader : String) (customer : Customer)

def step : Requests → Action NewRequest (Service.Outside customer.uid) → Requests :=
  Pool.step (handle settings userHeader) (Service.exec customer) Service.outside

/-- The user has no more workspaces than the limit. -/
def WithinQuota (pool : Requests) : Prop :=
  (pool.shared.store.existingCount customer.uid : Int) ≤ customer.limit
  deriving Decidable

def checks (pool : Requests) : Action NewRequest (Service.Outside customer.uid) → Bool
  | .resume i => (pool.next? i).any fun next => next.2.isCheck
  | _ => false

/-- Where a request is found eligible, there is room besides the rows and the places that are held. -/
def ChecksWithRoom (pool : Requests) (action : Action NewRequest (Service.Outside customer.uid)) : Prop :=
  checks customer pool action = true → (pool.shared.store.existingCount customer.uid : Int) < customer.limit →
    (pool.shared.store.existingCount customer.uid + pool.places : Int) < customer.limit

instance (pool : Requests) (action : Action NewRequest (Service.Outside customer.uid)) :
    Decidable (ChecksWithRoom customer pool action) :=
  inferInstanceAs (Decidable (_ → _ → _))

/-- Rows and places together are within the limit. -/
def Fits (pool : Requests) : Prop :=
  (pool.shared.store.existingCount customer.uid + pool.places : Int) ≤ customer.limit

structure Accounted (pool : Requests) : Prop where
  keeps : pool.Keeps (fun _ => checking) .arriving
  proper : pool.shared.store.roster.Proper
  fits : Fits customer pool

variable {settings userHeader customer} {pool : Requests}

theorem places_spawn (req : NewRequest) :
    places (step settings userHeader customer pool (.spawn req)) = pool.places := by
  change List.countP holdsPlace (pool.tasks ++ [_]) = _
  rw [List.countP_append, List.countP_singleton]
  rfl

section

variable (settings userHeader customer) {i : Nat} {task : Task NewRequest Call Call.Answer Reply} {call : Call}
  {next : call.Answer → Io Reply} (htask : pool.tasks[i]? = some task) (hprog : task.prog = .await call next)
include htask hprog

theorem shared_resume :
    (step settings userHeader customer pool (.resume i)).shared = (Service.exec customer call pool.shared).2 := by
  rw [step, Pool.step_resume_of_await _ _ _ htask hprog]

theorem places_resume :
    places (step settings userHeader customer pool (.resume i)) +
        (if checking.reached .arriving task.seen = .eligible then 1 else 0) ≤
      pool.places +
        if checking.after (checking.reached .arriving task.seen) call (Service.exec customer call pool.shared).1 = .eligible
          then 1 else 0 := by
  have hcount : places (step settings userHeader customer pool (.resume i)) + _ = _ :=
    Pool.countP_resume _ _ _ htask hprog holdsPlace
  have hbefore : holdsPlace task = decide (checking.reached .arriving task.seen = .eligible) := by
    simp [holdsPlace, hprog, head?]
  simp only [hbefore, decide_eq_true_eq] at hcount
  rw [hcount]
  refine Nat.add_le_add_left ?_ _
  simp only [holdsPlace, Protocol.reached_snoc, Bool.and_eq_true, decide_eq_true_eq]
  split_ifs with hholds heligible
  · exact le_rfl
  · exact absurd hholds.1 heligible
  · exact Nat.zero_le _
  · exact le_rfl

variable {customer} (h : Accounted customer pool)
include h

theorem fits_create {header uuid : String} {req : ProvisionRequest} (hcall : call = .createWorkspace header req uuid) :
    Fits customer (step settings userHeader customer pool (.resume i)) := by
  subst hcall
  have hfollows := h.keeps task (List.mem_of_getElem? htask)
  rw [hprog] at hfollows
  have heligible : checking.reached .arriving task.seen = .eligible := hfollows.1
  have hplaces := places_resume settings userHeader customer htask hprog
  rw [if_pos heligible, heligible, if_neg (by simp [checking])] at hplaces
  have hstore : (Service.exec customer (.createWorkspace header req uuid) pool.shared).2.store.existingCount customer.uid ≤
      pool.shared.store.existingCount customer.uid + 1 := by
    rw [Service.exec, Service.createEndpoint_store]
    exact existingCount_create ..
  have hfits : (_ : Int) ≤ _ := h.fits
  rw [Fits, shared_resume settings userHeader customer htask hprog]
  omega

theorem fits_other (hcall : ∀ header req uuid, call ≠ .createWorkspace header req uuid)
    (hroom : ChecksWithRoom customer pool (.resume i)) :
    Fits customer (step settings userHeader customer pool (.resume i)) := by
  have hplaces := places_resume settings userHeader customer htask hprog
  have hfits : (_ : Int) ≤ _ := h.fits
  rw [Fits, shared_resume settings userHeader customer htask hprog, Service.exec_store hcall]
  by_cases heligible : checking.reached .arriving task.seen = .eligible
  · split_ifs at hplaces <;> omega
  · split_ifs at hplaces with hafter
    · obtain ⟨⟨header, rfl⟩, hbelow⟩ := below_limit_of_after heligible hafter
      have hchecks : checks customer pool (.resume i) = true := by
        simp [checks, Pool.next?, htask, hprog, head?, Call.isCheck]
      have hfree := hroom hchecks hbelow
      omega
    · omega

end

/-- A request that is checked while there is room fits in. -/
theorem fits_step (h : Accounted customer pool) {action : Action NewRequest (Service.Outside customer.uid)}
    (hroom : ChecksWithRoom customer pool action) : Fits customer (step settings userHeader customer pool action) := by
  cases action with
  | spawn req =>
    rw [Fits, places_spawn]
    exact h.fits
  | resume i =>
    rcases Pool.step_resume_cases (handle settings userHeader) (Service.exec customer)
        (Service.outside : Service → Service.Outside customer.uid → Service) pool i with
      hsame | ⟨task, call, next, htask, hprog, -⟩
    · rw [step, hsame]
      exact h.fits
    · by_cases hcall : ∃ header req uuid, call = .createWorkspace header req uuid
      · obtain ⟨header, req, uuid, hcreate⟩ := hcall
        exact fits_create settings userHeader htask hprog h hcreate
      · push Not at hcall
        exact fits_other settings userHeader htask hprog h hcall hroom
  | outside a =>
    cases a with
    | change now => exact h.fits
    | elsewhere op =>
      have hfewer := existingCount_foreign h.proper op.2
      exact (Int.add_le_add_right (Int.ofNat_le.mpr hfewer) _).trans h.fits

theorem proper_step (hproper : pool.shared.store.roster.Proper)
    (action : Action NewRequest (Service.Outside customer.uid)) :
    (step settings userHeader customer pool action).shared.store.roster.Proper := by
  rcases Pool.step_shared_cases (handle settings userHeader) (Service.exec customer) Service.outside pool action with
    hsame | ⟨i, req, call, -, -, hcall⟩ | ⟨a, -, hout⟩
  · rw [step, hsame]
    exact hproper
  · rw [step, hcall]
    by_cases hcreate : ∃ header req uuid, call = .createWorkspace header req uuid
    · obtain ⟨header, req, uuid, rfl⟩ := hcreate
      rw [Service.exec, Service.createEndpoint_store]
      exact proper_perform hproper _
    · push Not at hcreate
      rw [Service.exec_store hcreate]
      exact hproper
  · rw [step, hout]
    cases a with
    | change now => exact hproper
    | elsewhere op => exact proper_perform hproper op.1

theorem accounted_step (h : Accounted customer pool) {action : Action NewRequest (Service.Outside customer.uid)}
    (hroom : ChecksWithRoom customer pool action) : Accounted customer (step settings userHeader customer pool action) :=
  ⟨Pool.keeps_step h.keeps (follows_handle settings userHeader) action, proper_step h.proper action, fits_step h hroom⟩

end Requests

/-- If every request that is found eligible is found so while there is room besides the rows and the places held, the
user never has more workspaces than the limit. -/
theorem quota_kept (settings : Settings) (userHeader : String) (customer : Customer) (s : Service)
    (hproper : s.store.roster.Proper) (hstart : Requests.WithinQuota customer ⟨s, []⟩)
    (actions : List (Action NewRequest (Service.Outside customer.uid)))
    (hroom : Along (Requests.step settings userHeader customer) (Requests.ChecksWithRoom customer) ⟨s, []⟩ actions) :
    Always (Requests.step settings userHeader customer) (Requests.WithinQuota customer) ⟨s, []⟩ actions := by
  have hempty : Requests.Accounted customer ⟨s, []⟩ := by
    refine ⟨?_, hproper, ?_⟩
    · intro task htask
      cases htask
    · exact (Int.add_zero _).trans_le hstart
  have hstep : ∀ pool action, Requests.Accounted customer pool → Requests.ChecksWithRoom customer pool action →
      Requests.Accounted customer (Requests.step settings userHeader customer pool action) :=
    fun _ _ h hroom => Requests.accounted_step h hroom
  refine always_of_invariant hstep (fun pool h => ?_) hempty hroom
  exact (Int.le_add_of_nonneg_right (Int.natCast_nonneg _)).trans h.fits

def fairWeather (uuid : String) : Surroundings where
  others call :=
    match call with
    | .newUuid => uuid
    | call => attentive .failed [] call
  identified := true
  profile := true
  commits := true
  responds := true

def newRequest : NewRequest := ⟨namedRequest "space", rfl⟩

def alice (limit : Int) : Customer := ⟨"alice", false, ⟨none, some limit⟩⟩

def vacant : Service := ⟨.empty, fairWeather "6ba7b810-9dad-11d1-80b4-00c04fd430c8"⟩

def inTurn : List (Action NewRequest (Service.Outside (alice 2).uid)) :=
  .spawn newRequest :: List.replicate 40 (.resume 0) ++
    .outside (.change (fairWeather "6ba7b811-9dad-11d1-80b4-00c04fd430c8")) :: .spawn newRequest :: List.replicate 40 (.resume 1)

def overlapping : List (Action NewRequest (Service.Outside (alice 1).uid)) :=
  .spawn newRequest :: List.replicate 3 (.resume 0) ++ .spawn newRequest :: List.replicate 3 (.resume 1) ++
    List.replicate 40 (.resume 0) ++ .outside (.change (fairWeather "6ba7b811-9dad-11d1-80b4-00c04fd430c8")) :: List.replicate 40 (.resume 1)

theorem quota_kept_in_turn :
    (run (Requests.step defaultSettings "alice" (alice 2)) ⟨vacant, []⟩ inTurn).shared.store.existingCount "alice" =
        2 ∧
      Always (Requests.step defaultSettings "alice" (alice 2)) (Requests.WithinQuota (alice 2)) ⟨vacant, []⟩ inTurn :=
  ⟨by decide +kernel,
    quota_kept defaultSettings "alice" (alice 2) vacant Manage.proper_empty (by decide) inTurn (by decide +kernel)⟩

theorem quota_exceeded :
    Requests.WithinQuota (alice 1) ⟨vacant, []⟩ ∧
      ¬Always (Requests.step defaultSettings "alice" (alice 1)) (Requests.WithinQuota (alice 1)) ⟨vacant, []⟩
        overlapping := by
  refine ⟨by decide, fun h => ?_⟩
  exact absurd h.final (by decide +kernel)

end HideServer.Provisioner
