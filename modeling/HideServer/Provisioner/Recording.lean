import HideServer.Async.Protocol
import HideServer.Manage.Service
import HideServer.Provisioner.Gate
import Mathlib.Data.List.Induction

/-!
# What the user is told and what is on record

A new workspace is put on record when it answers, and the success message goes out before the result is
looked at. Issuing the publish counts as sending, although `bgCtx` may be past its deadline. Whether the
row is created goes into the statements beside the answer, which can be lost.
-/

namespace HideServer.Provisioner

open Async Async.Prog Manage

/-- The body can be read as JSON. -/
def HttpAnswer.decodes : HttpAnswer → Bool
  | .answered _ (.json ..) => true
  | _ => false

/-- What an exchange comes to. -/
structure Ledger where
  provisioned : Option String
  asked : Option (String × HttpAnswer)
  succeeded : Bool
  failed : Bool
  deriving DecidableEq, Repr

def Ledger.blank : Ledger := ⟨none, none, false, false⟩

/-- Entries of the ledger. -/
def bookkeeping : Protocol Call Call.Answer Ledger where
  allowed _ _ := True
  after ledger call answer :=
    match call, answer with
    | .newUuid, uuid => { ledger with provisioned := some uuid }
    | .createWorkspace _ _ uuid, answer => { ledger with asked := some (uuid, answer) }
    | .publish _ _ (.success ..), _ => { ledger with succeeded := true }
    | .publish _ _ (.error _), _ => { ledger with failed := true }
    | _, _ => ledger

def outcome (settings : Settings) (req : ProvisionRequest) (userHeader : String)
    (env : Environment Call Call.Answer) : Except String Unit × Ledger :=
  let ended := dialogue env (provision settings req userHeader true) []
  (ended.1, bookkeeping.reached .blank ended.2)

/-- The row of the provisioned uuid has been created, if the endpoint creates what it is asked for. -/
def Ledger.Recorded (ledger : Ledger) (creates : Bool) : Prop :=
  creates = true ∧ ∃ asked ∈ ledger.asked, ledger.provisioned = some asked.1

/-- Success is sent and returned if and only if the row was created, and an error otherwise. -/
structure SuccessMeansRecorded (creates : Bool) (result : Except String Unit) (ledger : Ledger) : Prop where
  success : ledger.succeeded = true ∧ result.isOk = true ↔ ledger.Recorded creates
  otherwise : ¬ledger.Recorded creates → ledger.failed = true ∧ result.isOk = false

def Call.Incidental : Call → Prop
  | .newUuid | .createWorkspace .. | .publish _ _ (.error _) | .publish _ _ (.success ..) => False
  | .checkEligibility _ => False
  | _ => True

theorem incidental_of_prepares {α : Type} {p : Io α} (hp : p.Only Call.Prepares) : p.Only Call.Incidental := by
  refine hp.mono fun call hcall => ?_
  cases call with
  | publish uid sessionId notice => cases notice <;> trivial
  | _ => trivial

section

variable {Q : Type} {P : Protocol Call Call.Answer Q}

def Overlooks (P : Protocol Call Call.Answer Q) : Prop :=
  ∀ call : Call, call.Incidental → ∀ q, P.allowed q call ∧ ∀ answer, P.after q call answer = q

theorem Overlooks.same (h : Overlooks P) {α : Type} {p : Io α} (hp : p.Only Call.Incidental) (q : Q) :
    p.Follows P (fun _ after => after = q) q :=
  Only.follows_same (hp.mono fun call hcall => h call hcall q)

variable {q : Q}

theorem Overlooks.bind (h : Overlooks P) {α β : Type} {p : Io α} (hp : p.Only Call.Prepares) {f : α → Io β}
    {post : β → Q → Prop} (hf : ∀ value, (f value).Follows P post q) : (p >>= f).Follows P post q := by
  refine (h.same (incidental_of_prepares hp) q).bind ?_
  rintro value after rfl
  exact hf value

theorem Overlooks.perform_bind (h : Overlooks P) {β : Type} {call : Call} (hcall : call.Incidental)
    {f : call.Answer → Io β} {post : β → Q → Prop} (hf : ∀ answer, (f answer).Follows P post q) :
    (ask call >>= f).Follows P post q := by
  refine .perform_bind (h call hcall q).1 fun answer => ?_
  rw [(h call hcall q).2 answer]
  exact hf answer

/-- The uuid of a new workspace is entered. -/
def Named (P : Protocol Call Call.Answer Q) (q : Q) (created : Except String (String × String)) (after : Q) : Prop :=
  (after = q ∨ ∃ uuid, after = P.after q .newUuid uuid) ∧
    ∀ privateKey uuid, created = .ok (privateKey, uuid) → after = P.after q .newUuid uuid

theorem Named.unnamed (err : String) : Named P q (.error err) q :=
  ⟨.inl rfl, fun _ _ h => by cases h⟩

theorem Named.error (err uuid : String) : Named P q (.error err) (P.after q .newUuid uuid) :=
  ⟨.inr ⟨uuid, rfl⟩, fun _ _ h => by cases h⟩

theorem Named.ok (privateKey uuid : String) : Named P q (.ok (privateKey, uuid)) (P.after q .newUuid uuid) :=
  ⟨.inr ⟨uuid, rfl⟩, fun _ _ h => by cases h; rfl⟩

variable (settings : Settings) (req : ProvisionRequest) {q : Q} (h : Overlooks P)
include h

theorem named_deployPod (wsUuid privateKey publicKey : String) :
    (deployPod req wsUuid privateKey publicKey).Follows P (Named P q) (P.after q .newUuid wsUuid) := by
  refine h.perform_bind (by trivial) fun _ => h.perform_bind (by trivial) fun pod => .ite (fun _ => Named.error _ _) fun _ => ?_
  refine h.perform_bind (by trivial) fun service => .ite (fun _ => ?_) fun _ => .ite (fun _ => ?_) fun _ => ?_
  · exact h.perform_bind (by trivial) fun _ => Named.error _ _
  · exact h.perform_bind (by trivial) fun _ => Named.ok _ _
  · exact Named.ok _ _

section

variable (hname : P.allowed q .newUuid)

include hname

theorem named_createK8sPod : (createK8sPod settings req true).Follows P (Named P q) q := by
  refine h.perform_bind (by trivial) fun client => .ite (fun _ => Named.unnamed _) fun _ => ?_
  refine .perform_bind hname fun wsUuid => .ite (fun _ => Named.error _ _) fun _ => ?_
  refine h.bind (prepares_keyPair true) fun keys => ?_
  cases keys with
  | none => exact Named.error _ _
  | some keys =>
    refine h.bind (prepares_prepareStorage settings req wsUuid) fun stored => ?_
    cases stored with
    | error err => exact Named.error _ _
    | ok value => exact named_deployPod req h wsUuid keys.1 keys.2

theorem named_createDockerContainer : (createDockerContainer req true).Follows P (Named P q) q := by
  refine h.perform_bind (by trivial) fun client => .ite (fun _ => Named.unnamed _) fun _ => ?_
  refine .perform_bind hname fun wsUuid => .ite (fun _ => Named.error _ _) fun _ => ?_
  refine h.bind (prepares_keyPair true) fun keys => ?_
  cases keys with
  | none => exact Named.error _ _
  | some keys =>
    refine h.bind (prepares_of_docks (docks_prepareDockerVolumes req wsUuid)) fun stored => ?_
    cases stored with
    | error err => exact Named.error _ _
    | ok value =>
      refine h.perform_bind (by trivial) fun _ => h.perform_bind (by trivial) fun made => .ite (fun _ => Named.error _ _) fun _ => ?_
      refine h.perform_bind (by trivial) fun _ => h.perform_bind (by trivial) fun up => .ite (fun _ => Named.error _ _) fun _ => ?_
      exact Named.ok _ _

theorem named_createDevContainer : (createDevContainer settings req true).Follows P (Named P q) q := by
  change (createOnPlatform settings req true).Follows P (Named P q) q
  refine .ite (fun _ => named_createDockerContainer req h hname) fun _ => .ite (fun _ => ?_) fun _ => ?_
  · exact named_createK8sPod settings req h hname
  · exact Named.unnamed _

theorem follows_provision {userHeader : String} {post : Except String Unit → Q → Prop}
    (herror : ∀ after, (after = q ∨ ∃ uuid, after = P.after q .newUuid uuid) → ∀ message err,
      (sendError req message).Follows P (fun _ => post (.error err)) after)
    (hfinish : ∀ privateKey uuid,
      (finishProvision req userHeader true privateKey uuid).Follows P post (P.after q .newUuid uuid)) :
    (provision settings req userHeader true).Follows P post q := by
  have habandon : ∀ after, (after = q ∨ ∃ uuid, after = P.after q .newUuid uuid) → ∀ message err,
      (abandon req message err).Follows P post after := by
    intro after hafter message err
    refine (herror after hafter message err).bind fun _ after hpost => ?_
    exact h.perform_bind (by trivial) fun _ => hpost
  refine h.perform_bind (by trivial) fun _ => h.bind (prepares_hasCapacity settings req.dedicated) fun capacity => ?_
  rcases capacity with err | ⟨fits, name⟩
  · exact habandon q (.inl rfl) _ _
  refine .ite (fun _ => habandon q (.inl rfl) _ _) fun _ => ?_
  have hpreempt : (preempt settings name).Only Call.Incidental := by simp [preempt, killK8sPod, Call.Incidental]
  refine (h.same hpreempt q).bind ?_
  rintro preempted after rfl
  cases preempted with
  | error err => exact habandon after (.inl rfl) _ _
  | ok value =>
    refine (named_createDevContainer settings req h hname).bind fun created named hnamed => ?_
    rcases created with err | ⟨privateKey, uuid⟩
    · exact habandon named hnamed.1 _ err
    · rw [hnamed.2 privateKey uuid rfl]
      refine h.bind (p := if settings.devPlatform = "" then _ else _) ?_ fun placed => ?_
      · exact .ite (prepares_of_waits (waits_waitOnDevContainerScheduled uuid)) trivial
      cases placed with
      | error err => exact habandon _ (.inr ⟨uuid, rfl⟩) _ err
      | ok value =>
        refine h.perform_bind (by trivial) fun _ => ?_
        refine h.bind (prepares_of_waits (waits_waitOnDevContainerReady req uuid)) fun ready => ?_
        cases ready with
        | error err => exact (herror _ (.inr ⟨uuid, rfl⟩) _ err).bind fun _ _ hpost => hpost
        | ok value => exact hfinish privateKey uuid

end

end

theorem overlooks_bookkeeping : Overlooks bookkeeping := by
  refine fun call hcall ledger => ⟨trivial, fun answer => ?_⟩
  cases call with
  | publish uid sessionId notice =>
    cases notice with
    | status message => rfl
    | error message | success privateKey workspace => cases hcall
  | newUuid | createWorkspace => cases hcall
  | _ => rfl

/-- How provisioning ends: early with an error that the user is sent, or late with the success message. -/
inductive Concluded : Except String Unit → Ledger → Prop where
  | stopped (err : String) (provisioned : Option String) : Concluded (.error err) ⟨provisioned, none, false, true⟩
  | finished {result : Except String Unit} (uuid : String) (answer : HttpAnswer)
      (h : result.isOk = answer.decodes) : Concluded result ⟨some uuid, some (uuid, answer), true, false⟩

theorem concluded_finishProvision (req : ProvisionRequest) (userHeader privateKey uuid : String) :
    (finishProvision req userHeader true privateKey uuid).Follows bookkeeping Concluded
      { Ledger.blank with provisioned := some uuid } := by
  have hwritten : (createWorkspace req userHeader uuid).Follows bookkeeping (fun result after =>
        ∃ answer, after = ⟨some uuid, some (uuid, answer), false, false⟩ ∧ result.1.isOk = answer.decodes)
      { Ledger.blank with provisioned := some uuid } := by
    refine .perform_bind trivial fun answer => ?_
    rcases answer with _ | ⟨status, body⟩
    · exact ⟨_, rfl, rfl⟩
    · cases body <;> exact ⟨_, rfl, rfl⟩
  refine hwritten.bind ?_
  rintro ⟨result, workspace⟩ after ⟨answer, rfl, hresult⟩
  exact .perform_bind trivial fun _ => .finished uuid answer hresult

theorem concluded_provision (settings : Settings) (req : ProvisionRequest) (userHeader : String) :
    (provision settings req userHeader true).Follows bookkeeping Concluded .blank := by
  refine follows_provision settings req overlooks_bookkeeping trivial ?_ (concluded_finishProvision req userHeader)
  rintro after (rfl | ⟨uuid, rfl⟩) message err
  · exact ⟨trivial, fun _ => .stopped err none⟩
  · exact ⟨trivial, fun _ => .stopped err (some uuid)⟩

theorem Concluded.successMeansRecorded_iff {result : Except String Unit} {ledger : Ledger}
    (h : Concluded result ledger) (creates : Bool) :
    SuccessMeansRecorded creates result ledger ↔ ∀ asked ∈ ledger.asked, creates = true ∧ asked.2.decodes = true := by
  cases h with
  | stopped err provisioned =>
    have hunrecorded : ¬Ledger.Recorded ⟨provisioned, none, false, true⟩ creates := by simp [Ledger.Recorded]
    refine ⟨fun _ asked hasked => ?_, fun _ => ⟨?_, fun _ => ⟨rfl, rfl⟩⟩⟩
    · cases hasked
    · simp [hunrecorded]
  | finished uuid answer hresult =>
    have hrecorded : Ledger.Recorded ⟨some uuid, some (uuid, answer), true, false⟩ creates ↔ creates = true := by
      simp [Ledger.Recorded]
    constructor
    · rintro ⟨hsuccess, hotherwise⟩ asked hasked
      cases hasked
      -- no error is ever sent after the success message
      have hcreates : creates = true := by
        by_contra hnot
        exact absurd (hotherwise (hrecorded.not.mpr hnot)).1 (by simp)
      exact ⟨hcreates, hresult ▸ (hsuccess.mpr (hrecorded.mpr hcreates)).2⟩
    · intro hall
      obtain ⟨hcreates, hdecodes⟩ := hall _ rfl
      have hrow := hrecorded.mpr hcreates
      exact ⟨⟨fun _ => hrow, fun _ => ⟨rfl, hresult.trans hdecodes⟩⟩, fun hnot => absurd hrow hnot⟩

theorem successMeansRecorded_iff (settings : Settings) (req : ProvisionRequest) (userHeader : String)
    (env : Environment Call Call.Answer) (creates : Bool) :
    SuccessMeansRecorded creates (outcome settings req userHeader env).1 (outcome settings req userHeader env).2 ↔
      ∀ asked ∈ (outcome settings req userHeader env).2.asked, creates = true ∧ asked.2.decodes = true := by
  have hfollows : (provision settings req userHeader true).Follows bookkeeping Concluded
      (bookkeeping.reached .blank []) := concluded_provision settings req userHeader
  exact Concluded.successMeansRecorded_iff (hfollows.dialogue env) creates

def createEndpoint (store : Store) (uid : String) (req : ProvisionRequest) (uuid : String)
    (profile commits : Bool) : HttpAnswer × Store :=
  let data : CreateData := ⟨some req.name, req.description, req.image, req.dedicated⟩
  let ended := run Manage.exec (Manage.createWorkspace uid data uuid profile commits) store
  match ended.1 with
  | .ok workspace =>
    (.answered 201 (.json "" ⟨store.workspaces.next, workspace.uuid, workspace.image, workspace.name, workspace.description⟩),
      ended.2)
  | .error message =>
    -- a validation error is a bad request, everything else is not the client's fault
    if message = "INVALID_WORKSPACE_NAME" then (.answered 400 (.json message .zero), ended.2)
    else (.answered 500 (.json "Internal server error" .zero), ended.2)

/-- There is a row of the uuid. -/
def hasRow (store : Store) (uuid : String) : Bool :=
  (store.workspaces.find? (fun row => row.uuid = uuid) 0).isSome

def attentive (answer : HttpAnswer) : Environment Call Call.Answer := fun said call =>
  match call with
  | .createPod _ | .createService _ => true
  | .watchPod _ => some [("node-1", .pending)]
  | .readyAttempts _ => (1 : Nat)
  | .ready _ => true
  | .createWorkspace .. => answer
  | call => obliging "node" .failed .failed said call

def namedRequest (name : String) : ProvisionRequest := ⟨"alice", "s1", "node", name, "d", "", false, ""⟩

def answering (env : Environment Call Call.Answer) (answer : HttpAnswer) : Environment Call Call.Answer := fun said call =>
  match call with
  | .createWorkspace .. => answer
  | call => env said call

def Call.Records : Call → Prop
  | .createWorkspace .. => True
  | _ => False

theorem answering_eq (env : Environment Call Call.Answer) (answer : HttpAnswer) (said : Exchange Call Call.Answer) {call : Call}
    (hcall : ¬call.Records) : answering env answer said call = env said call := by
  cases call with
  | createWorkspace => exact absurd trivial hcall
  | _ => rfl

theorem asked_after (ledger : Ledger) {call : Call} (hcall : ¬call.Records) (answer : call.Answer) :
    (bookkeeping.after ledger call answer).asked = ledger.asked := by
  cases call with
  | createWorkspace => exact absurd trivial hcall
  | publish uid sessionId notice => cases notice <;> rfl
  | _ => rfl

theorem mem_of_asked {said : Exchange Call Call.Answer} {asked : String × HttpAnswer}
    (h : (bookkeeping.reached .blank said).asked = some asked) :
    ∃ userHeader req, (⟨.createWorkspace userHeader req asked.1, asked.2⟩ : Σ call : Call, call.Answer) ∈ said := by
  induction said using List.reverseRecOn with
  | nil => cases h
  | append_singleton said x ih =>
    obtain ⟨call, answer⟩ := x
    rw [Protocol.reached_snoc] at h
    by_cases hcall : call.Records
    · cases call with
      | createWorkspace userHeader req uuid =>
        cases h
        exact ⟨userHeader, req, List.mem_append_right said (List.mem_singleton.mpr rfl)⟩
      | _ => exact hcall.elim
    · rw [asked_after _ hcall] at h
      obtain ⟨userHeader, req, hmem⟩ := ih h
      exact ⟨userHeader, req, List.mem_append_left _ hmem⟩

theorem asked_of_mem {said : Exchange Call Call.Answer} {x : Σ call : Call, call.Answer} (hx : x ∈ said) (hcall : x.1.Records) :
    (bookkeeping.reached .blank said).asked.isSome := by
  induction said using List.reverseRecOn with
  | nil => cases hx
  | append_singleton said last ih =>
    obtain ⟨call, answer⟩ := last
    rw [Protocol.reached_snoc]
    by_cases hlast : call.Records
    · cases call with
      | createWorkspace => rfl
      | _ => exact hlast.elim
    · rw [asked_after _ hlast]
      refine ih ((List.mem_append.mp hx).resolve_right fun hsame => ?_)
      rw [List.mem_singleton.mp hsame] at hcall
      exact hlast hcall

theorem asked_answering {settings : Settings} {req : ProvisionRequest} {userHeader : String}
    {env : Environment Call Call.Answer} (h : (outcome settings req userHeader env).2.asked.isSome) (answer : HttpAnswer) :
    (outcome settings req userHeader (answering env answer)).2.asked.isSome := by
  obtain ⟨asked, hasked⟩ := Option.isSome_iff_exists.mp h
  obtain ⟨userHeader', req', hmem⟩ := mem_of_asked hasked
  have hagree : ∀ said call, ¬Call.Records call → env said call = answering env answer said call := fun said call hcall =>
    (answering_eq env answer said hcall).symm
  obtain ⟨x, hx, hcall⟩ := comes_to_of_agree hagree (provision settings req userHeader true) ⟨_, hmem, trivial⟩
  exact asked_of_mem hx hcall

theorem answer_of_asked {settings : Settings} {req : ProvisionRequest} {userHeader : String} {env : Environment Call Call.Answer}
    {answer : HttpAnswer} {asked : String × HttpAnswer}
    (h : (outcome settings req userHeader (answering env answer)).2.asked = some asked) : asked.2 = answer := by
  obtain ⟨userHeader', req', hmem⟩ := mem_of_asked h
  rcases answer_of_mem_dialogue _ _ hmem with hnil | ⟨before, hanswer⟩
  · cases hnil
  · exact hanswer

/-- Whatever is provisioned, success means recorded exactly if the endpoint creates the row and its response decodes; and in
one provisioning, exactly if it does where it is asked. -/
theorem success_iff_recorded (creates : Bool) :
    (∀ answer, (∀ settings req userHeader env,
        SuccessMeansRecorded creates (outcome settings req userHeader (answering env answer)).1
          (outcome settings req userHeader (answering env answer)).2) ↔ creates = true ∧ answer.decodes = true) ∧
      ∀ settings req userHeader env,
        SuccessMeansRecorded creates (outcome settings req userHeader env).1 (outcome settings req userHeader env).2 ↔
          ∀ asked ∈ (outcome settings req userHeader env).2.asked, creates = true ∧ asked.2.decodes = true := by
  refine ⟨fun answer => ⟨fun h => ?_, fun h settings req userHeader env => ?_⟩, fun settings req userHeader env => ?_⟩
  · -- where everything goes well, the record is asked for
    have hcomes : (outcome defaultSettings (namedRequest "space") "alice" (attentive .failed)).2.asked.isSome := by decide +kernel
    obtain ⟨asked, hasked⟩ := Option.isSome_iff_exists.mp (asked_answering hcomes answer)
    have hall := (successMeansRecorded_iff _ _ _ _ creates).mp (h defaultSettings (namedRequest "space") "alice" (attentive .failed))
    rw [← answer_of_asked hasked]
    exact hall asked hasked
  · refine (successMeansRecorded_iff _ _ _ _ creates).mpr fun asked hasked => ?_
    rw [answer_of_asked hasked]
    exact h
  · exact successMeansRecorded_iff settings req userHeader env creates

/-- A name that is refused, and a response that is lost after the row was created. -/
theorem success_without_record : (let uuid := "6ba7b810-9dad-11d1-80b4-00c04fd430c8"
    let answered := createEndpoint .empty "alice" (namedRequest "ab") uuid true true
    let ended := outcome defaultSettings (namedRequest "ab") "alice" (attentive answered.1)
    ended.2.asked = some (uuid, answered.1) ∧ ¬SuccessMeansRecorded (hasRow answered.2 uuid) ended.1 ended.2) ∧
    (let uuid := "6ba7b810-9dad-11d1-80b4-00c04fd430c8"
    let answered := createEndpoint .empty "alice" (namedRequest "space") uuid true true
    let ended := outcome defaultSettings (namedRequest "space") "alice" (attentive .failed)
    ended.2.asked = some (uuid, .failed) ∧ ¬SuccessMeansRecorded (hasRow answered.2 uuid) ended.1 ended.2) := by
  refine ⟨⟨by decide +kernel, fun h => ?_⟩, ⟨by decide +kernel, fun h => ?_⟩⟩
  · have herror := h.otherwise fun hrecorded => absurd hrecorded.1 (by decide +kernel)
    exact absurd herror.1 (by decide +kernel)
  · have hok := h.success.mpr ⟨by decide +kernel, _, rfl, by decide +kernel⟩
    exact absurd hok.2 (by decide +kernel)

end HideServer.Provisioner
