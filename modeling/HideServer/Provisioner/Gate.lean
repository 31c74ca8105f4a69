import HideServer.Provisioner.Job

/-!
# Which requests get through

Whether a workspace can be restored without its membership being confirmed, and whether a pod can be
labelled dedicated without an entitlement.
-/

namespace HideServer.Provisioner

open Async Async.Prog

/-- The request creates something. -/
def Call.Creates : Call → Prop
  | .createPod _ | .createService _ | .createVolume .. | .createJob _ | .createWorkspaceResource .. => True
  | .createDockerVolume _ | .createContainer .. | .createWorkspace .. => True
  | _ => False

/-- The request only looks. -/
def Call.Inspects : Call → Prop
  | .getTemplates | .checkEligibility _ | .publish .. => True
  | .kubernetesClient | .dockerClient | .getPod _ | .listContainers => True
  | _ => False

theorem Call.Inspects.not_creates {call : Call} (h : call.Inspects) : ¬call.Creates := by
  cases call <;> simp_all [Inspects, Creates]

/-! ### The handler before its decision -/

/-- What validation leaves: an error for the client, or a request with an image and a user. -/
def Validated (req : ProvisionRequest) (userHeader : String) : Option Decision → Prop
  | some d => ∃ status message, d = refuse status message
  | none => req.image ≠ "" ∧ userHeader ≠ ""

theorem validateUser_safe (req : ProvisionRequest) (userHeader : String) (himage : req.image ≠ "") :
    Safe Call.Inspects (fun _ _ => True) (Validated req userHeader) (validateUser req userHeader) := by
  have hcheck : Safe Call.Inspects (fun _ _ => True) (fun _ => True) (checkEligibility userHeader) := by
    refine .perform_bind trivial fun answer _ => ?_
    cases answer <;> trivial
  refine .ite (fun _ => ⟨_, _, rfl⟩) fun huser => .ite (fun _ => ⟨himage, huser⟩) fun _ => ?_
  refine hcheck.bind fun eligible _ => ?_
  match eligible with
  | .error _ | .ok false => exact ⟨_, _, rfl⟩
  | .ok true => exact ⟨himage, huser⟩

theorem validate_safe (req : ProvisionRequest) (userHeader : String) :
    Safe Call.Inspects (fun _ _ => True) (Validated req userHeader) (validate req userHeader) := by
  have himage : Safe Call.Inspects (fun _ _ => True) (Validated req userHeader) (validateImage req userHeader) := by
    refine .ite (fun _ => ⟨_, _, rfl⟩) fun himage => .perform_bind trivial fun templates _ => ?_
    cases templates with
    | none => exact ⟨_, _, rfl⟩
    | some templates => exact .ite (fun _ => ⟨_, _, rfl⟩) fun _ => validateUser_safe req userHeader himage
  exact .ite (fun _ => .perform_bind trivial fun _ _ => himage) fun _ => himage

/-- How a restore can be answered. -/
def Resumed (d : Decision) : Prop :=
  d = refuse 400 "UNKNOWN" ∨ d = ⟨.wait 200 false, none⟩ ∨ d = ⟨.wait 202 true, some false⟩

theorem resume_safe (settings : Settings) (req : ProvisionRequest) :
    Safe Call.Inspects (fun _ _ => True) Resumed (resume settings req) := by
  have hexists : Safe Call.Inspects (fun _ _ => True) (fun _ => True)
      (devContainerExists req.uuid settings.devPlatform) := by
    refine .ite (fun _ => .perform_bind trivial fun client _ => ?_) fun _ =>
      .ite (fun _ => .perform_bind trivial fun client _ => ?_) fun _ => trivial
    · refine .ite (fun _ => trivial) fun _ => .perform_bind trivial fun containers _ => ?_
      cases containers <;> trivial
    · refine .ite (fun _ => trivial) fun _ => .perform_bind trivial fun pod _ => ?_
      cases pod <;> trivial
  refine hexists.bind fun running _ => ?_
  match running with
  | .error _ => exact .inl rfl
  | .ok true => exact .inr (.inl rfl)
  | .ok false => exact .perform_bind trivial fun _ _ => .inr (.inr rfl)

/-! ### An environment that lets every request through -/

instance (call : Call) : Inhabited call.Answer :=
  ⟨match call with
    | .getTemplates | .listContainers | .listNodes | .listPods _ | .watchPod _ | .listDockerVolumes _ | .genSSHKeyPair => none
    | .checkEligibility _ | .checkMembership .. | .consumeAccessCode .. => .failed
    | .createWorkspace .. | .resetAccessCode .. | .deleteAccessCode .. => .failed
    | .getPod _ | .getVolume .. | .inspectDockerVolume _ => .notFound
    | .lockQueue | .unlockQueue | .publish .. | .publishAffinity .. => ()
    | .kubernetesClient | .dockerClient | .createPod _ | .deletePod .. | .createService _ => false
    | .createVolume .. | .deleteVolume .. | .createJob _ | .waitJob _ | .deleteJob _ => false
    | .createWorkspaceResource .. | .createDockerVolume _ | .createContainer .. | .startContainer _ | .ready _ => false
    | .newUuid => ""
    | .now => (0 : Int)
    | .readyAttempts _ => (0 : Nat)⟩

def obliging (image : String) (membership consumed : HttpAnswer) : Environment Call Call.Answer :=
  fun _ call =>
  match call with
  | .getTemplates => some [trimSuffix image ":dev"]
  | .checkEligibility _ => .answered 200 .malformed
  | .checkMembership .. => membership
  | .consumeAccessCode .. => consumed
  | .kubernetesClient => true
  | .listNodes => some (1000, [])
  | .listPods _ => some []
  | .newUuid => "6ba7b810-9dad-11d1-80b4-00c04fd430c8"
  | .genSSHKeyPair => some ("private", "public")
  | .createJob _ | .createVolume .. => true
  | .getVolume .. => .found
  | _ => default

section

variable (settings : Settings) (r : HttpRequest) (req : ProvisionRequest) (env : Environment Call Call.Answer)

def reply : Reply := (dialogue env (serve settings r) []).1

def transcript : Exchange Call Call.Answer := (dialogue env (serve settings r) []).2

def validation : Exchange Call Call.Answer := (dialogue env (validate req r.userHeader) []).2

theorem mem_validation_inspects {x : Σ call : Call, call.Answer} (hx : x ∈ validation r req env) : x.1.Inspects := by
  obtain ⟨-, hsaid⟩ := (validate_safe req r.userHeader).dialogue env (fun _ _ => trivial) []
  rcases hsaid x hx with hnil | hinspects
  · simp at hnil
  · exact hinspects

@[simp] theorem startJob_refuse (status : Nat) (message : String) :
    startJob settings r (refuse status message) = .ret () := by
  unfold startJob refuse
  cases r.body <;> rfl

theorem reply_eq : reply settings r env = (dialogue env (provisionHandler settings r) []).1.reply := by
  simp [reply, serve]

theorem transcript_eq : transcript settings r env =
    (dialogue env (startJob settings r (dialogue env (provisionHandler settings r) []).1)
      (dialogue env (provisionHandler settings r) []).2).2 := by
  simp [transcript, serve]

theorem mem_transcript_of_issued {call : Call} (hcall : call ∈ issued env (serve settings r)) :
    ∃ answer, ⟨call, answer⟩ ∈ transcript settings r env := by
  obtain ⟨⟨_, answer⟩, hx, rfl⟩ := List.mem_map.mp hcall
  exact ⟨answer, hx⟩

theorem provisionHandler_cases (hbody : r.body = some req) :
    (∃ status message said, dialogue env (provisionHandler settings r) [] = (refuse status message, said) ∧
      ∀ x ∈ said, x.1.Inspects) ∨
    (r.method = "POST" ∧ req.image ≠ "" ∧ r.userHeader ≠ "" ∧ dialogue env (provisionHandler settings r) [] =
        dialogue env (if req.uuid ≠ "" then restore settings req r.userHeader else create req r.userHeader)
          (validation r req env)) := by
  unfold provisionHandler
  by_cases hmethod : r.method = "POST"
  · obtain ⟨hvalid, -⟩ := (validate_safe req r.userHeader).dialogue env (fun _ _ => trivial) []
    simp only [hmethod, hbody, ne_eq, not_true_eq_false, if_false, decideRequest, dialogue_bind]
    cases hresult : (dialogue env (validate req r.userHeader) []).1 with
    | some refusal =>
      rw [hresult] at hvalid
      obtain ⟨status, message, rfl⟩ := hvalid
      exact .inl ⟨status, message, validation r req env, rfl, fun x => mem_validation_inspects r req env⟩
    | none =>
      rw [hresult] at hvalid
      exact .inr ⟨trivial, hvalid.1, hvalid.2, rfl⟩
  · simp only [ne_eq, hmethod, not_false_eq_true, if_true]
    exact .inl ⟨405, _, [], rfl, by simp⟩

end

variable {said : Exchange Call Call.Answer}

section

variable (settings : Settings) (r : HttpRequest) (req : ProvisionRequest) (env : Environment Call Call.Answer)

def membershipCheck (answer : HttpAnswer) : Σ call : Call, call.Answer :=
  ⟨.checkMembership r.userHeader req.uuid, answer⟩

@[simp] theorem membershipCheck_inj {answer answer' : HttpAnswer} :
    membershipCheck r req answer = membershipCheck r req answer' ↔ answer = answer' := by
  simp [membershipCheck]

/-- A restore goes ahead only on a 2xx answer to the membership check; on any other it is refused, and nothing is
created. -/
structure RestoreNeedsMembership : Prop where
  admitted : (∃ status wait, reply settings r env = .wait status wait) ∨ .lockQueue ∈ issued env (serve settings r) →
    ∃ answer, membershipCheck r req answer ∈ transcript settings r env ∧ answer.Success
  refused : ∀ answer, membershipCheck r req answer ∈ transcript settings r env → ¬answer.Success →
    reply settings r env = .error 403 "NO_WORKSPACE_MEMBERSHIP" ∧
      ∀ call ∈ issued env (serve settings r), ¬call.Creates

theorem restore_of_failed (hanswer : env said (.checkMembership r.userHeader req.uuid) = HttpAnswer.failed) :
    dialogue env (restore settings req r.userHeader) said =
      (refuse 403 "NO_WORKSPACE_MEMBERSHIP", said ++ [membershipCheck r req .failed]) := by
  simp [restore, checkWorkspaceMembership, membershipCheck, hanswer]

theorem restore_of_answered {status : Nat} {body : Body}
    (hanswer : env said (.checkMembership r.userHeader req.uuid) = HttpAnswer.answered status body) :
    dialogue env (restore settings req r.userHeader) said = dialogue env (resume settings req)
        (said ++ [membershipCheck r req (.answered status body)]) := by
  simp [restore, checkWorkspaceMembership, membershipCheck, hanswer]

theorem serve_restore_cases (hbody : r.body = some req) (huuid : req.uuid ≠ "") :
    (∃ status message, reply settings r env = .error status message ∧ ∀ x ∈ transcript settings r env, x.1.Inspects) ∨
    (reply settings r env = .error 403 "NO_WORKSPACE_MEMBERSHIP" ∧
      ∀ x ∈ transcript settings r env, x = membershipCheck r req .failed ∨ x.1.Inspects) ∨
    (∃ status body, membershipCheck r req (.answered status body) ∈ transcript settings r env ∧
      reply settings r env ≠ .error 403 "NO_WORKSPACE_MEMBERSHIP" ∧
      ∀ x ∈ transcript settings r env,
        x = membershipCheck r req (.answered status body) ∨ x.1.Inspects ∨ x.1.InJob req) := by
  rw [reply_eq, transcript_eq]
  rcases provisionHandler_cases settings r req env hbody with ⟨status, message, said, hdecision, hsaid⟩ | ⟨-, -, -, hrest⟩
  · rw [hdecision]
    exact .inl ⟨status, message, rfl, by simpa using hsaid⟩
  rw [hrest, if_pos huuid]
  match hanswer : env (validation r req env) (.checkMembership r.userHeader req.uuid) with
  | .failed =>
    rw [restore_of_failed settings r req env hanswer]
    refine .inr (.inl ⟨rfl, fun x hx => ?_⟩)
    simp only [startJob_refuse, dialogue_ret, List.mem_append, List.mem_singleton] at hx
    exact hx.symm.imp_right (mem_validation_inspects r req env)
  | .answered status body =>
    rw [restore_of_answered settings r req env hanswer]
    obtain ⟨hresumed, hsaid⟩ := (resume_safe settings req).dialogue env (fun _ _ => trivial)
      (validation r req env ++ [membershipCheck r req (.answered status body)])
    refine .inr (.inr ⟨status, body, ?_, ?_, fun x hx => ?_⟩)
    · exact mem_dialogue_of_mem env _ (mem_dialogue_of_mem env _ (by simp))
    · rcases hresumed with hresumed | hresumed | hresumed <;> simp [hresumed, refuse]
    · rcases (startJob_inJob settings req r hbody _).of_mem_dialogue hx with hx | hjob
      · rcases hsaid x hx with hx | hinspects
        · simp only [List.mem_append, List.mem_singleton] at hx
          exact hx.symm.imp_right fun hx => .inl (mem_validation_inspects r req env hx)
        · exact .inr (.inl hinspects)
      · exact .inr (.inr hjob)

/-- The membership check protects a restore exactly when the workspace service answers it with 2xx or not at all. -/
theorem restoreNeedsMembership_iff (hbody : r.body = some req) (huuid : req.uuid ≠ "") :
    RestoreNeedsMembership settings r req env ↔ ∀ answer, membershipCheck r req answer ∈ transcript settings r env →
        answer = .failed ∨ answer.Success := by
  constructor
  · rintro ⟨-, hrefused⟩ answer hanswer
    by_contra! hbad
    obtain ⟨hreply, -⟩ := hrefused answer hanswer hbad.2
    rcases serve_restore_cases settings r req env hbody huuid with ⟨_, _, -, hsaid⟩ | ⟨-, hsaid⟩ | ⟨_, _, -, hne, -⟩
    · exact hsaid _ hanswer
    · exact (hsaid _ hanswer).elim (fun heq => hbad.1 ((membershipCheck_inj r req).mp heq)) id
    · exact hne hreply
  · intro hgood
    rcases serve_restore_cases settings r req env hbody huuid with
      ⟨_, _, hreply, hsaid⟩ | ⟨hreply, hsaid⟩ | ⟨status, body, hmem, -, hsaid⟩
    · refine ⟨fun hgo => ?_, fun answer hanswer _ => (hsaid _ hanswer).elim⟩
      rcases hgo with ⟨_, _, hwait⟩ | hlock
      · simp [hreply] at hwait
      · obtain ⟨_, hx⟩ := mem_transcript_of_issued settings r env hlock
        exact (hsaid _ hx).elim
    · refine ⟨fun hgo => ?_, fun answer _ _ => ⟨hreply, fun call hcall => ?_⟩⟩
      · rcases hgo with ⟨_, _, hwait⟩ | hlock
        · simp [hreply] at hwait
        · obtain ⟨_, hx⟩ := mem_transcript_of_issued settings r env hlock
          simpa [membershipCheck, Call.Inspects] using hsaid _ hx
      · obtain ⟨_, hx⟩ := mem_transcript_of_issued settings r env hcall
        rcases hsaid _ hx with heq | hinspects
        · cases heq
          exact id
        · exact hinspects.not_creates
    · have hsuccess := (hgood _ hmem).resolve_left (by simp)
      refine ⟨fun _ => ⟨_, hmem, hsuccess⟩, fun answer hanswer hnot => ?_⟩
      rcases hsaid _ hanswer with heq | hinspects | hjob
      · rw [membershipCheck_inj] at heq
        exact absurd (heq ▸ hsuccess) hnot
      · exact hinspects.elim
      · exact hjob.elim

def defaultSettings : Settings := ⟨"", "", "", "", false⟩

def restoreRequest : ProvisionRequest :=
  ⟨"mallory", "s1", "node", "", "", "3f2504e0-4f89-11d3-9a0c-0305e82c3301", false, ""⟩

/-- A user the workspace service does not know as a member is told to wait, and the restore starts. -/
theorem restore_without_membership :
    ¬RestoreNeedsMembership defaultSettings ⟨"POST", some restoreRequest, "mallory"⟩ restoreRequest
      (obliging "node" (.answered 403 .malformed) .failed) := by
  intro h
  have hreply := (h.refused (.answered 403 .malformed) (by decide) (by decide)).1
  revert hreply
  decide

theorem restoreNeedsMembership_of_member :
    RestoreNeedsMembership defaultSettings ⟨"POST", some restoreRequest, "alice"⟩ restoreRequest
      (obliging "node" (.answered 200 .malformed) .failed) := by
  have honly : ∀ x ∈ transcript defaultSettings ⟨"POST", some restoreRequest, "alice"⟩
      (obliging "node" (.answered 200 .malformed) .failed), x.1 = .checkMembership "alice" restoreRequest.uuid →
          x = membershipCheck ⟨"POST", some restoreRequest, "alice"⟩ restoreRequest (.answered 200 .malformed) := by
    decide
  refine (restoreNeedsMembership_iff _ _ _ _ rfl (by decide)).mpr fun answer hanswer => .inr ?_
  rw [(membershipCheck_inj _ _).mp (honly _ hanswer rfl)]
  decide

end

section

variable (settings : Settings) (r : HttpRequest) (req : ProvisionRequest) (env : Environment Call Call.Answer)
  (stored : String → Option Bool)

/-- The request consumed an access code with a 2xx answer, or it restores a workspace stored as dedicated; `stored`
is the `dedicated` column of the workspace table, by uuid. -/
def Entitled : Prop :=
  (∃ code answer, (⟨.consumeAccessCode r.userHeader code, answer⟩ : Σ call : Call, call.Answer) ∈ transcript settings r env ∧
    HttpAnswer.Success answer) ∨
  ∃ req, r.body = some req ∧ req.uuid ≠ "" ∧ stored req.uuid = some true

/-- No pod of the request carries the label `wstype=dedicated` without an entitlement. -/
def DedicatedNeedsEntitlement : Prop :=
  ∀ spec, .createPod spec ∈ issued env (serve settings r) → spec.wsType = .dedicated → Entitled settings r env stored

/-- The status test of the access-code requests holds for no status at all. -/
theorem readAccessAnswer_answered (status : Nat) (body : Body) : readAccessAnswer (.answered status body) = .ok () := by
  have hnever : ¬(status < 200 ∧ status > 299) := by omega
  simp [readAccessAnswer, hnever]

def consumption (answer : HttpAnswer) : Σ call : Call, call.Answer :=
  ⟨.consumeAccessCode r.userHeader req.accessCode, answer⟩

theorem create_of_failed (hdedicated : req.dedicated)
    (hanswer : env said (.consumeAccessCode r.userHeader req.accessCode) = HttpAnswer.failed) :
    dialogue env (create req r.userHeader) said =
      (refuse 400 "ACCESS_CODE_USE_FAILED", said ++ [consumption r req .failed]) := by
  simp [create, hdedicated, consumeAccessCode, consumption, hanswer, readAccessAnswer, perform, map_eq_pure_bind]

theorem create_of_answered {status : Nat} {body : Body} (hdedicated : req.dedicated)
    (hanswer : env said (.consumeAccessCode r.userHeader req.accessCode) = HttpAnswer.answered status body) :
    dialogue env (create req r.userHeader) said =
      (⟨.wait 202 true, some true⟩, said ++ [consumption r req (.answered status body)]) := by
  simp [create, hdedicated, consumeAccessCode, consumption, hanswer, readAccessAnswer_answered, map_eq_pure_bind]

theorem provisionHandler_creates_nothing : Only (fun call => ¬call.Creates) (provisionHandler settings r) := by
  have hinspects {α : Type} {p : Io α} (hp : Only Call.Inspects p) : Only (fun call => ¬call.Creates) p :=
    hp.mono fun _ => Call.Inspects.not_creates
  refine .ite trivial ?_
  cases r.body with
  | none => trivial
  | some req =>
    refine (hinspects (validate_safe req r.userHeader).only).bind fun refusal => ?_
    cases refusal with
    | some d => trivial
    | none =>
      refine .ite (.perform_bind id fun answer => ?_) (Only.bind ?_ fun consumed => ?_)
      · cases answer with
        | failed => trivial
        | answered status body => exact hinspects (resume_safe settings req).only
      · exact .ite (.perform_bind id fun answer => trivial) trivial
      · cases consumed <;> trivial

theorem createPod_cases {spec : PodSpec} (hspec : .createPod spec ∈ issued env (serve settings r)) :
    ∃ req, r.body = some req ∧ spec.wsType = wsType req ∧ r.method = "POST" ∧ req.image ≠ "" ∧ r.userHeader ≠ "" ∧
      dialogue env (provisionHandler settings r) [] = dialogue env
          (if req.uuid ≠ "" then restore settings req r.userHeader else create req r.userHeader)
          (validation r req env) := by
  obtain ⟨answer, hmem⟩ := mem_transcript_of_issued settings r env hspec
  rw [transcript_eq] at hmem
  have hhandler : ⟨.createPod spec, answer⟩ ∉ (dialogue env (provisionHandler settings r) []).2 := fun hx =>
    ((provisionHandler_creates_nothing settings r).of_mem_dialogue hx).elim (by simp) fun hnot => hnot trivial
  cases hbody : r.body with
  | none =>
    simp only [startJob, hbody] at hmem
    exact absurd hmem hhandler
  | some req =>
    refine ⟨req, rfl, ((startJob_inJob settings req r hbody _).of_mem_dialogue hmem).resolve_left hhandler, ?_⟩
    rcases provisionHandler_cases settings r req env hbody with ⟨_, _, said, hdecision, hsaid⟩ | hrest
    · rw [hdecision] at hmem hhandler
      simp only [startJob_refuse, dialogue_ret] at hmem
      exact absurd hmem hhandler
    · exact hrest

/-- The request backs the label it asks for: a new workspace by what the consumption of its access code is
answered, a restored one by what is stored. -/
def Backed (consumed : HttpAnswer) (req : ProvisionRequest) : Prop :=
  if req.uuid = "" then consumed = .failed ∨ consumed.Success else stored req.uuid = some true

theorem entitled_of_backed {consumed : HttpAnswer}
    (henv : ∀ said userHeader code, env said (.consumeAccessCode userHeader code) = consumed)
    (hbacked : ∀ req, r.body = some req → r.method = "POST" → req.image ≠ "" → r.userHeader ≠ "" → req.dedicated →
      Backed stored consumed req) :
    DedicatedNeedsEntitlement settings r env stored := by
  intro spec hspec hlabel
  obtain ⟨req, hbody, hwsType, hmethod, himage, huser, hrest⟩ := createPod_cases settings r env hspec
  have hdedicated : req.dedicated = true := by
    by_contra hspot
    simp [hwsType, wsType, hspot] at hlabel
  have hreq := hbacked req hbody hmethod himage huser hdedicated
  by_cases huuid : req.uuid = ""
  · rw [if_neg (not_not.mpr huuid)] at hrest
    simp only [Backed, huuid, if_true] at hreq
    match consumed with
    | .failed =>
      rw [create_of_failed r req env hdedicated (henv _ _ _)] at hrest
      obtain ⟨answer, hmem⟩ := mem_transcript_of_issued settings r env hspec
      simp only [transcript_eq, hrest, startJob_refuse, dialogue_ret, List.mem_append, List.mem_singleton] at hmem
      rcases hmem with hmem | hmem
      · exact (mem_validation_inspects r req env hmem).elim
      · simp [consumption] at hmem
    | .answered status body =>
      rw [create_of_answered r req env hdedicated (henv _ _ _)] at hrest
      refine .inl ⟨req.accessCode, .answered status body, ?_, hreq.resolve_left (by simp)⟩
      rw [transcript_eq, hrest]
      exact mem_dialogue_of_mem env _ (by simp [consumption])
  · simp only [Backed, huuid, if_false] at hreq
    exact .inr ⟨req, hbody, huuid, hreq⟩

end

section

variable (r : HttpRequest) (req : ProvisionRequest) (image : String) (membership consumed : HttpAnswer)

theorem deployPod_makes (env : Environment Call Call.Answer) (wsUuid privateKey publicKey : String) :
    Makes env (.createPod ⟨wsUuid, req.image, publicKey, wsType req⟩) (deployPod req wsUuid privateKey publicKey) :=
  .bind_right fun _ => .perform_bind env _ _

def obligingPod (isNew : Bool) : PodSpec :=
  if isNew then ⟨"6ba7b810-9dad-11d1-80b4-00c04fd430c8", req.image, "public", wsType req⟩
  else ⟨req.uuid, req.image, "", wsType req⟩

theorem obligingPod_wsType (isNew : Bool) : (obligingPod req isNew).wsType = wsType req := by
  cases isNew <;> rfl

theorem createK8sPod_makes (isNew : Bool) (huuid : isNew = false → req.uuid ≠ "") :
    Makes (obliging image membership consumed) (.createPod (obligingPod req isNew))
      (createK8sPod defaultSettings req isNew) := by
  refine .bind_right fun _ => ?_
  cases isNew with
  | true =>
    refine .bind_right fun _ => ?_
    exact .bind_right fun _ => .bind_right fun _ => deployPod_makes req _ _ _ _
  | false =>
    refine .bind_right fun _ => ?_
    change Makes _ _ (if req.uuid = "" then _ else _)
    rw [if_neg (huuid rfl)]
    exact deployPod_makes req _ _ _ _

theorem createDevContainer_makes (isNew : Bool) (huuid : isNew = false → req.uuid ≠ "") :
    Makes (obliging image membership consumed) (.createPod (obligingPod req isNew))
      (createDevContainer defaultSettings req isNew) := by
  have hpod := createK8sPod_makes req image membership consumed isNew huuid
  cases isNew with
  | true => exact hpod
  | false => exact .bind_right fun _ => .bind_right fun _ => hpod

theorem background_makes (userHeader : String) (isNew : Bool) (huuid : isNew = false → req.uuid ≠ "") :
    Makes (obliging image membership consumed) (.createPod (obligingPod req isNew))
      (background defaultSettings req userHeader isNew) := by
  refine .bind_left (.bind_right fun _ => .bind_right fun said => ?_)
  exact .bind_right fun _ => .bind_left (createDevContainer_makes req image membership consumed isNew huuid)

theorem serve_makes (hbody : r.body = some req) (hmethod : r.method = "POST")
    (himage : req.image ≠ "") (huser : r.userHeader ≠ "") (hconsumed : req.uuid = "" → consumed ≠ .failed) :
    ∃ spec, spec.wsType = wsType req ∧
      .createPod spec ∈ issued (obliging req.image (.answered 200 .malformed) consumed)
        (serve defaultSettings r) := by
  have hvalid : ∀ said, (dialogue (obliging req.image (.answered 200 .malformed) consumed)
      (validate req r.userHeader) said).1 = none := by
    by_cases huuid : req.uuid = "" <;>
      simp [validate, validateImage, validateUser, checkEligibility, sendStatus, obliging, himage, huser, huuid]
  have hdecision : ∀ said, (dialogue (obliging req.image (.answered 200 .malformed) consumed)
      (provisionHandler defaultSettings r) said).1.job = some (decide (req.uuid = "")) := by
    intro said
    simp only [provisionHandler, hmethod, hbody, ne_eq, not_true_eq_false, if_false, decideRequest, dialogue_bind, hvalid]
    by_cases huuid : req.uuid = ""
    · cases consumed with
      | failed => exact absurd rfl (hconsumed huuid)
      | answered status body =>
        cases hdedicated : req.dedicated <;>
          simp [huuid, create, hdedicated, consumeAccessCode, obliging, readAccessAnswer_answered, map_eq_pure_bind]
    · rw [if_pos huuid, restore_of_answered defaultSettings r req _ rfl]
      simp [huuid, resume, devContainerExists, defaultSettings, k8sPodExists, obliging, sendStatus, default]
  have hmakes : Makes (obliging req.image (.answered 200 .malformed) consumed)
      (.createPod (obligingPod req (req.uuid = ""))) (serve defaultSettings r) := by
    refine .bind_right fun said => .bind_left ?_
    rw [startJob, hbody, hdecision]
    exact background_makes req _ _ _ _ _ (by simp)
  exact ⟨_, obligingPod_wsType req _, hmakes []⟩

end

section

variable (settings : Settings) (r : HttpRequest) (env : Environment Call Call.Answer) (stored : String → Option Bool)

theorem success_of_consumption {consumed : HttpAnswer}
    (henv : ∀ said userHeader code, env said (.consumeAccessCode userHeader code) = consumed)
    {code : String} {answer : HttpAnswer}
    (hmem : (⟨.consumeAccessCode r.userHeader code, answer⟩ : Σ call : Call, call.Answer) ∈ transcript settings r env) :
    answer = consumed := by
  rcases answer_of_mem_dialogue env _ hmem with hnil | ⟨before, hbefore⟩
  · simp at hnil
  · exact hbefore.trans (henv before r.userHeader code)

theorem no_consumption_of_restore {req : ProvisionRequest} (hbody : r.body = some req)
    (huuid : req.uuid ≠ "") {code : String} {answer : HttpAnswer} :
    (⟨.consumeAccessCode r.userHeader code, answer⟩ : Σ call : Call, call.Answer) ∉ transcript settings r env := by
  intro hmem
  rcases serve_restore_cases settings r req env hbody huuid with ⟨_, _, -, hsaid⟩ | ⟨-, hsaid⟩ | ⟨_, _, -, -, hsaid⟩
  · exact hsaid _ hmem
  · simpa [membershipCheck, Call.Inspects] using hsaid _ hmem
  · simpa [membershipCheck, Call.Inspects, Call.InJob] using hsaid _ hmem

/-- Whatever the deployment and the other services do, dedicated pods are backed by an entitlement exactly when
every accepted dedicated request is: the status of the consumption is never looked at, and a restore takes the
client's word. -/
theorem dedicatedNeedsEntitlement_iff (consumed : HttpAnswer) :
    (∀ settings env, (∀ said userHeader code, env said (.consumeAccessCode userHeader code) = consumed) →
      DedicatedNeedsEntitlement settings r env stored) ↔
    ∀ req, r.body = some req → r.method = "POST" → req.image ≠ "" → r.userHeader ≠ "" → req.dedicated →
      Backed stored consumed req := by
  refine ⟨fun hneeds req hbody hmethod himage huser hdedicated => ?_, fun hbacked settings env henv =>
    entitled_of_backed settings r env stored henv hbacked⟩
  by_contra hunbacked
  have hconsumed : req.uuid = "" → consumed ≠ .failed := fun huuid hfailed =>
    hunbacked (by simp [Backed, huuid, hfailed])
  obtain ⟨spec, hwsType, hspec⟩ := serve_makes r req consumed hbody hmethod himage huser hconsumed
  have hlabel : spec.wsType = .dedicated := by simp [hwsType, wsType, hdedicated]
  rcases hneeds _ _ (fun _ _ _ => rfl) spec hspec hlabel with ⟨code, answer, hmem, hsuccess⟩ | ⟨req', hbody', huuid, hstored⟩
  · by_cases huuid : req.uuid = ""
    · rw [success_of_consumption _ r _ (fun _ _ _ => rfl) hmem] at hsuccess
      exact hunbacked (by simp [Backed, huuid, hsuccess])
    · exact no_consumption_of_restore _ r _ hbody huuid hmem
  · cases hbody.symm.trans hbody'
    exact hunbacked (by simp [Backed, huuid, hstored])

/-- A new workspace: the code is refused with 403, the pod is dedicated. A restore: nothing is stored, the pod is
dedicated. -/
theorem dedicated_without_entitlement :
    ¬DedicatedNeedsEntitlement defaultSettings
      ⟨"POST", some ⟨"mallory", "s1", "node", "ws", "", "", true, "spent"⟩, "mallory"⟩
      (obliging "node" (.answered 200 .malformed) (.answered 403 .malformed)) (fun _ => none) ∧
    ¬DedicatedNeedsEntitlement defaultSettings
      ⟨"POST", some ⟨"mallory", "s1", "node", "ws", "", "3f2504e0-4f89-11d3-9a0c-0305e82c3301", true, ""⟩, "mallory"⟩
      (obliging "node" (.answered 200 .malformed) (.answered 403 .malformed)) (fun _ => some false) := by
  constructor
  · intro hneeds
    rcases hneeds ⟨"6ba7b810-9dad-11d1-80b4-00c04fd430c8", "node", "public", .dedicated⟩ (by decide) rfl with
      ⟨code, answer, hmem, hsuccess⟩ | ⟨req, hbody, huuid, -⟩
    · rw [success_of_consumption _ _ _ (fun _ _ _ => rfl) hmem] at hsuccess
      exact absurd hsuccess (by decide)
    · cases hbody
      exact huuid rfl
  · intro hneeds
    rcases hneeds ⟨"3f2504e0-4f89-11d3-9a0c-0305e82c3301", "node", "", .dedicated⟩ (by decide) rfl with
      ⟨code, answer, hmem, hsuccess⟩ | ⟨req, -, -, hstored⟩
    · rw [success_of_consumption _ _ _ (fun _ _ _ => rfl) hmem] at hsuccess
      exact absurd hsuccess (by decide)
    · simp at hstored

end

end HideServer.Provisioner
