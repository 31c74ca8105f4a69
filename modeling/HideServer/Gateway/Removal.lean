import HideServer.Gateway.Lapse

/-!
# When sessions are removed

Each handler by itself, with keys expiring at any moment: the sessions flagged inactive are lapsing
when it ends. Between the flag and the key the session in question is exempted.
-/

namespace HideServer.Gateway.Lapse

open Async Async.Prog Cache Function Trace Dict Option
open Sessions (Op program staleSession)

/-- A command removes a session only if that has lapsed. -/
def Guar (op : Op) (scene : Scene) (cmd : Cmd) : Prop :=
  ∀ session ∈ removed op cmd, scene.2 session.1 session.2 = .lapsed

/-- A triple for a handler of the user. -/
abbrev Handles (uid : String) (op : Op) {α : Type} (pre : Scene → Prop) (p : Io α) (post : α → Scene → Prop) : Prop :=
  Under (Watched.execute exec observer op) (Rely uid) (Guar op) pre p post

theorem handles_bind {uid : String} {op : Op} {α β : Type} {pre : Scene → Prop}
    {mid : α → Scene → Prop} {post : β → Scene → Prop} {p : Io α} {f : α → Io β}
    (hp : Handles uid op pre p mid) (hf : ∀ value, Handles uid op (mid value) (f value) post) :
    Handles uid op pre (p >>= f) post :=
  .bind (rely_refl uid) hp hf

def Reads (uid : String) (P : String → Prop) (cached : Option CachedPresence) (scene : Scene) : Prop :=
  scene.1.presence uid = cached ∧ Holds uid P scene

def Everything (_ : String) : Prop := True

theorem stable_reads (uid : String) (P : String → Prop) (cached : Option CachedPresence) :
    Stable (Rely uid) (Reads uid P cached) :=
  (stable_presence uid cached).and (stable_holds uid P)

theorem removed_eq_none {op : Op} {cmd : Cmd} {uid : String} (howner : owner op = some uid)
    (hforeign : Foreign uid cmd) : removed op cmd = none := by
  cases op with
  | connect _ _ _ _ | disconnect _ _ | ping _ _ _ _ => cases cmd <;> rfl
  | expiry key disposed =>
    obtain ⟨stale, hstale, rfl⟩ := map_eq_some_iff.mp howner
    cases cmd with
    | setPresence other presence | delPresence other => simp [removed, hstale, Ne.symm hforeign]
    | _ => rfl

theorem lapsing_write_zero (stage : Stage) : Lapsing (true, stage.write 0) := by
  cases stage with
  | live | counting => exact .inr rfl
  | lapsed => exact .inl rfl

theorem status_setTimer (op : Op) (key : String) (value ttl : Nat) (scene : Scene) (uid sessionId : String) :
    status (Watched.execute exec observer op (.setTimer key value ttl) scene).2 uid sessionId =
      if key = presenceSession uid sessionId then (true, (scene.2 uid sessionId).write value)
      else status scene uid sessionId := by
  have hnone : activity op (.setTimer key value ttl) = none := by cases op <;> rfl
  by_cases hkey : key = presenceSession uid sessionId
  · subst hkey
    simp [status, Watched.execute, observer, noteCommand, hnone, exec]
  · simp [status, Watched.execute, observer, noteCommand, hnone, exec, hkey, update_of_ne (Ne.symm hkey)]

theorem status_setPresence (op : Op) (uid : String) (presence : CachedPresence) (scene : Scene)
    (other sessionId : String) :
    status (Watched.execute exec observer op (.setPresence uid presence) scene).2 other sessionId =
      status scene other sessionId := by
  have hnone : activity op (.setPresence uid presence) = none := by cases op <;> rfl
  simp [status, Watched.execute, observer, noteCommand, hnone, exec]

section

variable {uid : String} {op : Op} (howner : owner op = some uid)
include howner

theorem handles_foreign {α : Type} {p : Io α} {Q : Scene → Prop} (hstable : Stable (Rely uid) Q)
    (hp : p.Only fun cmd => Foreign uid cmd ∧ activity op cmd = none) : Handles uid op Q p fun _ => Q := by
  apply hp.under hstable
  intro cmd scene hcmd hQ
  constructor
  · intro session hsession
    rw [removed_eq_none howner hcmd.1] at hsession
    cases hsession
  · exact hstable _ _ (rely_of_foreign hcmd.1 (by simp [hcmd.2]) scene) hQ

theorem handles_beside {α : Type} {p : Io α} {Q : Scene → Prop} (hstable : Stable (Rely uid) Q)
    (hp : p.Only Beside) : Handles uid op Q p fun _ => Q :=
  handles_foreign howner hstable (hp.mono fun _ h => ⟨h.foreign uid, h.activity op⟩)

theorem handles_get {P Q : String → Prop} (hP : ∀ sessionId, Q sessionId → P sessionId)
    (hQ : ∀ sessionId, Q sessionId → activity op (.getPresence uid) ≠ some (uid, sessionId)) :
    Handles uid op (Holds uid P) (ask (.getPresence uid)) (Reads uid Q) := by
  refine .perform (stable_holds uid P) (stable_reads uid Q) fun scene hholds => ?_
  refine ⟨fun session hsession => ?_, rfl, ?_⟩
  · cases op <;> cases hsession
  · intro sessionId session hsession huid hplain hfound hinactive
    have hforeign : Foreign uid (.getPresence uid) := trivial
    rw [status_of_foreign hforeign (hQ sessionId hsession) huid hplain]
    exact hholds sessionId session (hP sessionId hsession) huid hplain hfound hinactive

theorem handles_setTimer {presence : CachedPresence} {sessionId : String} (value ttl : Nat)
    (hflag : ∀ session, presence.get? sessionId = some session → session.state = .inactive → value = 0) :
    Handles uid op (Reads uid (· ≠ sessionId) (some presence))
      (ask (.setTimer (presenceSession uid sessionId) value ttl)) fun _ =>
        Holds uid Everything := by
  refine .perform (stable_reads uid _ _) (fun _ => stable_holds uid _) ?_
  rintro scene ⟨hpresence, hholds⟩
  refine ⟨fun session hsession => ?_, fun other session _ huid hplain hfound hinactive => ?_⟩
  · cases op <;> cases hsession
  · change scene.1.session uid other = some session at hfound
    rw [status_setTimer]
    by_cases hother : other = sessionId
    · subst hother
      rw [World.session, hpresence] at hfound
      rw [if_pos rfl, hflag session hfound hinactive]
      exact lapsing_write_zero _
    · have hkey : presenceSession uid sessionId ≠ presenceSession uid other :=
        fun hsame => hother (presenceSession_inj huid hplain hsame).2.symm
      rw [if_neg hkey]
      exact hholds other session hother huid hplain hfound hinactive

theorem handles_setSessionState (t : Timeouts) {P : String → Prop} {presence : CachedPresence}
    {cached : Option CachedPresence} {sessionId : String} (state : Liveness)
    (hP : ∀ other, other ≠ sessionId → P other) (hsession : (presence.get? sessionId).isSome)
    (hothers : ∀ other, other ≠ sessionId → presence.get? other = cached.bind (·.get? other))
    (hkept : removed op (.setPresence uid (presence.modify sessionId ({ · with state := state }))) = none) :
    Handles uid op (Reads uid P cached) (setSessionState t presence uid sessionId state)
      fun _ => Holds uid Everything := by
  obtain ⟨session, hsession⟩ := isSome_iff_exists.mp hsession
  let written := presence.modify sessionId ({ · with state := state })
  have hwritten : written.get? sessionId = some { session with state := state } := by
    simp [written, get?_modify, hsession]
  have hset : Handles uid op (Reads uid P cached) (ask (.setPresence uid written))
      fun _ => Reads uid (· ≠ sessionId) (some written) := by
    refine .perform (stable_reads uid P cached) (fun _ => stable_reads uid _ _) ?_
    rintro scene ⟨hpresence, hholds⟩
    refine ⟨fun stale hstale => ?_, update_self .., fun other session hother huid hplain hfound hinactive => ?_⟩
    · rw [hkept] at hstale
      cases hstale
    · change World.session { scene.1 with presence := update scene.1.presence uid (some written) } uid other =
        some session at hfound
      rw [session_update, if_pos rfl, bind_some, get?_modify, if_neg hother, hothers other hother, ← hpresence]
        at hfound
      rw [status_setPresence]
      exact hholds other session (hP other hother) huid hplain hfound hinactive
  refine handles_bind hset fun _ => ?_
  cases state with
  | active =>
    refine handles_bind (handles_setTimer howner 1 t.sessionPing ?_) fun _ => ?_
    · intro session hfound hinactive
      cases hwritten.symm.trans hfound
      cases hinactive
    · exact .ret (stable_holds uid _) fun _ h => h
  | inactive =>
    refine handles_bind (handles_setTimer howner 0 t.sessionActivity fun _ _ _ => rfl) fun _ => ?_
    exact .ret (stable_holds uid _) fun _ h => h

end

section

variable (t : Timeouts) (uid : String)

theorem handles_connect (sessionId socketId gatewayId : String) :
    Handles uid (.connect uid sessionId socketId gatewayId) (Holds uid Everything)
      (handleConnection t uid sessionId socketId gatewayId) fun _ => Holds uid Everything := by
  have hholds := stable_holds uid Everything
  refine handles_bind (handles_beside rfl hholds (.single trivial)) fun lock => ?_
  cases lock with
  | none => exact .ret hholds fun _ h => h
  | some token =>
    refine handles_bind (handles_get rfl (Q := (· ≠ sessionId)) (fun _ _ => trivial) ?_) fun cached => ?_
    · intro other hother hsame
      exact hother (congrArg Prod.snd (some.inj hsame)).symm
    refine handles_bind (handles_beside rfl (stable_reads uid _ _) (beside.replaceSocket _).only) fun _ => ?_
    refine handles_bind (handles_setSessionState rfl t .active (fun _ h => h) (by simp [get?_set]) ?_ rfl) fun _ => ?_
    · intro other hother
      rw [get?_set, if_neg hother]
      cases cached <;> rfl
    refine handles_bind (handles_beside rfl hholds (beside.touchWorkspace _ _ _ (fun _ _ => trivial) _).only) fun _ => ?_
    exact handles_beside rfl hholds (.single trivial)

theorem handles_disconnect (sessionId : String) :
    Handles uid (.disconnect uid sessionId) (Holds uid Everything)
      (handleDisconnect t uid sessionId) fun _ => Holds uid Everything := by
  have hholds := stable_holds uid Everything
  have hdone (cached : Option CachedPresence) : Handles uid (.disconnect uid sessionId) (Reads uid Everything cached)
      (return ()) fun _ => Holds uid Everything := Under.ret hholds fun _ h => h.2
  refine handles_bind (handles_beside rfl hholds (.single trivial)) fun lock => ?_
  cases lock with
  | none => exact .ret hholds fun _ h => h
  | some token =>
    refine handles_bind (handles_get rfl (fun _ h => h) nofun) fun cached => ?_
    cases cached with
    | none => exact hdone none
    | some presence =>
      dsimp only
      cases hsession : presence.get? sessionId with
      | none => exact hdone _
      | some session =>
        refine handles_bind
          (handles_setSessionState rfl t .inactive (fun _ _ => trivial) (by simp [hsession]) (fun _ _ => rfl) rfl) fun _ => ?_
        refine handles_bind (handles_beside rfl hholds (beside.touchWorkspace _ _ _ (fun _ _ => trivial) _).only) fun _ => ?_
        exact handles_beside rfl hholds (.single trivial)

theorem handles_ping (sessionId : String) (uuid : Option String) (served : Bool) :
    Handles uid (.ping uid sessionId uuid served) (Holds uid Everything)
      (handlePing t uid sessionId uuid served) fun _ => Holds uid Everything := by
  have hholds := stable_holds uid Everything
  have hemit (message : Message) : Handles uid (.ping uid sessionId uuid served) (Holds uid Everything)
      (ask (.emit message)) fun _ => Holds uid Everything := handles_beside rfl hholds (.single trivial)
  -- a ping of a session that is not there exempts nothing
  have hrefused (cached : Option CachedPresence) (habsent : cached.bind (·.get? sessionId) = none) :
      Handles uid (.ping uid sessionId uuid served) (Reads uid (· ≠ sessionId) cached)
        (ask (.emit (.socketError "NO_SESSION"))) fun _ => Holds uid Everything := by
    refine .consequence (hemit _) fun scene hreads other session _ huid hplain hfound hinactive => ?_
    have hother : other ≠ sessionId := by
      rintro rfl
      rw [World.session, hreads.1, habsent] at hfound
      cases hfound
    exact hreads.2 other session hother huid hplain hfound hinactive
  refine handles_bind (handles_get rfl (Q := (· ≠ sessionId)) (fun _ _ => trivial) ?_) fun cached => ?_
  · intro other hother hsame
    exact hother (congrArg Prod.snd (some.inj hsame)).symm
  cases cached with
  | none => exact hrefused none rfl
  | some presence =>
    refine .ite (fun hnone => hrefused _ (by simpa using hnone)) fun hsome => ?_
    have hsession : (presence.get? sessionId).isSome := by simpa [isSome_iff_ne_none] using hsome
    refine handles_bind (handles_bind (handles_setSessionState rfl t .active (fun _ h => h) hsession (fun _ _ => rfl) rfl)
      fun _ => handles_beside rfl hholds (beside.refreshWorkspace _ _ _ (fun _ _ => trivial) _ _).only) fun awareness => ?_
    cases awareness with
    | none => exact .ret hholds fun _ h => h
    | some uids => exact hemit _

/-- The session is to go. -/
def Lapsed (uid sessionId : String) (scene : Scene) : Prop :=
  (status scene uid sessionId).1 = false ∧ scene.2 uid sessionId = .lapsed

theorem stable_lapsed {uid sessionId : String} (huid : Plain uid) (hplain : Plain sessionId)
    (presence : CachedPresence) :
    Stable (Rely uid) fun scene => Reads uid Everything (some presence) scene ∧ Lapsed uid sessionId scene :=
  (stable_reads uid Everything (some presence)).and (stable_unset huid hplain (· = .lapsed))

section

variable {t uid} {key sessionId : String} (disposed : Bool) (hstale : staleSession key = some (uid, sessionId))
include hstale

theorem handles_expiry_foreign {α : Type} {p : Io α} {Q : Scene → Prop}
    (hstable : Stable (Rely uid) Q) (hp : p.Only (Foreign uid)) : Handles uid (.expiry key disposed) Q p fun _ => Q :=
  handles_foreign (by simp [owner, hstale]) hstable (hp.mono fun cmd hcmd => ⟨hcmd, by cases cmd <;> rfl⟩)

theorem guar_of_lapsed {scene : Scene} (hlapsed : Lapsed uid sessionId scene) (cmd : Cmd) :
    Guar (.expiry key disposed) scene cmd := by
  intro session hremoved
  have hsession : staleSession key = some session := by
    cases cmd with
    | setPresence _ _ | delPresence _ => exact (filter_eq_some_iff.mp hremoved).1
    | _ => cases hremoved
  cases hstale.symm.trans hsession
  exact hlapsed.2

variable (huid : Plain uid) (hplain : Plain sessionId)
include huid hplain

theorem handles_dropSession (presence : CachedPresence) :
    Handles uid (.expiry key disposed)
      (fun scene => Reads uid Everything (some presence) scene ∧ Lapsed uid sessionId scene)
      (dropSession presence uid sessionId) fun _ => Holds uid Everything := by
  have hstable := stable_lapsed huid hplain presence
  refine .ite (fun _ => ?_) fun _ => ?_
  · refine .perform hstable (fun _ => stable_holds uid _) fun scene hscene => ?_
    refine ⟨guar_of_lapsed disposed hstale hscene.2 _, fun other session _ _ _ hfound _ => ?_⟩
    change World.session { scene.1 with presence := update scene.1.presence uid none } uid other = some session
      at hfound
    rw [session_update, if_pos rfl] at hfound
    cases hfound
  · refine .perform hstable (fun _ => stable_holds uid _) fun scene hscene => ?_
    refine ⟨guar_of_lapsed disposed hstale hscene.2 _, fun other session _ huid hother hfound hinactive => ?_⟩
    change World.session { scene.1 with presence := update scene.1.presence uid (some (presence.erase sessionId)) }
      uid other = some session at hfound
    rw [session_update, if_pos rfl, bind_some, get?_erase] at hfound
    split_ifs at hfound
    refine hscene.1.2 other session trivial huid hother ?_ hinactive
    rw [World.session, hscene.1.1]
    exact hfound

theorem handles_sessionExpiry (presence : CachedPresence) (session : CachedSession) :
    Handles uid (.expiry key disposed)
      (fun scene => Reads uid Everything (some presence) scene ∧ Lapsed uid sessionId scene)
      (handleSessionExpiry presence uid sessionId session disposed) fun _ =>
        Holds uid Everything := by
  have hstable := stable_lapsed huid hplain presence
  have hdrop : Handles uid (.expiry key disposed)
      (fun scene => Reads uid Everything (some presence) scene ∧ Lapsed uid sessionId scene)
      (do dropSession presence uid sessionId; return true) fun _ => Holds uid Everything :=
    handles_bind (handles_dropSession disposed hstale huid hplain presence) fun _ =>
      .ret (stable_holds uid _) fun _ h => h
  refine handles_bind (handles_expiry_foreign disposed hstale hstable (.single trivial)) fun _ => ?_
  split
  · exact hdrop
  · refine handles_bind (handles_expiry_foreign disposed hstale hstable (foreign_handleWorkspaceExpiry ..)) fun ok => ?_
    exact .ite (fun _ => .ret (stable_holds uid _) fun _ h => h.1.2) fun _ => hdrop

theorem handles_staleSession (t : Timeouts) :
    Handles uid (.expiry key disposed)
      (fun scene => Holds uid Everything scene ∧ (status scene uid sessionId).1 = false)
      (handleStaleSession t uid sessionId disposed) fun _ => Holds uid Everything := by
  have hunset : Stable (Rely uid) fun scene => (status scene uid sessionId).1 = false :=
    fun scene scene' hrely h => (stable_unset huid hplain (fun _ => True) scene scene' hrely ⟨h, trivial⟩).1
  have hdone (cached : Option CachedPresence) : Handles uid (.expiry key disposed)
      (fun scene => Reads uid Everything cached scene ∧ (status scene uid sessionId).1 = false) (return true)
      fun _ => Holds uid Everything := Under.ret (stable_holds uid _) fun _ h => h.1.2
  have hget : Handles uid (.expiry key disposed)
      (fun scene => Holds uid Everything scene ∧ (status scene uid sessionId).1 = false) (ask (.getPresence uid))
      fun cached scene => Reads uid Everything cached scene ∧ (status scene uid sessionId).1 = false :=
    .perform ((stable_holds uid _).and hunset) (fun cached => (stable_reads uid _ cached).and hunset)
      fun scene hscene => ⟨nofun, ⟨rfl, hscene.1⟩, hscene.2⟩
  refine handles_bind hget fun cached => ?_
  cases cached with
  | none => exact hdone none
  | some presence =>
    dsimp only
    cases hsession : presence.get? sessionId with
    | none => exact hdone _
    | some session =>
      dsimp only
      cases hstate : session.state with
      | active =>
        have hkept : removed (.expiry key disposed)
            (.setPresence uid (presence.modify sessionId ({ · with state := .inactive }))) = none := by
          simp [removed, hstale, get?_modify, hsession]
        refine .consequence ?_ fun scene hscene => hscene.1
        refine handles_bind (handles_expiry_foreign disposed hstale (stable_reads uid _ _)
          ((foreign uid).idleWorkspace _ _ _ fun _ _ => trivial).only) fun _ => ?_
        refine handles_bind (handles_setSessionState (by simp [owner, hstale]) t .inactive (fun _ _ => trivial)
          (by simp [hsession]) (fun _ _ => rfl) hkept) fun _ => ?_
        exact .ret (stable_holds uid _) fun _ h => h
      | inactive =>
        refine .consequence (handles_sessionExpiry disposed hstale huid hplain presence session) ?_
        rintro scene ⟨hreads, hkey⟩
        refine ⟨hreads, hkey, ?_⟩
        have hfound : scene.1.session uid sessionId = some session := by simp [World.session, hreads.1, hsession]
        rcases hreads.2 sessionId session trivial huid hplain hfound hstate with hover | hset
        · exact hover
        · rw [hset] at hkey
          cases hkey

end

theorem handleStaleKey_of_stale (t : Timeouts) {key uid sessionId : String} (disposed : Bool)
    (hstale : staleSession key = some (uid, sessionId)) :
    handleStaleKey t key disposed = handleStaleSession t uid sessionId disposed := by
  unfold staleSession at hstale
  unfold handleStaleKey handleStalePresence
  split_ifs at hstale ⊢ with hhead
  cases hws : given (split key).tail[2]? with
  | none =>
    rw [hws] at hstale
    cases hstale
    rfl
  | some wsUuid =>
    rw [hws] at hstale
    cases hstale

theorem plain_of_stale {uid sessionId : String}
    (hstale : staleSession (presenceSession uid sessionId) = some (uid, sessionId)) : Plain uid ∧ Plain sessionId := by
  have hruns := handleStaleKey_of_stale .default true hstale
  exact (decodes_session_iff .default true uid sessionId).mp hruns

theorem handles_expiry (t : Timeouts) {uid sessionId key : String} (disposed : Bool)
    (hstale : staleSession key = some (uid, sessionId)) (hkey : key = presenceSession uid sessionId) :
    Handles uid (.expiry key disposed) (fun scene => Holds uid Everything scene ∧ scene.1.timers key = none)
        (handleCacheExpiry t key disposed)
      fun _ => Holds uid Everything := by
  have hholds := stable_holds uid Everything
  obtain ⟨huid, hplain⟩ : Plain uid ∧ Plain sessionId := plain_of_stale (hkey ▸ hstale)
  have hunset : Stable (Rely uid) fun scene => Holds uid Everything scene ∧ (status scene uid sessionId).1 = false :=
    (stable_holds uid _).and fun scene scene' hrely h =>
      (stable_unset huid hplain (fun _ => True) scene scene' hrely ⟨h, trivial⟩).1
  have hpre (scene : Scene) (h : Holds uid Everything scene ∧ scene.1.timers key = none) :
      Holds uid Everything scene ∧ (status scene uid sessionId).1 = false :=
    ⟨h.1, by rw [status, ← hkey, h.2]; rfl⟩
  refine .consequence ?_ hpre
  refine handles_bind (handles_expiry_foreign disposed hstale hunset (.single trivial)) fun lock => ?_
  cases lock with
  | none => exact .ret hholds fun _ h => h.1
  | some token =>
    rw [handleStaleKey_of_stale t disposed hstale]
    refine handles_bind (handles_staleSession disposed hstale huid hplain t) fun ok => .ite (fun _ => ?_) fun _ => ?_
    · exact handles_expiry_foreign disposed hstale hholds (.single trivial)
    · exact .ret hholds fun _ h => h

end

theorem rely_pass (uid : String) (a : Outside) (scene : Scene) :
    Rely uid scene (pass scene.1 a, observer.outside a scene.1 scene.2) := by
  cases a with
  | change a =>
    refine ⟨congrFun (World.change_presence scene.1 a) uid, fun sessionId _ _ => .inl ?_⟩
    cases a <;> rfl
  | announce key =>
    simp only [pass, World.announce, observer]
    by_cases hdue : ((scene.1.timers key).any fun timer => timer.expires ≤ scene.1.now) = true
    · rw [if_pos hdue]
      refine ⟨rfl, fun sessionId _ _ => ?_⟩
      by_cases hkey : key = presenceSession uid sessionId
      · right
        subst hkey
        have hset : (scene.1.timers (presenceSession uid sessionId)).isSome := by
          cases htimer : scene.1.timers (presenceSession uid sessionId) with
          | none => simp [htimer] at hdue
          | some timer => rfl
        refine ⟨hset, ?_⟩
        by_cases hcounting : scene.2 uid sessionId = .counting
        · simp [status, noteOutside, hdue, expire, hcounting]
        · simp [status, noteOutside, expire, hcounting]
      · simp [status, noteOutside, hkey, update_of_ne (Ne.symm hkey)]
    · rw [if_neg hdue]
      exact ⟨rfl, fun sessionId _ _ => .inl (by simp [status, noteOutside, hdue])⟩

def discipline (t : Timeouts) (uid : String) : Watched.Discipline (program t) exec pass observer where
  mine op := owner op = some uid
  rely := Rely uid
  guar := Guar
  inv := Holds uid Everything
  ready op scene := Due scene.1 op
  refl := rely_refl uid
  trans := rely_trans uid
  stable := stable_holds uid Everything
  secure := by
    intro op howner
    cases op with
    | connect user sessionId socketId gatewayId =>
      cases howner
      exact (handles_connect t uid sessionId socketId gatewayId).consequence fun _ h => h.1
    | disconnect user sessionId =>
      cases howner
      exact (handles_disconnect t uid sessionId).consequence fun _ h => h.1
    | ping user sessionId uuid served =>
      cases howner
      exact (handles_ping t uid sessionId uuid served).consequence fun _ h => h.1
    | expiry key disposed =>
      obtain ⟨⟨user, sessionId⟩, hstale, rfl⟩ := map_eq_some_iff.mp howner
      intro scene ⟨hholds, hdue⟩
      obtain ⟨hkey, hunset⟩ := hdue (user, sessionId) hstale
      exact handles_expiry t disposed hstale hkey scene ⟨hholds, hunset⟩
  others := others_program t
  around := rely_pass uid

theorem removed_owner {op : Op} {cmd : Cmd} {session : String × String}
    (h : removed op cmd = some session) : owner op = some session.1 := by
  cases op with
  | expiry key disposed =>
    cases cmd with
    | setPresence _ _ | delPresence _ => simp [owner, (filter_eq_some_iff.mp h).1]
    | _ => cases h
  | connect _ _ _ _ | disconnect _ _ | ping _ _ _ _ => cases cmd <;> cases h

/-- Sessions are removed only when they have lapsed, in every run in which handlers are started in turn. -/
theorem removal_of_inTurn (t : Timeouts) {labels : List Step} (hturn : Along (step t) InTurn start labels) :
    Along (step t) Removal start labels := by
  have hguaranteed (uid : String) : Along (step t) (discipline t uid).Guaranteed start labels := by
    refine Watched.Discipline.guaranteed_of_admitted (fun _ _ _ _ _ hfound => nomatch hfound) (hturn.mono ?_)
    intro s label hlabel
    cases label with
    | spawn op => exact fun howner => ⟨hlabel.1 uid howner, hlabel.2⟩
    | resume _ | outside _ => trivial
  refine (along_forall hguaranteed).mono fun s label hlabel => ?_
  cases label with
  | resume i =>
    intro next hnext session hsession
    exact hlabel session.1 next.1 next.2 hnext (removed_owner hsession) session hsession
  | spawn _ | outside _ => trivial

def keyOfAlice : String := presenceSession "alice" "s1"

def unattended : List Step :=
  [.spawn (.connect "alice" "s1" "k1" "g1"), .resume 0, .resume 0, .resume 0, .resume 0, .resume 0, .resume 0,
    .outside (.change (.wait 20000)), .outside (.announce keyOfAlice),
    .spawn (.expiry keyOfAlice true), .resume 1, .resume 1, .resume 1, .resume 1, .resume 1]

/-- The session is inactive, and its second period passes. -/
def expiredTwice : List Step :=
  unattended ++ [.outside (.change (.wait 360000)), .outside (.announce keyOfAlice),
    .spawn (.expiry keyOfAlice true), .resume 2, .resume 2, .resume 2, .resume 2]

/-- The first expiry is handled by a second gateway. -/
def handledTwice : List Step :=
  unattended ++ [.spawn (.expiry keyOfAlice true), .resume 2, .resume 2, .resume 2, .resume 2]

theorem removal_expiredTwice : Along (step .default) Removal start expiredTwice :=
  removal_of_inTurn .default (by decide +kernel)

def Announced (s : State) : Step → Prop
  | .spawn (.expiry key _) => key ∈ s.pool.shared.announced
  | _ => True

instance (s : State) (label : Step) : Decidable (Announced s label) := by
  unfold Announced
  split <;> infer_instance

/-- The session is removed at once, though no period of inactivity has passed. -/
theorem removed_handledTwice : Along (step .default) Announced start handledTwice ∧
    ¬Along (step .default) Removal start handledTwice := by
  refine ⟨by decide +kernel, by decide +kernel⟩

end HideServer.Gateway.Lapse
