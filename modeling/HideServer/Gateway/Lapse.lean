import HideServer.Async.Rely
import HideServer.Gateway.Sessions

/-!
# Sessions that lapse

A session goes after two expiries, but the handler decides by the flag it finds, not by the key that
expired. The handlers of any number of gateways are interleaved at every command, and an observer notes
how far each session has lapsed. The condition `InTurn` is sufficient, and coarser than it need be.
-/

namespace HideServer.Gateway.Lapse

open Async Async.Prog Cache
open Sessions (Op program staleSession)

variable {uid : String} {cmd : Cmd}

inductive Outside where
  | change (change : Change)
  | announce (key : String)
  deriving DecidableEq, Repr

def pass (w : World) : Outside → World
  | .change a => w.change a
  | .announce key => w.announce key

inductive Stage where
  /-- The session has connected or pinged, and no 0 has been written since. -/
  | live
  /-- A key was written with 0 since. -/
  | counting
  | lapsed
  deriving DecidableEq, Repr

abbrev Stages := String → String → Stage

/-- The session that connects or pings. -/
def activity : Op → Cmd → Option (String × String)
  | .connect uid sessionId _ _, .getPresence _ => some (uid, sessionId)
  | .ping uid sessionId _ _, .getPresence _ => some (uid, sessionId)
  | _, _ => none

def Stage.write (value : Nat) (stage : Stage) : Stage :=
  if value = 0 then (if stage = .lapsed then .lapsed else .counting) else .live

def noteCommand (op : Op) (cmd : Cmd) (stages : Stages) (uid sessionId : String) : Stage :=
  if activity op cmd = some (uid, sessionId) then .live
  else
    match cmd with
    | .setTimer key value _ =>
      if key = presenceSession uid sessionId then (stages uid sessionId).write value else stages uid sessionId
    | .delTimer key =>
      if key = presenceSession uid sessionId ∧ stages uid sessionId = .counting then .live
      else stages uid sessionId
    | _ => stages uid sessionId

def noteOutside (a : Outside) (w : World) (stages : Stages) (uid sessionId : String) : Stage :=
  match a with
  | .change _ => stages uid sessionId
  | .announce key =>
    if key = presenceSession uid sessionId ∧ ((w.timers key).any fun timer => timer.expires ≤ w.now) ∧
        stages uid sessionId = .counting then .lapsed
    else stages uid sessionId

def observer : Observer World Stages Op Outside Cmd where
  command op cmd _ stages := noteCommand op cmd stages
  outside := noteOutside

abbrev State := Watched World Stages Op Cmd Cmd.Answer Unit

abbrev Step := Action Op Outside

def start : State := ⟨⟨.empty, []⟩, fun _ _ => .live⟩

def step (t : Timeouts) : State → Step → State := Watched.step (program t) exec pass observer

def removed : Op → Cmd → Option (String × String)
  | .expiry key _, .delPresence uid => (staleSession key).filter fun stale => stale.1 = uid
  | .expiry key _, .setPresence uid presence =>
    (staleSession key).filter fun stale => stale.1 = uid && (presence.get? stale.2).isNone
  | _, _ => none

/-- What is removed has lapsed. -/
def Removal (s : State) : Step → Prop
  | .resume i => ∀ next ∈ s.pool.next? i, ∀ session ∈ removed next.1 next.2, s.noted session.1 session.2 = .lapsed
  | _ => True

def owner : Op → Option String
  | .connect uid _ _ _ | .disconnect uid _ | .ping uid _ _ _ => some uid
  | .expiry key _ => (staleSession key).map Prod.fst

/-- The key that is taken for that of a session is the session's own, and is not set. -/
def Due (w : World) : Op → Prop
  | .expiry key _ => ∀ session ∈ staleSession key, key = presenceSession session.1 session.2 ∧ w.timers key = none
  | _ => True

/-- A handler starts when those of the same user have ended; the handler of an expiry also only while the key has
not been written again. -/
def InTurn (s : State) : Step → Prop
  | .spawn op =>
    (∀ uid ∈ owner op, ∀ task ∈ s.pool.tasks, owner task.op = some uid → task.prog.head? = none) ∧ Due s.pool.shared op
  | _ => True

instance (s : State) (label : Step) : Decidable (Removal s label) := by
  cases label <;> unfold Removal <;> infer_instance

instance (w : World) (op : Op) : Decidable (Due w op) := by
  cases op <;> unfold Due <;> infer_instance

instance (s : State) (label : Step) : Decidable (InTurn s label) := by
  cases label <;> unfold InTurn <;> infer_instance

abbrev Scene := World × Stages

def status (scene : Scene) (uid sessionId : String) : Bool × Stage :=
  ((scene.1.timers (presenceSession uid sessionId)).isSome, scene.2 uid sessionId)

def Lapsing (status : Bool × Stage) : Prop := status.2 = .lapsed ∨ status = (true, .counting)

def expire (status : Bool × Stage) : Bool × Stage :=
  (false, if status.2 = .counting then .lapsed else status.2)

/-- Others leave the presence alone, and keys may expire. -/
def Rely (uid : String) (scene scene' : Scene) : Prop :=
  scene'.1.presence uid = scene.1.presence uid ∧ ∀ sessionId, Plain uid → Plain sessionId →
    status scene' uid sessionId = status scene uid sessionId ∨
      (status scene uid sessionId).1 = true ∧ status scene' uid sessionId = expire (status scene uid sessionId)

theorem rely_refl (uid : String) (scene : Scene) : Rely uid scene scene :=
  ⟨rfl, fun _ _ _ => .inl rfl⟩

theorem rely_trans (uid : String) (scene scene' scene'' : Scene) (h : Rely uid scene scene')
    (h' : Rely uid scene' scene'') : Rely uid scene scene'' := by
  refine ⟨h'.1.trans h.1, fun sessionId huid hsession => ?_⟩
  rcases h'.2 sessionId huid hsession with hsame' | ⟨hset', hexpired'⟩
  · rw [hsame']
    exact h.2 sessionId huid hsession
  · rcases h.2 sessionId huid hsession with hsame | ⟨-, hexpired⟩
    · rw [hsame] at hset' hexpired'
      exact .inr ⟨hset', hexpired'⟩
    · rw [hexpired] at hset'
      cases hset'

/-- Inactive sessions are lapsing. -/
def Holds (uid : String) (P : String → Prop) (scene : Scene) : Prop :=
  ∀ sessionId session, P sessionId → Plain uid → Plain sessionId → scene.1.session uid sessionId = some session →
    session.state = .inactive → Lapsing (status scene uid sessionId)

theorem lapsing_expire {status : Bool × Stage} (h : Lapsing status) : Lapsing (expire status) := by
  rcases h with hover | rfl
  · exact .inl (by simp [expire, hover])
  · exact .inl rfl

theorem stable_presence (uid : String) (cached : Option CachedPresence) :
    Stable (Rely uid) fun scene => scene.1.presence uid = cached :=
  fun _ _ hrely hcached => hrely.1.trans hcached

theorem stable_holds (uid : String) (P : String → Prop) : Stable (Rely uid) (Holds uid P) := by
  intro scene scene' hrely hholds sessionId session hP huid hsession hfound hinactive
  rw [World.session, hrely.1] at hfound
  have hlapsing := hholds sessionId session hP huid hsession hfound hinactive
  rcases hrely.2 sessionId huid hsession with hsame | ⟨-, hexpired⟩
  · rw [hsame]
    exact hlapsing
  · rw [hexpired]
    exact lapsing_expire hlapsing

variable {sessionId : String}

theorem stable_unset (huid : Plain uid) (hsession : Plain sessionId) (P : Stage → Prop) :
    Stable (Rely uid) fun scene => (status scene uid sessionId).1 = false ∧ P (scene.2 uid sessionId) := by
  rintro scene scene' hrely ⟨hunset, hstage⟩
  rcases hrely.2 sessionId huid hsession with hsame | ⟨hset, -⟩
  · rw [hsame]
    exact ⟨hunset, by rwa [show scene'.2 uid sessionId = _ from congrArg Prod.snd hsame]⟩
  · cases hunset.symm.trans hset

def Foreign (uid : String) : Cmd → Prop
  | .setPresence other _ | .delPresence other => other ≠ uid
  | .setTimer key _ _ | .delTimer key =>
    ∀ sessionId, Plain uid → Plain sessionId → key ≠ presenceSession uid sessionId
  | _ => True

def Beside : Cmd → Prop
  | .getPresence _ | .setPresence .. | .delPresence _ => False
  | .setTimer key _ _ | .delTimer key => ∀ uid sessionId, Plain uid → Plain sessionId → key ≠ presenceSession uid sessionId
  | _ => True

theorem Beside.foreign (h : Beside cmd) (uid : String) : Foreign uid cmd := by
  cases cmd with
  | setPresence _ _ | delPresence _ => exact h.elim
  | setTimer _ _ _ | delTimer _ => exact h uid
  | _ => trivial

theorem Beside.activity (h : Beside cmd) (op : Op) : activity op cmd = none := by
  cases cmd with
  | getPresence _ => exact h.elim
  | _ => cases op <;> rfl

section

variable (hforeign : Foreign uid cmd)

include hforeign

theorem noteCommand_of_foreign {op : Op}
    (hactivity : activity op cmd ≠ some (uid, sessionId)) (huid : Plain uid) (hsession : Plain sessionId)
    (stages : Stages) : noteCommand op cmd stages uid sessionId = stages uid sessionId := by
  unfold noteCommand
  rw [if_neg hactivity]
  cases cmd with
  | setTimer key value ttl => exact if_neg (hforeign sessionId huid hsession)
  | delTimer key => exact if_neg fun h => hforeign sessionId huid hsession h.1
  | _ => rfl

theorem exec_of_foreign (w : World) :
    (exec cmd w).2.presence uid = w.presence uid ∧ ∀ sessionId, Plain uid → Plain sessionId →
      (exec cmd w).2.timers (presenceSession uid sessionId) = w.timers (presenceSession uid sessionId) := by
  cases cmd with
  | setPresence other _ | delPresence other =>
    exact ⟨Function.update_of_ne (Ne.symm hforeign) _ _, fun _ _ _ => rfl⟩
  | setTimer key _ _ | delTimer key =>
    exact ⟨rfl, fun sessionId huid hsession => Function.update_of_ne (hforeign sessionId huid hsession).symm _ _⟩
  | acquire key duration | release key token =>
    simp only [exec]
    split <;> exact ⟨rfl, fun _ _ _ => rfl⟩
  | _ => exact ⟨rfl, fun _ _ _ => rfl⟩

theorem status_of_foreign {op : Op}
    (hactivity : activity op cmd ≠ some (uid, sessionId)) (huid : Plain uid) (hsession : Plain sessionId)
    (scene : Scene) :
    status (Watched.execute exec observer op cmd scene).2 uid sessionId = status scene uid sessionId :=
  Prod.ext (congrArg Option.isSome ((exec_of_foreign hforeign scene.1).2 sessionId huid hsession))
    (noteCommand_of_foreign hforeign hactivity huid hsession scene.2)

theorem rely_of_foreign {op : Op} (hactivity : ∀ sessionId, activity op cmd ≠ some (uid, sessionId)) (scene : Scene) :
    Rely uid scene (Watched.execute exec observer op cmd scene).2 := by
  refine ⟨(exec_of_foreign hforeign scene.1).1, fun sessionId huid hsession => .inl ?_⟩
  exact status_of_foreign hforeign (hactivity sessionId) huid hsession scene

end

theorem beside : RecordRules Beside (fun _ _ => True) (fun _ _ => True) fun _ => True := by
  refine .free (fun cmd h => ?_) (fun _ _ => trivial) fun _ _ _ _ _ _ _ => presenceWorkspace_ne
  cases cmd <;> trivial

theorem foreign (uid : String) : Rules (Foreign uid) (fun _ _ => True) (fun _ _ => True) fun _ => True where
  toRecordRules := by
    refine .free (fun cmd h => ?_) (fun _ _ => trivial) fun _ _ _ _ _ _ => presenceWorkspace_ne
    cases cmd <;> first | exact h.elim | trivial
  getPresence _ := trivial
  within _ _ _ _ _ _ := trivial
  lift _ _ _ _ := presenceWorkspace_ne

theorem foreign_handleWorkspaceExpiry (uid wsUuid : String) (disposed : Bool) :
    (handleWorkspaceExpiry wsUuid disposed).Only (Foreign uid) :=
  ((foreign uid).handleWorkspaceExpiry ⟨trivial, trivial⟩).only

theorem foreign_key {other : String} (hother : other ≠ uid) (value ttl : Nat) :
    Foreign uid (.setTimer (presenceSession other sessionId) value ttl) :=
  fun _ huid hsession hsame => hother (presenceSession_inj huid hsession hsame).1

theorem foreign_expiry (t : Timeouts) {key : String} (disposed : Bool)
    (hkey : (staleSession key).map Prod.fst ≠ some uid) : (handleCacheExpiry t key disposed).Only (Foreign uid) := by
  refine Safe.only ((foreign uid).handleCacheExpiry t (fun hhead hnone => ?_) fun _ _ => ?_)
  · rw [staleSession, if_pos hhead, hnone] at hkey
    have hother : rendered (split key).tail[0]? ≠ uid := fun h => hkey (congrArg some h)
    exact (foreign uid).handleStaleSession t (fun _ _ => hother) (foreign_key hother) hother fun _ _ => ⟨trivial, trivial⟩
  · exact (foreign uid).handleStaleWorkspace t _ _ fun _ _ => ⟨trivial, trivial, trivial⟩

theorem activity_owner {op : Op} (h : activity op cmd = some (uid, sessionId)) : owner op = some uid := by
  cases op with
  | connect _ _ _ _ | ping _ _ _ _ =>
    cases cmd with
    | getPresence _ =>
      cases h
      rfl
    | _ => cases h
  | disconnect _ _ | expiry _ _ => cases cmd <;> cases h

theorem others_program (t : Timeouts) (op : Op) (hop : owner op ≠ some uid) :
    (program t op).Only fun cmd => ∀ scene, Rely uid scene (Watched.execute exec observer op cmd scene).2 := by
  have hforeign : (program t op).Only (Foreign uid) := by
    cases op with
    | connect other =>
      have hother : other ≠ uid := fun h => hop (congrArg some h)
      exact ((foreign uid).handleConnection t (fun _ _ => hother) (foreign_key hother) _ _).only
    | disconnect other =>
      have hother : other ≠ uid := fun h => hop (congrArg some h)
      exact ((foreign uid).handleDisconnect t (fun _ _ => hother) (foreign_key hother)).only
    | ping other =>
      have hother : other ≠ uid := fun h => hop (congrArg some h)
      exact ((foreign uid).handlePing t (fun _ _ => hother) (foreign_key hother) _ _).only
    | expiry key disposed => exact foreign_expiry t disposed hop
  exact hforeign.mono fun cmd hcmd => rely_of_foreign hcmd fun sessionId hactivity => hop (activity_owner hactivity)

end HideServer.Gateway.Lapse
