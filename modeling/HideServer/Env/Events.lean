import HideServer.Env.Moves

/-!
# Events of the file system

Events are collected in an array and processed when none has come for a while; a path from which too
many come is blocked. Processing goes through the array itself, and the array is replaced when `sync`
is done. Each step is what happens between two awaits.
-/

namespace HideServer.Env.Events

open Async Cache Site

variable {U : Type}

structure PathState where
  lastEvent : Nat
  count : Nat
  bursting : Bool
  cooling : Bool
  deriving DecidableEq, Repr

def PathState.new : PathState := ⟨0, 0, false, false⟩

def burstThreshold : Nat := 50

def burstInterval : Nat := 200

def PathState.counted (state : PathState) (event : FSEvent) : PathState :=
  { state with
    count := (if event.timestamp - state.lastEvent > burstInterval then 0 else state.count) + 1
    lastEvent := event.timestamp }

/-- The event is one too many. -/
def PathState.bursts (state : PathState) : Bool := !state.bursting && burstThreshold < state.count

inductive Throttle where
  | block
  | resume
  deriving DecidableEq, Repr

/-- The sessions of those who watch a path; without an entry for the path it throws. -/
def getWatchingUsersFromPath (uuid path : String) : Site.Io U (Option (List (String × String))) := do
  let cached : Option CachedWorkspace ← Site.ask .getWorkspace
  match cached with
  | none => return some []
  | some wCache =>
    match wCache.dirs.get? path with
    | none => return none
    | some uids => do
      let active ← sessions uuid uids
      return some active

inductive Sent where
  | signal (uid sessionId path : String) (action : Throttle)
  | batch (uid sessionId : String) (events : List FSEvent)
  deriving DecidableEq, Repr

def signals (path : String) (action : Throttle) (users : List (String × String)) : List Sent :=
  users.map fun user => .signal user.1 user.2 path action

inductive Phase (U : Type) where
  /-- `handleWatchEvent` awaits `signal`. -/
  | blocking (event : FSEvent) (users : Site.Io U (Option (List (String × String))))
  /-- `signal` of a path that has been quiet. -/
  | resuming (path : String) (users : Site.Io U (Option (List (String × String))))
  /-- `sync` awaits the cached workspace, with the array it was given. -/
  | asking (array : Nat)
  | answered (array : Nat) (cached : Option CachedWorkspace)
  /-- The loop of `sync` is at an event of the array. -/
  | examining (array i number : Nat) (event : FSEvent) (wCache : CachedWorkspace) (batches : Dict String (List FSEvent))
      (check : Site.Io U Verdict)
  /-- `sync` awaits the sessions of those who get a batch. -/
  | fetching (batches : Dict String (List FSEvent)) (users : Site.Io U (List (String × String)))
  | returning
  | stuck
  | ended

structure State (U : Type) where
  site : Site.State U
  paths : String → Option PathState
  /-- Every array of events there has been, with the numbers of the events. -/
  arrays : Nat → List (Nat × FSEvent)
  /-- The one that events are pushed to. -/
  batch : Nat
  armed : Bool
  tasks : List (Phase U)
  sent : List Sent
  accepted : List FSEvent
  /-- The numbers of those that `sync` filtered out. -/
  skipped : List Nat

def State.start (site : Site.State U) : State U :=
  ⟨site, fun _ => none, fun _ => [], 0, false, [], [], [], []⟩

namespace State

variable (s : State U)

def setPath (path : String) (state : PathState) : State U :=
  { s with paths := Function.update s.paths path (some state) }

def move (k : Nat) (phase : Phase U) : State U := { s with tasks := s.tasks.set k phase }

/-- An event is accepted. -/
def push (event : FSEvent) : State U :=
  { s with
    arrays := Function.update s.arrays s.batch (s.arrays s.batch ++ [(s.accepted.length, event)])
    accepted := s.accepted ++ [event]
    armed := true }

/-- The end of `handleWatchEvent`: events of a blocked path are dropped. -/
def settle (event : FSEvent) : State U :=
  match s.paths event.watchedPath with
  | none => s.push event
  | some state =>
    if state.bursting then s.setPath event.watchedPath { state with cooling := true } else s.push event

/-- The beginning of `handleWatchEvent`, and the rest of it unless there is something to wait for. -/
def handleWatchEvent (uuid : String) (event : FSEvent) : State U :=
  let state := ((s.paths event.watchedPath).getD .new).counted event
  if state.bursts then
    let s := s.setPath event.watchedPath { state with bursting := true }
    { s with tasks := s.tasks ++ [.blocking event (getWatchingUsersFromPath uuid event.watchedPath)] }
  else (s.setPath event.watchedPath state).settle event

/-- The cooldown timer of a path fires. -/
def cool (uuid path : String) : State U :=
  match s.paths path with
  | none => s
  | some state =>
    if state.cooling then
      let s := s.setPath path { state with bursting := false, cooling := false }
      { s with tasks := s.tasks ++ [.resuming path (getWatchingUsersFromPath uuid path)] }
    else s

/-- The users of a path are told. -/
def signal (path : String) (action : Throttle) (users : List (String × String)) : State U :=
  { s with sent := s.sent ++ signals path action users }

/-- The debounce timer fires. -/
def fire : State U :=
  if s.armed then { s with armed := false, tasks := s.tasks ++ [.asking s.batch] } else s

/-- The array is replaced. -/
def reset : State U := { s with batch := s.batch + 1, arrays := Function.update s.arrays (s.batch + 1) [] }

/-- Every user gets what was collected for them. -/
def sendBatches (batches : Dict String (List FSEvent)) (users : List (String × String)) : State U :=
  { s with sent := s.sent ++ users.map fun user => .batch user.1 user.2 ((batches.get? user.1).getD []) }

end State

/-- The loop of `sync` from an event of the array on, to the next await. -/
def scan (uuid : String) (me : InstanceId) (wCache : CachedWorkspace) (array : Nat) :
    List (Nat × FSEvent) → Nat → Dict String (List FSEvent) → Phase U
  | [], _, batches => .fetching batches (sessions uuid batches.keys)
  | (number, event) :: rest, i, batches =>
    if event.writes then .examining array i number event wCache batches (examine uuid me wCache event)
    else scan uuid me wCache array rest (i + 1) (enlist wCache event batches)

/-- A command of a handler. -/
def State.perform (s : State U) (c : Setting U) (k : Nat) (command : Command U)
    (next : command.Answer → Phase U) : State U :=
  { s with site := (Site.exec c command s.site).2, tasks := s.tasks.set k (next (Site.exec c command s.site).1) }

/-- A handler goes on. -/
def State.resume (s : State U) (c : Setting U) (me : InstanceId) (k : Nat) : Phase U → State U
  | .blocking event (.await command next) => s.perform c k command fun answer => .blocking event (next answer)
  -- `signal` has thrown, and `handleWatchEvent` ends here
  | .blocking _ (.ret none) => s.move k .ended
  | .blocking event (.ret (some users)) => ((s.signal event.watchedPath .block users).settle event).move k .ended
  | .resuming path (.await command next) => s.perform c k command fun answer => .resuming path (next answer)
  | .resuming _ (.ret none) => s.move k .ended
  | .resuming path (.ret (some users)) => (s.signal path .resume users).move k .ended
  | .asking array => s.move k (.answered array (s.site.world.workspace c.uuid))
  | .answered _ none => s.move k .returning
  | .answered array (some wCache) => s.move k (scan c.uuid me wCache array (s.arrays array) 0 .empty)
  | .examining array i number event wCache batches (.await command next) =>
    s.perform c k command fun answer => .examining array i number event wCache batches (next answer)
  | .examining _ _ _ _ _ _ (.ret .stop) => s.move k .stuck
  | .examining array i number _ wCache batches (.ret .skip) =>
    { s.move k (scan c.uuid me wCache array ((s.arrays array).drop (i + 1)) (i + 1) batches) with
      skipped := s.skipped ++ [number] }
  | .examining array i _ event wCache batches (.ret .pass) =>
    s.move k (scan c.uuid me wCache array ((s.arrays array).drop (i + 1)) (i + 1) (enlist wCache event batches))
  | .fetching batches (.await command next) => s.perform c k command fun answer => .fetching batches (next answer)
  | .fetching batches (.ret users) => (s.sendBatches batches users).move k .returning
  | .returning => s.reset.move k .ended
  | .stuck => s
  | .ended => s

inductive Label (U : Type) where
  | watch (event : FSEvent)
  | fire
  | cool (path : String)
  | resume (k : Nat)
  | outside (a : Outside U)

def step (c : Setting U) (me : InstanceId) (s : State U) : Label U → State U
  | .watch event => s.handleWatchEvent c.uuid event
  | .fire => s.fire
  | .cool path => s.cool c.uuid path
  | .resume k => (s.tasks[k]?).elim s (s.resume c me k)
  | .outside a => { s with site := Site.outside s.site a }

/-- The event as it is passed on: its path is the one that the watchers of the root are listed under. -/
def rooted (event : FSEvent) : FSEvent :=
  if event.watchedPath = "/workspace" then { event with watchedPath := "/workspace/" } else event

/-- Who watches a path. -/
def watchers (dirs : Dict String (List String)) (path : String) : List String := (dirs.get? path).getD []

/-- Who is told of an event. -/
def audience (dirs : Dict String (List String)) (event : FSEvent) : List String :=
  watchers dirs (rooted event).watchedPath

def gathered (batches : Dict String (List FSEvent)) (uid : String) : List FSEvent := (batches.get? uid).getD []

section

variable (event : FSEvent) (uid : String)

theorem gathered_set (batches : Dict String (List FSEvent)) (other : String) (events : List FSEvent) :
    gathered (batches.set other events) uid = if uid = other then events else gathered batches uid := by
  unfold gathered
  rw [Dict.get?_set]
  split_ifs <;> rfl

private theorem gathered_foldl (uids : List String) (batches : Dict String (List FSEvent)) :
    gathered (uids.foldl (fun batches other => batches.set other (gathered batches other ++ [event])) batches) uid =
      gathered batches uid ++ List.replicate (uids.count uid) event := by
  induction uids generalizing batches with
  | nil => simp
  | cons other uids ih =>
    rw [List.foldl_cons, ih, gathered_set, List.count_cons]
    by_cases hother : uid = other
    · simp [hother, List.replicate_succ]
    · simp [hother, Ne.symm hother]

private theorem mem_keys_foldl (uids : List String) (batches : Dict String (List FSEvent)) :
    uid ∈ (uids.foldl (fun batches other => batches.set other (gathered batches other ++ [event])) batches).keys ↔
      uid ∈ batches.keys ∨ uid ∈ uids := by
  induction uids generalizing batches with
  | nil => simp
  | cons other uids ih =>
    rw [List.foldl_cons, ih, Dict.mem_keys, Dict.get?_set, Dict.mem_keys, List.mem_cons]
    by_cases hother : uid = other <;> simp [hother]

theorem gathered_enlist (wCache : CachedWorkspace) (batches : Dict String (List FSEvent)) :
    gathered (enlist wCache event batches) uid =
      gathered batches uid ++ List.replicate ((audience wCache.dirs event).count uid) (rooted event) :=
  gathered_foldl (rooted event) uid (audience wCache.dirs event) batches

theorem mem_keys_enlist (wCache : CachedWorkspace) (batches : Dict String (List FSEvent)) :
    uid ∈ (enlist wCache event batches).keys ↔ uid ∈ batches.keys ∨ uid ∈ audience wCache.dirs event :=
  mem_keys_foldl (rooted event) uid (audience wCache.dirs event) batches

end

end HideServer.Env.Events
