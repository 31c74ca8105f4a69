import HideServer.Data.Runs
import HideServer.Env.Signals

/-!
# Bursts of events

The counter of a path is the length of the run of events that come at most an interval after one
another; a run that gets too long blocks the path until it has been quiet. A `Line` is one path with
a log, and `line_run` connects it with the machine of `Events.lean`.
-/

namespace HideServer.Env.Events

open Async Async.Prog Site Trace List State PathState
open Cache hiding exec

variable {U : Type}

/-- The time after which a blocked path is resumed. -/
def cooldown : Nat := 500

inductive Entry where
  | arrived (event : FSEvent)
  | signal (action : Throttle)
  | batched (event : FSEvent)
  deriving DecidableEq, Repr

namespace Entry

def timestamp? : Entry → Option Nat
  | .arrived event => some event.timestamp
  | .signal _ => none
  | .batched _ => none

def action? : Entry → Option Throttle
  | .signal action => some action
  | .arrived _ => none
  | .batched _ => none

def batched? : Entry → Option FSEvent
  | .batched event => some event
  | .arrived _ => none
  | .signal _ => none

end Entry

structure Line where
  state : PathState
  due : Nat
  now : Nat
  log : List Entry
  deriving DecidableEq, Repr

namespace Line

def start : Line := ⟨.new, 0, 0, []⟩

def handleWatchEvent (line : Line) (now : Nat) (event : FSEvent) : Line :=
  let state := line.state.counted event
  let blocks := state.bursts
  let state := if blocks then { state with bursting := true } else state
  let log := line.log ++ [.arrived event] ++ if blocks then [.signal .block] else []
  if state.bursting then ⟨{ state with cooling := true }, now + cooldown, now, log⟩
  else ⟨state, line.due, now, log ++ [.batched event]⟩

/-- The cooldown timer fires. -/
def cool (line : Line) (now : Nat) : Line :=
  if line.state.cooling then
    { line with state := { line.state with bursting := false, cooling := false }, now := now,
                log := line.log ++ [.signal .resume] }
  else { line with now := now }

def timestamps (line : Line) : List Nat := line.log.filterMap Entry.timestamp?

def signals (line : Line) : List Throttle := line.log.filterMap Entry.action?

def batch (line : Line) : List FSEvent := line.log.filterMap Entry.batched?

end Line

inductive Input where
  | watch (now : Nat) (event : FSEvent)
  | cool (now : Nat)
  deriving DecidableEq, Repr

def Line.step (line : Line) : Input → Line
  | .watch now event => line.handleWatchEvent now event
  | .cool now => line.cool now

/-- How many of the events so far came, up to the last one, each at most an interval after the one before. -/
def runLength (timestamps : List Nat) : Nat :=
  Runs.longest (fun earlier later => later ≤ earlier + burstInterval) timestamps

/-- Blocks and resumes take turns, beginning with a block. -/
def Alternating (signals : List Throttle) : Prop :=
  signals.IsChain (· ≠ ·) ∧ ∀ first ∈ signals.head?, first = .block

/-- What a step adds to the log. -/
def Line.Logs (line : Line) : Input → Prop
  | .watch now event =>
    (line.handleWatchEvent now event).log = line.log ++ [.arrived event] ++
        (if line.state.bursting = false ∧ burstThreshold < runLength (line.timestamps ++ [event.timestamp]) then
          [.signal .block] else []) ++
        if (line.handleWatchEvent now event).state.bursting = false then [.batched event] else []
  | .cool now => (line.cool now).log = line.log ++ if line.state.cooling then [.signal .resume] else []

/-- Timestamps are the times of arrival, and the timer does not fire before it is due. -/
def Line.OnTime (line : Line) : Input → Prop
  | .watch now event => line.now ≤ now ∧ event.timestamp = now
  | .cool now => line.now ≤ now ∧ (line.state.cooling = true → line.due ≤ now)

instance (line : Line) : DecidablePred line.OnTime
  | .watch .. => inferInstanceAs (Decidable (_ ∧ _))
  | .cool _ => inferInstanceAs (Decidable (_ ∧ (_ → _)))

def Line.BatchesFirst (line : Line) : Input → Prop
  | .watch now event =>
    line.log.getLast? = some (.signal .resume) →
      (line.handleWatchEvent now event).log = line.log ++ [.arrived event, .batched event]
  | .cool _ => True

theorem runLength_concat (timestamps : List Nat) (timestamp : Nat) :
    runLength (timestamps ++ [timestamp]) =
      (if timestamp - timestamps.getLast?.getD 0 > burstInterval then 0 else runLength timestamps) + 1 := by
  unfold runLength
  rw [Runs.longest_concat]
  cases hlast : timestamps.getLast? with
  | none =>
    -- the first event of all starts a run, whatever its timestamp
    have hnil := getLast?_eq_none_iff.mp hlast
    subst hnil
    simp [Runs.longest]
  | some last =>
    have hgap : timestamp - last > burstInterval ↔ ¬timestamp ≤ last + burstInterval := by omega
    simp only [Option.mem_some_iff, forall_eq', Option.getD_some, hgap]
    split_ifs <;> simp_all

namespace Line

variable {line : Line} {now : Nat} {event : FSEvent}

/-- The counter is the length of the run, and the signals tell the state. -/
structure Follows (line : Line) : Prop where
  count : line.state.count = runLength line.timestamps
  last : line.state.lastEvent = line.timestamps.getLast?.getD 0
  cooling : line.state.cooling = line.state.bursting
  alternating : Alternating line.signals
  bursting : line.state.bursting = true ↔ line.signals.getLast? = some .block

theorem follows_start : Follows start := by
  refine ⟨rfl, rfl, rfl, ⟨.nil, ?_⟩, ?_⟩
  · simp [signals, start]
  · simp [signals, start, new]

theorem handleWatchEvent_eq (line : Line) (now : Nat) (event : FSEvent) :
    line.handleWatchEvent now event =
      if line.state.bursting then
        ⟨{ line.state.counted event with cooling := true }, now + cooldown, now, line.log ++ [.arrived event]⟩
      else if burstThreshold < (line.state.counted event).count then
        ⟨{ line.state.counted event with bursting := true, cooling := true }, now + cooldown, now,
          line.log ++ [.arrived event, .signal .block]⟩
      else ⟨line.state.counted event, line.due, now, line.log ++ [.arrived event, .batched event]⟩ := by
  have hbursting : (line.state.counted event).bursting = line.state.bursting := rfl
  unfold handleWatchEvent bursts
  cases hblocked : line.state.bursting with
  | true => simp [hbursting, hblocked]
  | false =>
    by_cases hmany : burstThreshold < (line.state.counted event).count
    · simp [hmany, hbursting, hblocked]
    · simp [hmany, hbursting, hblocked]

theorem Follows.counted (h : line.Follows) (event : FSEvent) :
    (line.state.counted event).count = runLength (line.timestamps ++ [event.timestamp]) := by
  rw [runLength_concat, ← h.last, ← h.count]
  rfl

theorem alternating_concat {signals : List Throttle} {action : Throttle} (h : Alternating signals)
    (hother : signals.getLast? ≠ some action) (hfirst : signals = [] → action = .block) :
    Alternating (signals ++ [action]) := by
  constructor
  · refine isChain_append.mpr ⟨h.1, .singleton _, fun last hlast next hnext => ?_⟩
    simp only [head?_cons, Option.mem_some_iff] at hnext
    rintro rfl
    exact hother (hnext ▸ hlast)
  · intro first hmem
    cases signals with
    | nil =>
      simp only [nil_append, head?_cons, Option.mem_some_iff] at hmem
      rw [← hmem]
      exact hfirst rfl
    | cons head tail => exact h.2 first hmem

section

variable (h : line.Follows)

include h

theorem Follows.quiet {entries : List Entry} {state : PathState} {due : Nat}
    (htimes : entries.filterMap Entry.timestamp? = [event.timestamp]) (hsignals : entries.filterMap Entry.action? = [])
    (hcount : state.count = (line.state.counted event).count) (hlast : state.lastEvent = event.timestamp)
    (hcooling : state.cooling = state.bursting) (hbursting : state.bursting = line.state.bursting) :
    Follows ⟨state, due, now, line.log ++ entries⟩ := by
  have htimestamps : timestamps ⟨state, due, now, line.log ++ entries⟩ = line.timestamps ++ [event.timestamp] := by
    simp [timestamps, htimes]
  have hsame : signals ⟨state, due, now, line.log ++ entries⟩ = line.signals := by
    simp [signals, hsignals]
  refine ⟨?_, ?_, hcooling, ?_, ?_⟩
  · rw [htimestamps, hcount]
    exact h.counted event
  · simp [htimestamps, hlast]
  · rw [hsame]
    exact h.alternating
  · rw [hsame, hbursting]
    exact h.bursting

theorem Follows.handleWatchEvent (now : Nat) (event : FSEvent) : (line.handleWatchEvent now event).Follows := by
  rw [handleWatchEvent_eq]
  split_ifs with hblocked hmany
  · exact h.quiet rfl rfl rfl rfl hblocked.symm rfl
  · have hopen : line.signals.getLast? ≠ some .block := mt h.bursting.mpr hblocked
    have hblock : signals ⟨{ line.state.counted event with bursting := true, cooling := true }, now + cooldown, now,
        line.log ++ [.arrived event, .signal .block]⟩ = line.signals ++ [.block] := by
      simp [signals, filterMap_cons, Entry.action?]
    refine ⟨?_, ?_, rfl, ?_, ?_⟩
    · simpa [timestamps, filterMap_cons, Entry.timestamp?] using h.counted event
    · simp [timestamps, filterMap_cons, Entry.timestamp?, PathState.counted]
    · rw [hblock]
      exact alternating_concat h.alternating hopen fun _ => rfl
    · rw [hblock]
      simp
  · exact h.quiet rfl rfl rfl rfl h.cooling rfl

theorem Follows.cool (now : Nat) : (line.cool now).Follows := by
  unfold Line.cool
  split_ifs with hcooling
  · have hblocked : line.signals.getLast? = some .block := h.bursting.mp (h.cooling ▸ hcooling)
    have hresume : (line.log ++ [Entry.signal .resume]).filterMap Entry.action? = line.signals ++ [.resume] := by
      simp [signals, Entry.action?]
    refine ⟨?_, ?_, rfl, ?_, ?_⟩
    · simpa [timestamps, filterMap_cons, Entry.timestamp?] using h.count
    · simpa [timestamps, filterMap_cons, Entry.timestamp?] using h.last
    · rw [signals, hresume]
      refine alternating_concat h.alternating (by simp [hblocked]) fun hnil => ?_
      simp [hnil] at hblocked
    · simp only [signals, hresume]
      simp
  · exact ⟨h.count, h.last, h.cooling, h.alternating, h.bursting⟩

theorem follows_step (input : Input) : (line.step input).Follows := by
  cases input with
  | watch now event => exact h.handleWatchEvent now event
  | cool now => exact h.cool now

theorem Follows.logs (input : Input) : line.Logs input := by
  cases input with
  | watch now event =>
    simp only [Logs]
    rw [← h.counted event, handleWatchEvent_eq]
    cases hblocked : line.state.bursting with
    | true => simp [PathState.counted, hblocked]
    | false =>
      have hbursting : (line.state.counted event).bursting = false := hblocked
      by_cases hmany : burstThreshold < (line.state.counted event).count
      · simp [hmany]
      · simp [hmany, hbursting]
  | cool now =>
    simp only [Logs, Line.cool]
    split_ifs <;> simp

end

/-- The timer is set a cooldown after the last event. -/
structure Timely (line : Line) : Prop where
  armed : line.state.cooling = true → line.state.lastEvent + cooldown ≤ line.due
  resumed : line.log.getLast? = some (.signal .resume) → line.state.lastEvent + cooldown ≤ line.now

theorem timely_step (h : line.Follows) (htimely : line.Timely) {input : Input} (honTime : line.OnTime input) :
    (line.step input).Timely := by
  cases input with
  | watch now event =>
    obtain ⟨-, hnow⟩ := honTime
    rw [step, handleWatchEvent_eq]
    split_ifs with hblocked hmany
    · exact ⟨fun _ => by simp [counted, hnow], by simp⟩
    · exact ⟨fun _ => by simp [counted, hnow], by simp⟩
    · refine ⟨fun hcooling => ?_, by simp⟩
      exact absurd (h.cooling ▸ hcooling) hblocked
  | cool now =>
    obtain ⟨hlater, hdue⟩ := honTime
    rw [step, Line.cool]
    split_ifs with hcooling
    · refine ⟨by simp, fun _ => ?_⟩
      exact (htimely.armed hcooling).trans (hdue hcooling)
    · refine ⟨htimely.armed, fun hresumed => ?_⟩
      exact (htimely.resumed hresumed).trans hlater

theorem batchesFirst (h : line.Follows) (htimely : line.Timely) {input : Input} (honTime : line.OnTime input) :
    line.BatchesFirst input := by
  cases input with
  | cool now => trivial
  | watch now event =>
    intro hresumed
    obtain ⟨hlater, hnow⟩ := honTime
    have hopen : ¬line.state.bursting = true := by
      rw [h.bursting, signals, getLast?_filterMap]
      obtain ⟨before, hbefore⟩ := getLast?_eq_some_iff.mp hresumed
      simp [hbefore, findSome?_cons, Entry.action?]
    have hcount : (line.state.counted event).count = 1 := by
      have hrested := htimely.resumed hresumed
      have hgap : event.timestamp - line.state.lastEvent > burstInterval := by
        unfold cooldown at hrested
        unfold burstInterval
        omega
      simp [counted, hgap]
    have hfew : ¬burstThreshold < (line.state.counted event).count := by
      rw [hcount]
      decide
    rw [handleWatchEvent_eq, if_neg hopen, if_neg hfew]

end Line

/-- Over any events with any timestamps and any firings of the timer: the counter is the length of the last run; the
path is blocked at exactly the events with which a run gets too long while it is not blocked; an event is batched if
the path is not blocked after it; and the signals take turns. If timestamps are times of arrival, the first event
after a resumption is batched. -/
theorem bursts_follow_runs (inputs : List Input) :
    Always Line.step (fun line => line.state.count = runLength line.timestamps ∧ Alternating line.signals)
      .start inputs ∧
    Along Line.step Line.Logs .start inputs ∧
    (Along Line.step Line.OnTime .start inputs → Along Line.step Line.BatchesFirst .start inputs) := by
  refine ⟨fun done _ => ?_, ?_, fun honTime => ?_⟩
  · have hfollows := run_preserves (fun line input (h : line.Follows) => Line.follows_step h input)
      Line.follows_start done
    exact ⟨hfollows.count, hfollows.alternating⟩
  · exact along_of_invariant (fun line input h _ => Line.follows_step h input)
      (fun line input h _ => h.logs input) Line.follows_start (along_of_forall fun _ _ => trivial)
  · have hstart : Line.Timely .start := ⟨by simp [Line.start, new], by simp [Line.start]⟩
    have hstep : ∀ (line : Line) (input : Input), line.Follows ∧ line.Timely → line.OnTime input →
        (line.step input).Follows ∧ (line.step input).Timely :=
      fun line input h honTime => ⟨Line.follows_step h.1 input, Line.timely_step h.1 h.2 honTime⟩
    exact along_of_invariant hstep (fun line input h honTime => Line.batchesFirst h.1 h.2 honTime)
      ⟨Line.follows_start, hstart⟩ honTime

def savedAt (now : Nat) : Input :=
  .watch now ⟨"/workspace/src", "/workspace/src/notes", none, some 7, .write, now, .file⟩

def burst : List Input := replicate 51 (savedAt 1000) ++ [.cool 1500, savedAt 1500]

theorem burst_follows_runs :
    (Along Line.step Line.OnTime .start burst ∧ (run Line.step .start burst).signals = [.block, .resume]) ∧
      Along Line.step Line.BatchesFirst .start burst :=
  ⟨by decide +kernel, (bursts_follow_runs burst).2.2 (by decide +kernel)⟩

/-- The path, as the machine has it, is as the line has it, and so is what has been batched and sent. -/
structure Shows (path : String) (users : List (String × String)) (site : Site.State U) (s : State U) (line : Line) :
    Prop where
  state : (s.paths path).getD .new = line.state
  accepted : s.accepted = line.batch
  sent : s.sent = line.signals.flatMap fun action => signals path action users
  site : s.site = site

def Input.label (path : String) : Input → Label U
  | .watch _ event => .watch event
  | .cool _ => .cool path

def Input.Of (path : String) : Input → Prop
  | .watch _ event => event.watchedPath = path
  | .cool _ => True

/-- The step starts something. -/
def Label.begins : Label U → Bool
  | .resume _ => false
  | _ => true

section

variable {c : Setting U} {me : InstanceId} {path : String} {users : List (String × String)} {site : Site.State U}
  {s : State U} {line : Line}

theorem run_getWatchingUsersFromPath (site : Site.State U) :
    (run (exec c) (getWatchingUsersFromPath c.uuid path) site).2 = site := by
  cases hcached : site.world.workspace c.uuid with
  | none => simp [getWatchingUsersFromPath, exec, hcached]
  | some wCache =>
    cases hdirs : wCache.dirs.get? path with
    | none => simp [getWatchingUsersFromPath, exec, hcached, hdirs]
    | some uids => simp [getWatchingUsersFromPath, exec, hcached, hdirs, run_sessions]

theorem run_lookup {phase : Site.Io U (Option (List (String × String))) → Phase U} {k : Nat}
    (hphase : ∀ (s : State U) command next,
      s.resume c me k (phase (.await command next)) = s.perform c k command fun answer => phase (next answer))
    (p : Site.Io U (Option (List (String × String)))) (s : State U) (htask : s.tasks[k]? = some (phase p)) :
    ∃ n, run (step c me) s (replicate n (.resume k)) =
      { s with
        site := (run (exec c) p s.site).2
        tasks := s.tasks.set k (phase (.ret (run (exec c) p s.site).1)) } := by
  have hbound : k < s.tasks.length := (List.getElem?_eq_some_iff.mp htask).1
  induction p generalizing s with
  | ret users =>
    refine ⟨0, ?_⟩
    obtain ⟨hlt, hget⟩ := List.getElem?_eq_some_iff.mp htask
    simp [← hget]
  | await command next ih =>
    have hstep : step c me s (.resume k) = s.perform c k command fun answer => phase (next answer) := by
      simp only [step, htask, Option.elim_some, hphase]
    obtain ⟨n, hn⟩ := ih (exec c command s.site).1 (step c me s (.resume k))
      (by rw [hstep]; exact getElem?_set_self hbound) (by rw [hstep]; simpa [State.perform] using hbound)
    refine ⟨n + 1, ?_⟩
    rw [replicate_succ, run_cons, hn, hstep]
    simp [State.perform]

theorem run_lookup_found (me : InstanceId) (phase : Site.Io U (Option (List (String × String))) → Phase U)
    (hphase : ∀ (s : State U) k command next,
      s.resume c me k (phase (.await command next)) = s.perform c k command fun answer => phase (next answer))
    (hfound : (run (exec c) (getWatchingUsersFromPath c.uuid path) s.site).1 = some users) (tasks : List (Phase U)) :
    ∃ n, run (step c me) { s with tasks := tasks ++ [phase (getWatchingUsersFromPath c.uuid path)] }
        (replicate n (.resume tasks.length)) =
      { s with tasks := tasks ++ [phase (.ret (some users))] } := by
  obtain ⟨n, hn⟩ := run_lookup (fun s => hphase s tasks.length) (getWatchingUsersFromPath c.uuid path)
    { s with tasks := tasks ++ [phase (getWatchingUsersFromPath c.uuid path)] } (by simp)
  refine ⟨n, hn.trans ?_⟩
  simp only [run_getWatchingUsersFromPath, hfound]
  simp

theorem settle_of_state {event : FSEvent} {state : PathState} (hstate : s.paths event.watchedPath = some state) :
    s.settle event =
      if state.bursting then s.setPath event.watchedPath { state with cooling := true } else s.push event := by
  simp only [settle, hstate]

theorem shows_watch (h : Shows path users site s line)
    (hfound : (run (exec c) (getWatchingUsersFromPath c.uuid path) site).1 = some users) (now : Nat)
    {event : FSEvent} (hpath : event.watchedPath = path) :
    ∃ n, Shows path users site (run (step c me) s (.watch event :: replicate n (.resume s.tasks.length)))
      (line.handleWatchEvent now event) := by
  subst hpath
  have hbursts : (line.state.counted event).bursts =
      (!line.state.bursting && burstThreshold < (line.state.counted event).count) := rfl
  have hbursting : (line.state.counted event).bursting = line.state.bursting := rfl
  have hsettle : (s.setPath event.watchedPath (line.state.counted event)).settle event = _ :=
    settle_of_state (Function.update_self ..)
  rw [Line.handleWatchEvent_eq]
  cases hblocked : line.state.bursting with
  | true =>
    refine ⟨0, ?_⟩
    simp only [run_cons, replicate_zero, run_nil, step, handleWatchEvent, h.state, hbursts,
      hsettle, hbursting, hblocked]
    refine ⟨by simp [setPath], ?_, ?_, h.site⟩
    · simpa [setPath, Line.batch, filterMap_cons, Entry.batched?] using h.accepted
    · simpa [setPath, Line.signals, filterMap_cons, Entry.action?] using h.sent
  | false =>
    by_cases hmany : burstThreshold < (line.state.counted event).count
    · -- the handler waits for the users, signals, and sets the timer
      obtain ⟨n, hn⟩ := run_lookup_found (s := s.setPath event.watchedPath
        { line.state.counted event with bursting := true }) me (.blocking event) (fun _ _ _ _ => rfl)
        (h.site.symm ▸ hfound) s.tasks
      have hwatch : step c me s (.watch event) = { s.setPath event.watchedPath
          { line.state.counted event with bursting := true } with
          tasks := s.tasks ++ [.blocking event (getWatchingUsersFromPath c.uuid event.watchedPath)] } := by
        simp [step, handleWatchEvent, h.state, hbursts, hblocked, hmany, setPath]
      refine ⟨n + 1, ?_⟩
      rw [run_cons, hwatch, replicate_succ', run_append, hn]
      simp only [run_cons, run_nil, step, getElem?_concat_length, Option.elim_some, resume]
      rw [settle_of_state (Function.update_self ..), if_pos rfl, if_neg Bool.false_ne_true, if_pos hmany]
      refine ⟨by simp [setPath, move], ?_, ?_, h.site⟩
      · simpa [setPath, move, signal, Line.batch, filterMap_cons, Entry.batched?] using h.accepted
      · simpa [setPath, move, signal, Line.signals, filterMap_cons, Entry.action?] using h.sent
    · refine ⟨0, ?_⟩
      simp only [run_cons, replicate_zero, run_nil, step, handleWatchEvent, h.state, hbursts,
        hsettle, hbursting, hblocked, hmany]
      refine ⟨by simp [setPath, push], ?_, ?_, h.site⟩
      · simpa [setPath, push, Line.batch, filterMap_cons, Entry.batched?] using h.accepted
      · simpa [setPath, push, Line.signals, filterMap_cons, Entry.action?] using h.sent

theorem shows_cool (h : Shows path users site s line)
    (hfound : (run (exec c) (getWatchingUsersFromPath c.uuid path) site).1 = some users) (now : Nat) :
    ∃ n, Shows path users site (run (step c me) s (.cool path :: replicate n (.resume s.tasks.length)))
      (line.cool now) := by
  by_cases hcooling : line.state.cooling = true
  · have hstate : s.paths path = some line.state := by
      cases hpath : s.paths path with
      | some state => simpa [hpath] using h.state
      | none =>
        have hnew := h.state
        rw [hpath] at hnew
        simp [← hnew, new] at hcooling
    obtain ⟨n, hn⟩ := run_lookup_found (s := s.setPath path { line.state with bursting := false, cooling := false })
      me (.resuming path) (fun _ _ _ _ => rfl) (h.site.symm ▸ hfound) s.tasks
    have hcool : step c me s (.cool path) =
        { s.setPath path { line.state with bursting := false, cooling := false } with
          tasks := s.tasks ++ [.resuming path (getWatchingUsersFromPath c.uuid path)] } := by
      simp [step, cool, hstate, hcooling, setPath]
    refine ⟨n + 1, ?_⟩
    rw [run_cons, hcool, replicate_succ', run_append, hn]
    simp only [run_cons, run_nil, step, getElem?_concat_length, Option.elim_some, resume,
      Line.cool, hcooling, if_true]
    refine ⟨by simp [setPath, signal, move], ?_, ?_, h.site⟩
    · simpa [setPath, move, signal, Line.batch, filterMap_cons, Entry.batched?] using h.accepted
    · simpa [setPath, move, signal, Line.signals, filterMap_cons, Entry.action?] using h.sent
  · refine ⟨0, ?_⟩
    have hcool : step c me s (.cool path) = s := by
      simp only [step, cool]
      split
      · rfl
      · rename_i state hstate
        have hsame : state = line.state := by simpa [hstate] using h.state
        rw [hsame, if_neg hcooling]
    simp only [run_cons, replicate_zero, run_nil, hcool, Line.cool, hcooling]
    exact ⟨h.state, h.accepted, h.sent, h.site⟩

/-- An input of the line is a run of a handler of the machine. -/
theorem shows_step (me : InstanceId) (h : Shows path users site s line)
    (hfound : (run (exec c) (getWatchingUsersFromPath c.uuid path) site).1 = some users) {input : Input}
    (hinput : input.Of path) :
    ∃ n, Shows path users site
      (run (step c me) s (input.label path :: replicate n (.resume s.tasks.length))) (line.step input) := by
  cases input with
  | watch now event => exact shows_watch h hfound now hinput
  | cool now => exact shows_cool h hfound now

/-- For every run of a line there is one of the machine, in which the same handlers start in the same order and each
goes on to its end before the next; it batches the same events and sends the same signals. -/
theorem line_run (c : Setting U) (me : InstanceId) (site : Site.State U)
    (hfound : (run (exec c) (getWatchingUsersFromPath c.uuid path) site).1 = some users) (inputs : List Input)
    (hinputs : ∀ input ∈ inputs, input.Of path) :
    ∃ labels : List (Label U), labels.filter Label.begins = inputs.map (Input.label path) ∧
      Shows path users site (run (step c me) (.start site) labels) (run Line.step .start inputs) := by
  have hstart : Shows path users site (start site) Line.start := ⟨rfl, rfl, rfl, rfl⟩
  generalize start site = s at hstart ⊢
  generalize Line.start = line at hstart ⊢
  induction inputs generalizing s line with
  | nil => exact ⟨[], rfl, hstart⟩
  | cons input inputs ih =>
    obtain ⟨hinput, hinputs⟩ := forall_mem_cons.mp hinputs
    obtain ⟨n, hn⟩ := shows_step me hstart hfound hinput
    obtain ⟨labels, hlabels, hshows⟩ := ih hinputs _ _ hn
    refine ⟨(input.label path :: replicate n (.resume s.tasks.length)) ++ labels, ?_, ?_⟩
    · have hbegins : (input.label path : Label U).begins = true := by cases input <;> rfl
      have hgoesOn : (replicate n (Label.resume s.tasks.length : Label U)).filter Label.begins = [] := by
        rw [filter_replicate_of_neg Bool.false_ne_true]
      rw [filter_append, filter_cons_of_pos hbegins, hgoesOn, hlabels]
      rfl
    · rw [run_append]
      exact hshows

def srcWatched : Site.State Nat :=
  let workspace : CachedWorkspace := ⟨.active, "e1", Dict.empty.set "/workspace/src" ["alice"], .empty, .empty⟩
  .start { attended .empty with workspace := fun _ => some workspace } fun _ => []

theorem line_run_srcWatched : ∃ labels : List (Label Nat),
    labels.filter Label.begins = burst.map (Input.label "/workspace/src") ∧
      Shows "/workspace/src" [("alice", "s1")] srcWatched (run (step w1 e1) (.start srcWatched) labels)
        (run Line.step .start burst) :=
  line_run w1 e1 srcWatched rfl burst (by simp [burst, savedAt, Input.Of])

end

end HideServer.Env.Events
