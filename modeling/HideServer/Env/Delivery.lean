import HideServer.Env.Signals

/-!
# The events that users get

An event that is pushed while the batch is being sent is lost, and two runs of `_process` that overlap
send the same array. Otherwise every user gets the events of the paths they watch once and in order.
-/

namespace HideServer.Env.Events

open Async Site Trace List State
open Cache hiding exec

variable {U : Type}

variable {i : Nat} {entry : Nat × FSEvent}

/-! ### What users get and what they should get -/

def delivered (sent : List Sent) (uid : String) : List FSEvent :=
  sent.flatMap fun
    | .signal .. => []
    | .batch other _ events => if other = uid then events else []

/-- What the array comes to for a user. -/
def passed (dirs : Dict String (List String)) (skipped : List Nat) (events : List (Nat × FSEvent)) (uid : String) :
    List FSEvent :=
  (events.filter fun entry => entry.1 ∉ skipped ∧ uid ∈ audience dirs entry.2).map fun entry => rooted entry.2

def numbered (events : List FSEvent) : List (Nat × FSEvent) := events.zipIdx.map Prod.swap

/-- What a user should have been sent. -/
def expected (dirs : Dict String (List String)) (s : State U) (uid : String) : List FSEvent :=
  passed dirs s.skipped (numbered s.accepted) uid

def Phase.runs : Phase U → Bool
  | .asking _ | .answered _ _ | .examining .. | .fetching _ _ | .returning => true
  | _ => false

/-- The loop is over. -/
def Phase.past : Phase U → Bool
  | .fetching _ _ | .returning => true
  | _ => false

/-- No run is under way. -/
def Idle (s : State U) : Prop := ∀ phase ∈ s.tasks, phase.runs = false
  deriving Decidable

/-- Each user has got no event twice and none out of order, and all of them once there is nothing left to do. -/
def Delivered (dirs : Dict String (List String)) (s : State U) : Prop :=
  ∀ uid, delivered s.sent uid <+: expected dirs s uid ∧
    (s.armed = false → Idle s → delivered s.sent uid = expected dirs s uid)

/-! ### The watchers -/

structure Steady (c : Setting U) (dirs : Dict String (List String)) (bound : String → String) (world : World) : Prop where
  cached : ∃ wCache, world.workspace c.uuid = some wCache ∧ wCache.dirs = dirs
  distinct : ∀ path, (watchers dirs path).Nodup
  session : ∀ path, ∀ uid ∈ watchers dirs path, sessionId c.uuid (world.presence uid) = some (bound uid)

variable (c : Setting U) (dirs : Dict String (List String)) (s : State U)

/-- Changes from outside leave the watchers alone. -/
def Keeps (bound : String → String) : Label U → Prop
  | .outside (.world world) => Steady c dirs bound world
  | _ => True

/-! ### The condition -/

/-- Events of the path are held back. -/
def State.blocked (path : String) : Bool := (s.paths path).any (·.bursting)

/-- No event is pushed between the loop and the reset. -/
def State.Waits (path : String) : Prop := (∃ phase ∈ s.tasks, phase.past = true) → s.blocked path = true

/-- No two runs overlap, no event is pushed behind the loop of one, and an instance that is asked for a document
has it. -/
def Calm : Label U → Prop
  | .watch event => s.Waits event.watchedPath
  | .fire => s.armed = true → Idle s
  | .resume k =>
    match s.tasks[k]? with
    | some (.blocking event (.ret (some _))) => s.Waits event.watchedPath
    | some (.examining _ _ _ _ _ _ (.await (.requestHash _ other ino) _)) => (s.site.doc other (c.file ino)).isSome
    | _ => True
  | _ => True

section

variable {dirs : Dict String (List String)} {skipped : List Nat} {uid : String}

theorem passed_append (left right : List (Nat × FSEvent)) :
    passed dirs skipped (left ++ right) uid = passed dirs skipped left uid ++ passed dirs skipped right uid := by
  simp [passed]

theorem passed_take_drop (n : Nat) (events : List (Nat × FSEvent)) :
    passed dirs skipped (events.take n) uid ++ passed dirs skipped (events.drop n) uid = passed dirs skipped events uid := by
  rw [← passed_append, take_append_drop]

theorem passed_skip {events : List (Nat × FSEvent)} {number : Nat} (hnumber : ∀ entry ∈ events, entry.1 ≠ number) :
    passed dirs (skipped ++ [number]) events uid = passed dirs skipped events uid := by
  unfold passed
  congr 1
  apply filter_congr
  intro entry hentry
  simp [hnumber entry hentry]

theorem delivered_append (left right : List Sent) :
    delivered (left ++ right) uid = delivered left uid ++ delivered right uid := by
  simp [delivered]

theorem delivered_signals (path : String) (action : Throttle) (users : List (String × String)) :
    delivered (signals path action users) uid = [] := by
  simp [delivered, signals, flatMap_map]

theorem numbered_concat (events : List FSEvent) (event : FSEvent) :
    numbered (events ++ [event]) = numbered events ++ [(events.length, event)] := by
  simp [numbered, zipIdx_append]

theorem length_numbered (events : List FSEvent) : (numbered events).length = events.length := by
  simp [numbered]

theorem number_of_getElem? {events : List FSEvent} (hentry : (numbered events)[i]? = some entry) : entry.1 = i := by
  simp only [numbered, getElem?_map, getElem?_zipIdx, Option.map_map, Option.map_eq_some_iff] at hentry
  obtain ⟨event, -, rfl⟩ := hentry
  simp

theorem lt_of_mem_take {events : List FSEvent} {base : Nat} (hentry : entry ∈ ((numbered events).drop base).take i) :
    entry.1 < base + i := by
  obtain ⟨j, hj⟩ := mem_iff_getElem?.mp hentry
  rw [getElem?_take] at hj
  split_ifs at hj with hlt
  rw [getElem?_drop] at hj
  rw [number_of_getElem? hj]
  exact Nat.add_lt_add_left hlt base

theorem flatMap_single {uids : List String} (hnodup : uids.Nodup) (f : String → List FSEvent) :
    (uids.flatMap fun other => if other = uid then f other else []) = if uid ∈ uids then f uid else [] := by
  induction uids with
  | nil => rfl
  | cons other uids ih =>
    obtain ⟨hother, hnodup⟩ := nodup_cons.mp hnodup
    rw [flatMap_cons, ih hnodup]
    by_cases huid : other = uid
    · subst huid
      simp [hother]
    · simp [huid, Ne.symm huid]

end

section

variable (c : Setting U) (dirs : Dict String (List String)) (bound : String → String)

/-- Answers as a steady world gives them. -/
def Answered : (command : Command U) → command.Answer → Prop
  | .getPresence uid, presence => (∃ path, uid ∈ watchers dirs path) → sessionId c.uuid presence = some (bound uid)
  | .requestHash .., packet => packet.isSome
  | .mark _ _, marked => ∀ users, marked ≠ some (users, none)
  | _, _ => True

/-- A comparison that comes to an end. -/
abbrev Checks : Site.Io U Verdict → Prop := Prog.Safe (fun _ => True) (Answered c dirs bound) (· ≠ .stop)

abbrev Finds (uids : List String) : Site.Io U (List (String × String)) → Prop :=
  Prog.Safe (fun command => ∃ uid, command = .getPresence uid) (Answered c dirs bound)
    (· = uids.map fun uid => (uid, bound uid))

theorem checks_examine (me : InstanceId) (wCache : CachedWorkspace) (event : FSEvent) :
    Checks c dirs bound (examine c.uuid me wCache event) := by
  have hflag (ino : Nat) : Checks c dirs bound (flag c.uuid me ino) := by
    refine .perform_bind trivial fun marked hmarked => ?_
    cases marked with
    | none => exact Verdict.noConfusion
    | some marked =>
      obtain ⟨users, conflictResolver⟩ := marked
      cases conflictResolver with
      | none => exact absurd rfl (hmarked users)
      | some conflictResolver =>
        have hsends := (sends_sendConflict (U := U) c.uuid ino users conflictResolver).mono fun _ _ => trivial
        exact hsends.safe.bind fun _ _ => Verdict.noConfusion
  have hcompare (ino : Nat) (docHash : Option DocHash) : Checks c dirs bound (compareHash c.uuid me ino docHash) := by
    unfold compareHash
    cases docHash.filter DocHash.truthy with
    | none => exact Verdict.noConfusion
    | some docHash =>
      refine .perform_bind trivial fun fileHash _ => ?_
      exact .ite (fun _ => Verdict.noConfusion) fun _ => hflag ino
  have hdocHash (ino : Nat) : Prog.Safe (fun _ => True) (Answered c dirs bound) (fun docHash => docHash.isSome)
      (getDocHash me ino wCache : Site.Io U _) := by
    unfold getDocHash
    cases named (wCache.docs.get? ino) with
    | none => rfl
    | some owner =>
      refine .ite (fun _ => ⟨trivial, fun _ _ => rfl⟩) fun _ => ⟨trivial, fun packet hsome => ?_⟩
      obtain ⟨packet, rfl⟩ := Option.isSome_iff_exists.mp hsome
      rfl
  refine .ite (fun _ => ?_) fun _ => Verdict.noConfusion
  cases event.ino with
  | none => exact Verdict.noConfusion
  | some ino =>
    refine (hdocHash ino).bind fun docHash hsome => ?_
    obtain ⟨docHash, rfl⟩ := Option.isSome_iff_exists.mp hsome
    exact hcompare ino docHash

theorem finds_sessions {uids : List String} (huids : ∀ uid ∈ uids, ∃ path, uid ∈ watchers dirs path) :
    Finds c dirs bound uids (sessions c.uuid uids) := by
  induction uids with
  | nil => rfl
  | cons uid uids ih =>
    obtain ⟨huid, huids⟩ := forall_mem_cons.mp huids
    refine .perform_bind ⟨uid, rfl⟩ fun presence hpresence => (ih huids).bind fun rest hrest => ?_
    simp [hpresence huid, hrest]

variable {c dirs bound} {site : Site.State U} {command : Command U}

theorem steady_outside {a : Outside U} (h : Steady c dirs bound site.world) (hkeeps : Keeps c dirs bound (.outside a)) :
    Steady c dirs bound (outside site a).world := by
  rcases world_outside (s := site) a with hsame | hworld
  · rw [hsame]
    exact h
  · rw [hworld] at hkeeps
    exact hkeeps

theorem answered_exec (hsteady : Steady c dirs bound site.world) (hstanding : Standing site)
    (hrequest : ∀ me other ino, command = .requestHash me other ino → (site.doc other (c.file ino)).isSome) :
    Answered c dirs bound command (exec c command site).1 := by
  cases command with
  | getPresence uid =>
    rintro ⟨path, huid⟩
    exact hsteady.session path uid huid
  | requestHash me other ino =>
    have hsome := hrequest me other ino rfl
    simpa [Answered, exec] using hsome
  | mark me ino =>
    simp only [Answered, exec]
    split
    · simp
    · rename_i d doc hfound
      obtain ⟨resolver, -, hpick⟩ := pickOne_mem site.chance.draw (hstanding.found hfound).2.2.2
      simp [hpick]
  | _ => trivial

end

/-! ### What holds between steps -/

def Held (base i : Nat) : Prop :=
  (∀ uid, delivered s.sent uid = passed dirs s.skipped ((numbered s.accepted).take base) uid) ∧
    ∀ number ∈ s.skipped, number < base + i

/-- What the loop has collected. -/
def Gathers (i : Nat) (batches : Dict String (List FSEvent)) : Prop :=
  (∀ uid, gathered batches uid = passed dirs s.skipped ((s.arrays s.batch).take i) uid) ∧
    ∀ uid ∈ batches.keys, ∃ path, uid ∈ watchers dirs path

def Fits (bound : String → String) (s : State U) (base : Nat) :
    Phase U → Prop
  | .asking array => array = s.batch ∧ Held dirs s base 0
  | .answered array cached => array = s.batch ∧ Held dirs s base 0 ∧ ∃ wCache, cached = some wCache ∧ wCache.dirs = dirs
  | .examining array i number event wCache batches check =>
    array = s.batch ∧ Held dirs s base i ∧ wCache.dirs = dirs ∧ (s.arrays s.batch)[i]? = some (number, event) ∧
      Gathers dirs s i batches ∧ Checks c dirs bound check
  | .fetching batches users =>
    Held dirs s base (s.arrays s.batch).length ∧ Gathers dirs s (s.arrays s.batch).length batches ∧
      Finds c dirs bound batches.keys users
  | .returning => ∀ uid, delivered s.sent uid = expected dirs s uid
  | .stuck => False
  | _ => True

def Phase.aside : Phase U → Bool
  | .blocking _ _ | .resuming _ _ | .ended => true
  | _ => false

structure Orderly (c : Setting U) (dirs : Dict String (List String)) (bound : String → String) (s : State U) (base : Nat) : Prop where
  steady : Steady c dirs bound s.site.world
  standing : Standing s.site
  array : s.arrays s.batch = (numbered s.accepted).drop base
  reached : base ≤ s.accepted.length
  bounded : ∀ number ∈ s.skipped, number < s.accepted.length
  single : ∀ {j k : Nat} {p q : Phase U}, s.tasks[j]? = some p → s.tasks[k]? = some q → p.runs = true → q.runs = true → j = k
  fits : ∀ {k : Nat} {p : Phase U}, s.tasks[k]? = some p → Fits c dirs bound s base p
  idle : Idle s → (s.armed = true ∨ base = s.accepted.length) ∧ Held dirs s base 0

section

variable {c : Setting U} {dirs : Dict String (List String)} {bound : String → String} {s s' : State U} {base k : Nat}
  {p q : Phase U}

variable {batches : Dict String (List FSEvent)} {event : FSEvent} {wCache : CachedWorkspace}

theorem runs_of_aside (h : p.aside = true) : p.runs = false := by
  cases p <;> first | rfl | cases h

theorem fits_of_aside (h : p.aside = true) : Fits c dirs bound s base p := by
  cases p <;> trivial

theorem Fits.aside (h : Fits c dirs bound s base p) (hruns : p.runs = false) : p.aside = true := by
  cases p <;> first | rfl | exact h.elim | cases hruns

theorem orderly_start {world : World} (hworld : Steady c dirs bound world) (files : Sync.File → List U) :
    Orderly c dirs bound (.start (.start world files)) 0 where
  steady := hworld
  standing := standing_start world files
  array := rfl
  reached := Nat.le_refl 0
  bounded number hnumber := by cases hnumber
  single hj := by cases hj
  fits hk := by cases hk
  idle _ := ⟨.inr rfl, fun _ => rfl, fun number hnumber => by cases hnumber⟩

section

variable (h : Orderly c dirs bound s base)

include h

theorem Orderly.setSite {site : Site.State U} (hsteady : Steady c dirs bound site.world)
    (hstanding : Standing site) : Orderly c dirs bound { s with site := site } base :=
  { h with steady := hsteady, standing := hstanding }

theorem Orderly.setPath (path : String) (state : PathState) : Orderly c dirs bound (s.setPath path state) base :=
  { h with }

theorem Orderly.append (hp : p.aside = true) : Orderly c dirs bound { s with tasks := s.tasks ++ [p] } base := by
  have hnew {k : Nat} {q : Phase U} (hk : (s.tasks ++ [p])[k]? = some q) : s.tasks[k]? = some q ∨ q = p := by
    rw [getElem?_append] at hk
    split_ifs at hk with hlt
    · exact .inl hk
    · exact .inr (mem_singleton.mp (mem_of_getElem? hk))
  refine { h with single := ?_, fits := ?_, idle := ?_ }
  · intro j k q q' hj hk hq hq'
    rcases hnew hj with hj | rfl
    · rcases hnew hk with hk | rfl
      · exact h.single hj hk hq hq'
      · cases hq'.symm.trans (runs_of_aside hp)
    · cases hq.symm.trans (runs_of_aside hp)
  · intro k q hk
    rcases hnew hk with hk | rfl
    · exact h.fits hk
    · exact fits_of_aside hp
  · intro hidle
    exact h.idle fun q hq => hidle q (mem_append_left _ hq)

end

theorem getElem?_move {j : Nat} {r : Phase U} (hj : (s.tasks.set k q)[j]? = some r) :
    j = k ∧ r = q ∨ j ≠ k ∧ s.tasks[j]? = some r := by
  rw [getElem?_set] at hj
  split_ifs at hj with hkj hlt
  · exact .inl ⟨hkj.symm, (Option.some.inj hj).symm⟩
  · exact .inr ⟨Ne.symm hkj, hj⟩

theorem Orderly.shift (h : Orderly c dirs bound s base) (hk : s.tasks[k]? = some p) (hp : p.aside = true) (hq : q.aside = true) :
    Orderly c dirs bound (s.move k q) base := by
  refine { h with single := ?_, fits := ?_, idle := ?_ }
  · intro i j r r' hi hj hr hr'
    rcases getElem?_move hi with ⟨-, rfl⟩ | ⟨-, hi⟩
    · cases hr.symm.trans (runs_of_aside hq)
    · rcases getElem?_move hj with ⟨-, rfl⟩ | ⟨-, hj⟩
      · cases hr'.symm.trans (runs_of_aside hq)
      · exact h.single hi hj hr hr'
  · intro j r hj
    rcases getElem?_move hj with ⟨-, rfl⟩ | ⟨-, hj⟩
    · exact fits_of_aside hq
    · exact h.fits hj
  · intro hidle
    apply h.idle
    intro r hr
    obtain ⟨j, hj⟩ := mem_iff_getElem?.mp hr
    by_cases hjk : j = k
    · subst hjk
      cases hk.symm.trans hj
      exact runs_of_aside hp
    · apply hidle r
      apply mem_of_getElem? (i := j)
      simpa [move, Ne.symm hjk] using hj

theorem Orderly.goOn (h : Orderly c dirs bound s base) {base' : Nat} (hk : s.tasks[k]? = some p) (hp : p.runs = true)
    (htasks : s'.tasks = s.tasks.set k q) (hsteady : Steady c dirs bound s'.site.world) (hstanding : Standing s'.site)
    (harray : s'.arrays s'.batch = (numbered s'.accepted).drop base') (hreached : base' ≤ s'.accepted.length)
    (hbounded : ∀ number ∈ s'.skipped, number < s'.accepted.length) (hfits : Fits c dirs bound s' base' q)
    (hidle : q.runs = false → base' = s'.accepted.length ∧ Held dirs s' base' 0) : Orderly c dirs bound s' base' := by
  have hothers {j : Nat} {r : Phase U} (hj : s.tasks[j]? = some r) (hjk : j ≠ k) : r.aside = true := by
    cases hruns : r.runs with
    | true => exact absurd (h.single hj hk hruns hp) hjk
    | false => exact (h.fits hj).aside hruns
  have hlt : k < s.tasks.length := (List.getElem?_eq_some_iff.mp hk).1
  refine ⟨hsteady, hstanding, harray, hreached, hbounded, ?_, ?_, ?_⟩
  · intro i j r r' hi hj hr hr'
    rw [htasks] at hi hj
    rcases getElem?_move hi with ⟨rfl, -⟩ | ⟨hik, hi⟩
    · rcases getElem?_move hj with ⟨rfl, -⟩ | ⟨hjk, hj⟩
      · rfl
      · cases hr'.symm.trans (runs_of_aside (hothers hj hjk))
    · cases hr.symm.trans (runs_of_aside (hothers hi hik))
  · intro j r hj
    rw [htasks] at hj
    rcases getElem?_move hj with ⟨-, rfl⟩ | ⟨hjk, hj⟩
    · exact hfits
    · exact fits_of_aside (hothers hj hjk)
  · intro hs'
    have hq : q.runs = false := by
      apply hs' q
      rw [htasks]
      exact mem_of_getElem? (i := k) (by simp [hlt])
    exact ⟨.inr (hidle hq).1, (hidle hq).2⟩

/-! ### Events are pushed -/

theorem Held.push (h : Held dirs s base i) (hreached : base ≤ s.accepted.length) (event : FSEvent) :
    Held dirs (s.push event) base i := by
  refine ⟨fun uid => ?_, h.2⟩
  simp only [State.push, numbered_concat]
  rw [take_append_of_le_length (by rwa [length_numbered])]
  exact h.1 uid

theorem arrays_push (event : FSEvent) :
    (s.push event).arrays (s.push event).batch = s.arrays s.batch ++ [(s.accepted.length, event)] := by
  simp [push]

theorem Gathers.push (h : Gathers dirs s i batches) (hi : i ≤ (s.arrays s.batch).length) (event : FSEvent) :
    Gathers dirs (s.push event) i batches := by
  refine ⟨fun uid => ?_, h.2⟩
  rw [arrays_push, take_append_of_le_length hi]
  exact h.1 uid

theorem Fits.push (h : Fits c dirs bound s base p) (hreached : base ≤ s.accepted.length) (hpast : p.past = false)
    (event : FSEvent) : Fits c dirs bound (s.push event) base p := by
  cases p with
  | asking array => exact ⟨h.1, h.2.push hreached event⟩
  | answered array cached => exact ⟨h.1, h.2.1.push hreached event, h.2.2⟩
  | examining array i number other wCache batches check =>
    obtain ⟨harray, hheld, hdirs, hentry, hgathers, hchecks⟩ := h
    have hlt := (List.getElem?_eq_some_iff.mp hentry).1
    refine ⟨harray, hheld.push hreached event, hdirs, ?_, hgathers.push (Nat.le_of_lt hlt) event, hchecks⟩
    rw [arrays_push, List.getElem?_append_left hlt]
    exact hentry
  | fetching | returning => cases hpast
  | stuck => exact h.elim
  | _ => trivial

theorem Orderly.push (h : Orderly c dirs bound s base) (hpast : ∀ p ∈ s.tasks, p.past = false) (event : FSEvent) :
    Orderly c dirs bound (s.push event) base where
  steady := h.steady
  standing := h.standing
  array := by
    rw [arrays_push, h.array]
    simp only [State.push, numbered_concat]
    rw [drop_append_of_le_length (by rw [length_numbered]; exact h.reached)]
  reached := by
    simp only [State.push, length_append]
    exact Nat.le_trans h.reached (Nat.le_add_right _ _)
  bounded number hnumber := by
    simp only [State.push, length_append]
    exact Nat.lt_add_right _ (h.bounded number hnumber)
  single := h.single
  fits hk := (h.fits hk).push h.reached (hpast _ (mem_of_getElem? hk)) event
  idle hidle := ⟨.inl rfl, (h.idle hidle).2.push h.reached event⟩

theorem Orderly.settle (h : Orderly c dirs bound s base) (hwaits : s.Waits event.watchedPath) :
    Orderly c dirs bound (s.settle event) base := by
  have hpush (hblocked : s.blocked event.watchedPath = false) : Orderly c dirs bound (s.push event) base := by
    refine h.push (fun p hp => ?_) event
    by_contra hpast
    have hwaiting := hwaits ⟨p, hp, by simpa using hpast⟩
    simp [hblocked] at hwaiting
  unfold State.settle
  cases hpath : s.paths event.watchedPath with
  | none => exact hpush (by simp [blocked, hpath])
  | some state =>
    simp only
    split
    · exact h.setPath _ _
    · rename_i hbursting
      exact hpush (by simpa [blocked, hpath] using hbursting)

theorem tasks_settle (event : FSEvent) : (s.settle event).tasks = s.tasks := by
  unfold settle
  split
  · rfl
  · split <;> rfl

theorem Orderly.handleWatchEvent (h : Orderly c dirs bound s base) (hwaits : s.Waits event.watchedPath) :
    Orderly c dirs bound (s.handleWatchEvent c.uuid event) base := by
  simp only [State.handleWatchEvent]
  split
  · exact (h.setPath _ _).append rfl
  · refine (h.setPath _ _).settle fun hpast => ?_
    -- an event is counted without a change in whether the path is blocked
    have hblocked := hwaits hpast
    unfold blocked at hblocked
    cases hpath : s.paths event.watchedPath with
    | none => simp [hpath] at hblocked
    | some state => simpa [State.blocked, State.setPath, PathState.counted, hpath] using hblocked

theorem Orderly.cool (h : Orderly c dirs bound s base) (path : String) :
    Orderly c dirs bound (s.cool c.uuid path) base := by
  unfold State.cool
  split
  · exact h
  · split
    · exact (h.setPath _ _).append rfl
    · exact h

theorem delivered_signal (path : String) (action : Throttle) (users : List (String × String)) (uid : String) :
    delivered (s.signal path action users).sent uid = delivered s.sent uid := by
  simp [signal, delivered_append, delivered_signals]

theorem Orderly.signal (h : Orderly c dirs bound s base) (path : String) (action : Throttle)
    (users : List (String × String)) : Orderly c dirs bound (s.signal path action users) base := by
  have hheld {i : Nat} (hheld : Held dirs s base i) : Held dirs (s.signal path action users) base i :=
    ⟨fun uid => (delivered_signal path action users uid).trans (hheld.1 uid), hheld.2⟩
  refine { h with fits := fun {k p} hk => ?_, idle := fun hidle => ?_ }
  · have hfits := h.fits hk
    cases p with
    | asking array => exact ⟨hfits.1, hheld hfits.2⟩
    | answered | examining => exact ⟨hfits.1, hheld hfits.2.1, hfits.2.2⟩
    | fetching batches users => exact ⟨hheld hfits.1, hfits.2⟩
    | returning =>
      intro uid
      exact (delivered_signal path action users uid).trans (hfits uid)
    | stuck => exact hfits.elim
    | _ => trivial
  · exact ⟨(h.idle hidle).1, hheld (h.idle hidle).2⟩

/-! ### A run starts -/

theorem Orderly.fire (h : Orderly c dirs bound s base) (hcalm : s.armed = true → Idle s) :
    Orderly c dirs bound s.fire base := by
  unfold State.fire
  split
  · rename_i harmed
    have hidle := hcalm harmed
    have hnew {k : Nat} {q : Phase U} (hk : (s.tasks ++ [.asking s.batch])[k]? = some q) :
        s.tasks[k]? = some q ∧ q.runs = false ∨ k = s.tasks.length ∧ q = .asking s.batch := by
      rw [getElem?_append] at hk
      split_ifs at hk with hlt
      · exact .inl ⟨hk, hidle q (mem_of_getElem? hk)⟩
      · obtain ⟨hzero, heq⟩ := List.getElem?_eq_some_iff.mp hk
        rw [List.length_singleton] at hzero
        exact .inr ⟨by omega, by simpa using heq.symm⟩
    refine { h with single := ?_, fits := ?_, idle := ?_ }
    · intro j k q q' hj hk hq hq'
      rcases hnew hj with ⟨-, hj⟩ | ⟨rfl, -⟩
      · cases hq.symm.trans hj
      · rcases hnew hk with ⟨-, hk⟩ | ⟨rfl, -⟩
        · cases hq'.symm.trans hk
        · rfl
    · intro k q hk
      rcases hnew hk with ⟨hk, -⟩ | ⟨-, rfl⟩
      · exact h.fits hk
      · exact ⟨rfl, (h.idle hidle).2⟩
    · intro hafter
      have hasking := hafter (.asking s.batch) (mem_append_right _ (mem_singleton.mpr rfl))
      cases hasking
  · exact h

/-! ### The loop -/

theorem number_of_array (harray : s.arrays s.batch = (numbered s.accepted).drop base)
    (hentry : (s.arrays s.batch)[i]? = some entry) : entry.1 = base + i := by
  rw [harray, getElem?_drop] at hentry
  exact number_of_getElem? hentry

theorem take_succ_of_getElem? {events : List (Nat × FSEvent)} (hentry : events[i]? = some entry) :
    events.take (i + 1) = events.take i ++ [entry] := by
  rw [take_add_one, hentry]
  rfl

theorem Gathers.enlist {number : Nat} (h : Gathers dirs s i batches) (hdistinct : ∀ path, (watchers dirs path).Nodup)
    (hentry : (s.arrays s.batch)[i]? = some (number, event)) (hskipped : number ∉ s.skipped)
    (hdirs : wCache.dirs = dirs) : Gathers dirs s (i + 1) (enlist wCache event batches) := by
  subst hdirs
  refine ⟨fun uid => ?_, fun uid huid => ?_⟩
  · rw [gathered_enlist, h.1, take_succ_of_getElem? hentry, passed_append]
    congr 1
    by_cases huid : uid ∈ audience wCache.dirs event
    · have hone : (audience wCache.dirs event).count uid = 1 := count_eq_one_of_mem (hdistinct _) huid
      simp [passed, hskipped, huid, hone]
    · rw [count_eq_zero_of_not_mem huid]
      simp [passed, huid]
  · rw [mem_keys_enlist] at huid
    rcases huid with huid | huid
    · exact h.2 uid huid
    · exact ⟨_, huid⟩

variable (c bound) in
theorem fits_scan (me : InstanceId) (hdirs : wCache.dirs = dirs) (hdistinct : ∀ path, (watchers dirs path).Nodup)
    (harray : s.arrays s.batch = (numbered s.accepted).drop base) (hheld : Held dirs s base i)
    (hgathers : Gathers dirs s i batches) (hi : i ≤ (s.arrays s.batch).length) :
    Fits c dirs bound s base (scan c.uuid me wCache s.batch ((s.arrays s.batch).drop i) i batches) ∧
      (scan c.uuid me wCache s.batch ((s.arrays s.batch).drop i) i batches : Phase U).runs = true := by
  generalize hrest : (s.arrays s.batch).drop i = rest
  induction rest generalizing i batches with
  | nil =>
    have hlength : (s.arrays s.batch).length = i := Nat.le_antisymm (drop_eq_nil_iff.mp hrest) hi
    rw [← hlength] at hheld hgathers
    exact ⟨⟨hheld, hgathers, finds_sessions c dirs bound hgathers.2⟩, rfl⟩
  | cons entry rest ih =>
    obtain ⟨number, event⟩ := entry
    have hentry : (s.arrays s.batch)[i]? = some (number, event) := by
      rw [← head?_drop, hrest]
      rfl
    simp only [scan]
    split
    · exact ⟨⟨rfl, hheld, hdirs, hentry, hgathers, checks_examine c dirs bound me wCache event⟩, rfl⟩
    · have hnumber : number = base + i := number_of_array harray hentry
      have hskipped : number ∉ s.skipped := fun hmem => Nat.lt_irrefl _ (hnumber ▸ hheld.2 number hmem)
      apply ih
      · exact ⟨hheld.1, fun other hother => Nat.lt_succ_of_lt (hheld.2 other hother)⟩
      · exact hgathers.enlist hdistinct hentry hskipped hdirs
      · exact (List.getElem?_eq_some_iff.mp hentry).1
      · rw [← List.drop_drop, hrest]
        rfl

/-! ### The steps of a run -/

section

variable (h : Orderly c dirs bound s base)

include h

theorem Orderly.advance (hk : s.tasks[k]? = some p) (hp : p.runs = true)
    (hq : q.runs = true) (hfits : Fits c dirs bound s base q) {site : Site.State U}
    (hsteady : Steady c dirs bound site.world) (hstanding : Standing site) :
    Orderly c dirs bound { s with site := site, tasks := s.tasks.set k q } base :=
  h.goOn hk hp rfl hsteady hstanding h.array h.reached h.bounded hfits fun hruns => by cases hq.symm.trans hruns

theorem Orderly.moved (hk : s.tasks[k]? = some p) (hp : p.runs = true)
    (hq : q.runs = true) (hfits : Fits c dirs bound s base q) : Orderly c dirs bound (s.move k q) base :=
  h.advance hk hp hq hfits h.steady h.standing

theorem Orderly.answer (me : InstanceId) {array : Nat} {cached : Option CachedWorkspace}
    (hk : s.tasks[k]? = some (.answered array cached)) :
    Orderly c dirs bound (s.resume c me k (.answered array cached)) base := by
  obtain ⟨rfl, hheld, wCache, rfl, hdirs⟩ := h.fits hk
  have hgathers : Gathers dirs s 0 .empty := ⟨fun _ => rfl, fun uid huid => by cases huid⟩
  obtain ⟨hfits, hruns⟩ := fits_scan c bound me hdirs h.steady.distinct h.array hheld hgathers (Nat.zero_le _)
  exact h.moved hk rfl hruns hfits

theorem Orderly.skip (me : InstanceId) {array number : Nat}
    (hk : s.tasks[k]? = some (.examining array i number event wCache batches (.ret .skip))) :
    Orderly c dirs bound (s.resume c me k (.examining array i number event wCache batches (.ret .skip))) base := by
  obtain ⟨rfl, hheld, hdirs, hentry, hgathers, -⟩ := h.fits hk
  have hnumber : number = base + i := number_of_array h.array hentry
  have hlt := (List.getElem?_eq_some_iff.mp hentry).1
  have hskip (uid : String) {events : List (Nat × FSEvent)} (hlower : ∀ entry ∈ events, entry.1 < base + i) :
      passed dirs (s.skipped ++ [number]) events uid = passed dirs s.skipped events uid := by
    apply passed_skip
    intro entry hmem
    exact Nat.ne_of_lt (hnumber ▸ hlower entry hmem)
  let s' : State U := { s with skipped := s.skipped ++ [number] }
  have hheld' : Held dirs s' base (i + 1) := by
    refine ⟨fun uid => ?_, fun other hother => ?_⟩
    · rw [hskip uid fun entry hmem => ?_]
      · exact hheld.1 uid
      · have hlt : entry.1 < 0 + base := lt_of_mem_take (by simpa using hmem)
        omega
    · rcases mem_append.mp hother with hother | hother
      · exact Nat.lt_succ_of_lt (hheld.2 other hother)
      · rw [mem_singleton.mp hother, hnumber]
        exact Nat.lt_succ_self _
  have hgathers' : Gathers dirs s' (i + 1) batches := by
    refine ⟨fun uid => ?_, hgathers.2⟩
    rw [take_succ_of_getElem? hentry, passed_append, hskip uid fun entry hmem => ?_, ← hgathers.1 uid]
    · simp [passed, s']
    · exact lt_of_mem_take (h.array ▸ hmem)
  obtain ⟨hfits, hruns⟩ := fits_scan (s := s') c bound me hdirs h.steady.distinct h.array hheld' hgathers' hlt
  refine h.goOn hk rfl rfl h.steady h.standing h.array h.reached (fun other hother => ?_) hfits
    fun hended => by cases hruns.symm.trans hended
  rcases mem_append.mp hother with hother | hother
  · exact h.bounded other hother
  · rw [mem_singleton.mp hother, hnumber]
    have hlength : i < s.accepted.length - base := by
      rw [h.array, length_drop, length_numbered] at hlt
      exact hlt
    show base + i < s.accepted.length
    omega

theorem Orderly.pass (me : InstanceId) {array number : Nat}
    (hk : s.tasks[k]? = some (.examining array i number event wCache batches (.ret .pass))) :
    Orderly c dirs bound (s.resume c me k (.examining array i number event wCache batches (.ret .pass))) base := by
  obtain ⟨rfl, hheld, hdirs, hentry, hgathers, -⟩ := h.fits hk
  have hnumber : number = base + i := number_of_array h.array hentry
  have hskipped : number ∉ s.skipped := fun hmem => Nat.lt_irrefl _ (hnumber ▸ hheld.2 number hmem)
  have hheld' : Held dirs s base (i + 1) := ⟨hheld.1, fun other hother => Nat.lt_succ_of_lt (hheld.2 other hother)⟩
  have hgathers' := hgathers.enlist h.steady.distinct hentry hskipped hdirs
  obtain ⟨hfits, hruns⟩ := fits_scan c bound me hdirs h.steady.distinct h.array hheld' hgathers'
    (List.getElem?_eq_some_iff.mp hentry).1
  exact h.moved hk rfl hruns hfits

end

theorem delivered_sendBatches (batches : Dict String (List FSEvent)) (uid : String) :
    delivered (s.sendBatches batches (batches.keys.map fun uid => (uid, bound uid))).sent uid =
      delivered s.sent uid ++ gathered batches uid := by
  simp only [State.sendBatches, delivered_append]
  congr 1
  calc delivered ((batches.keys.map fun uid => (uid, bound uid)).map fun user => .batch user.1 user.2 (gathered batches user.1)) uid
      = batches.keys.flatMap fun other => if other = uid then gathered batches other else [] := by
        simp only [delivered, map_map, flatMap_map, Function.comp_apply]
    _ = if uid ∈ batches.keys then gathered batches uid else [] := flatMap_single batches.nodup _
    _ = gathered batches uid := by
        split_ifs with hkey
        · rfl
        · rw [Dict.mem_keys, Option.not_isSome_iff_eq_none] at hkey
          simp [gathered, hkey]

section

variable (h : Orderly c dirs bound s base)

include h

theorem Orderly.send (me : InstanceId) {users : List (String × String)}
    (hk : s.tasks[k]? = some (.fetching batches (.ret users))) :
    Orderly c dirs bound (s.resume c me k (.fetching batches (.ret users))) base := by
  obtain ⟨hheld, hgathers, hfinds⟩ := h.fits hk
  have husers : users = batches.keys.map fun uid => (uid, bound uid) := hfinds
  subst husers
  refine h.goOn (q := .returning) hk rfl rfl h.steady h.standing h.array h.reached h.bounded (fun uid => ?_) fun hruns => by cases hruns
  calc delivered (s.sendBatches batches (batches.keys.map fun uid => (uid, bound uid))).sent uid
      = delivered s.sent uid ++ gathered batches uid := delivered_sendBatches batches uid
    _ = passed dirs s.skipped ((numbered s.accepted).take base) uid ++
          passed dirs s.skipped ((numbered s.accepted).drop base) uid := by
        rw [hheld.1, hgathers.1, take_length, h.array]
    _ = expected dirs s uid := passed_take_drop base _

theorem Orderly.finish (me : InstanceId) (hk : s.tasks[k]? = some .returning) :
    Orderly c dirs bound (s.resume c me k .returning) s.accepted.length := by
  have hsent := h.fits hk
  have htake : (numbered s.accepted).take s.accepted.length = numbered s.accepted :=
    take_of_length_le (Nat.le_of_eq (length_numbered _))
  refine h.goOn (q := .ended) hk rfl rfl h.steady h.standing ?_ (Nat.le_refl _) h.bounded trivial fun _ => ⟨rfl, fun uid => ?_, h.bounded⟩
  · have hdrop : (numbered s.accepted).drop s.accepted.length = [] :=
      drop_eq_nil_of_le (Nat.le_of_eq (length_numbered _))
    simp [resume, reset, move, hdrop]
  · show delivered s.sent uid = passed dirs s.skipped ((numbered s.accepted).take s.accepted.length) uid
    rw [htake]
    exact hsent uid

theorem Orderly.resume (me : InstanceId) (hk : s.tasks[k]? = some p)
    (hcalm : Calm c s (.resume k)) : ∃ base', Orderly c dirs bound (s.resume c me k p) base' := by
  simp only [Calm, hk] at hcalm
  have hsteady (command : Command U) : Steady c dirs bound (exec c command s.site).2.world := by
    rw [world_exec c command]
    exact h.steady
  have hstanding (command : Command U) : Standing (exec c command s.site).2 := standing_exec h.standing c command
  cases p with
  | blocking event users =>
    cases users with
    | await command next => exact ⟨base, (h.shift hk rfl rfl).setSite (hsteady command) (hstanding command)⟩
    | ret users =>
      cases users with
      | none => exact ⟨base, h.shift hk rfl rfl⟩
      | some users =>
        have hsettled := (h.signal event.watchedPath .block users).settle hcalm
        exact ⟨base, hsettled.shift (by rw [tasks_settle]; exact hk) rfl rfl⟩
  | resuming path users =>
    cases users with
    | await command next => exact ⟨base, (h.shift hk rfl rfl).setSite (hsteady command) (hstanding command)⟩
    | ret users =>
      cases users with
      | none => exact ⟨base, h.shift hk rfl rfl⟩
      | some users => exact ⟨base, (h.signal path .resume users).shift hk rfl rfl⟩
  | asking array =>
    obtain ⟨rfl, hheld⟩ := h.fits hk
    obtain ⟨wCache, hcached, hdirs⟩ := h.steady.cached
    exact ⟨base, h.moved hk rfl rfl ⟨rfl, hheld, wCache, hcached, hdirs⟩⟩
  | answered array cached => exact ⟨base, h.answer me hk⟩
  | examining array i number event wCache batches check =>
    cases check with
    | await command next =>
      obtain ⟨harray, hheld, hdirs, hentry, hgathers, -, hnext⟩ := h.fits hk
      have hanswered : Answered c dirs bound command (exec c command s.site).1 := by
        apply answered_exec h.steady h.standing
        rintro asker other ino rfl
        exact hcalm
      have hfits : Fits c dirs bound s base (.examining array i number event wCache batches (next _)) :=
        ⟨harray, hheld, hdirs, hentry, hgathers, hnext _ hanswered⟩
      exact ⟨base, h.advance hk rfl rfl hfits (hsteady command) (hstanding command)⟩
    | ret verdict =>
      cases verdict with
      | stop => exact absurd rfl (h.fits hk).2.2.2.2.2
      | skip => exact ⟨base, h.skip me hk⟩
      | pass => exact ⟨base, h.pass me hk⟩
  | fetching batches users =>
    cases users with
    | await command next =>
      obtain ⟨hheld, hgathers, ⟨uid, rfl⟩, hnext⟩ := h.fits hk
      have hanswered : Answered c dirs bound (.getPresence uid) (exec c (.getPresence uid) s.site).1 :=
        answered_exec h.steady h.standing (by simp)
      have hfits : Fits c dirs bound s base (.fetching batches (next _)) := ⟨hheld, hgathers, hnext _ hanswered⟩
      exact ⟨base, h.advance hk rfl rfl hfits (hsteady _) (hstanding _)⟩
    | ret users => exact ⟨base, h.send me hk⟩
  | returning => exact ⟨_, h.finish me hk⟩
  | stuck => exact (h.fits hk).elim
  | ended => exact ⟨base, h⟩

end

theorem orderly_step (me : InstanceId) {label : Label U} (h : ∃ base, Orderly c dirs bound s base)
    (hlabel : Keeps c dirs bound label ∧ Calm c s label) : ∃ base, Orderly c dirs bound (step c me s label) base := by
  obtain ⟨base, h⟩ := h
  obtain ⟨hkeeps, hcalm⟩ := hlabel
  cases label with
  | watch event => exact ⟨base, h.handleWatchEvent hcalm⟩
  | fire => exact ⟨base, h.fire hcalm⟩
  | cool path => exact ⟨base, h.cool path⟩
  | resume k =>
    simp only [step]
    cases hk : s.tasks[k]? with
    | none => exact ⟨base, h⟩
    | some p => exact h.resume me hk hcalm
  | outside a => exact ⟨base, h.setSite (steady_outside h.steady hkeeps) (standing_outside h.standing a)⟩

theorem Held.begins (h : Held dirs s base i) (uid : String) : delivered s.sent uid <+: expected dirs s uid := by
  rw [h.1 uid, expected, ← passed_take_drop base (numbered s.accepted)]
  exact prefix_append _ _

theorem Orderly.delivered (h : Orderly c dirs bound s base) : Delivered dirs s := by
  intro uid
  by_cases hidle : Idle s
  · obtain ⟨hdone, hheld⟩ := h.idle hidle
    refine ⟨hheld.begins uid, fun harmed _ => ?_⟩
    have hbase : base = s.accepted.length := hdone.resolve_left (by simp [harmed])
    rw [hheld.1 uid, expected, take_of_length_le (Nat.le_of_eq ((length_numbered _).trans hbase.symm))]
  · refine ⟨?_, fun _ hidle' => absurd hidle' hidle⟩
    simp only [Idle, not_forall, Bool.not_eq_false] at hidle
    obtain ⟨p, hp, hruns⟩ := hidle
    obtain ⟨k, hk⟩ := mem_iff_getElem?.mp hp
    have hfits := h.fits hk
    cases p with
    | asking array => exact hfits.2.begins uid
    | answered | examining => exact hfits.2.1.begins uid
    | fetching batches users => exact hfits.1.begins uid
    | returning => exact hfits uid ▸ prefix_refl _
    | _ => cases hruns

end

/-- Where runs do not overlap, nothing is pushed behind their loops and hashes are answered, every user gets the
events of the paths they watch once and in order. -/
theorem delivered_of_calm (c : Setting U) (me : InstanceId) {dirs : Dict String (List String)} {bound : String → String}
    {world : World} (hworld : Steady c dirs bound world) (files : Sync.File → List U) {labels : List (Label U)}
    (hkeeps : Along (step c me) (fun _ label => Keeps c dirs bound label) (.start (.start world files)) labels)
    (hcalm : Along (step c me) (Calm c) (.start (.start world files)) labels) :
    Always (step c me) (Delivered dirs) (.start (.start world files)) labels := by
  have hstep (s : State U) (label : Label U) : (∃ base, Orderly c dirs bound s base) →
      Keeps c dirs bound label ∧ Calm c s label → ∃ base, Orderly c dirs bound (step c me s label) base :=
    orderly_step me
  have hdelivered (s : State U) : (∃ base, Orderly c dirs bound s base) → Delivered dirs s := by
    rintro ⟨base, h⟩
    exact h.delivered
  have hstart : ∃ base, Orderly c dirs bound (.start (.start world files)) base := ⟨0, orderly_start hworld files⟩
  exact always_of_invariant hstep hdelivered hstart (hkeeps.and hcalm)

/-! ### Alice watches the root -/

theorem steady_rootWatched (docs : Dict Nat String) : Steady w1 rootDirs (fun _ => "s1") (rootWatched docs) := by
  have hwatchers (path : String) : watchers rootDirs path = if path = "/workspace/" then ["alice"] else [] := by
    unfold watchers rootDirs
    rw [Dict.get?_set]
    split_ifs <;> rfl
  refine ⟨⟨_, rfl, rfl⟩, fun path => ?_, fun path uid huid => ?_⟩
  · rw [hwatchers]
    split_ifs <;> decide
  · rw [hwatchers] at huid
    split_ifs at huid
    · cases mem_singleton.mp huid
      have hsession : sessionId "w1" ((attended .empty).presence "alice") = some "s1" := by decide
      exact hsession
    · cases huid

def rootStart (docs : Dict Nat String) : State Nat := .start (.start (rootWatched docs) fun _ => [])

def createdNext : FSEvent := ⟨"/workspace", "/workspace/todo", none, some 8, .create, 1, .file⟩

theorem delivered_created : let labels := [.watch created, .fire, .resume 0, .resume 0, .resume 0, .resume 0, .resume 0]
    Always (step w1 e1) (Delivered rootDirs) (rootStart .empty) labels := by
  refine delivered_of_calm w1 e1 (steady_rootWatched .empty) (fun _ => []) ?_ ?_
  · exact ⟨trivial, trivial, trivial, trivial, trivial, trivial, trivial, trivial⟩
  · refine ⟨?_, ?_, trivial, trivial, trivial, trivial, trivial, trivial⟩
    · rintro ⟨_, hphase, -⟩
      cases hphase
    · intro _ _ hphase
      cases hphase

/-- An event is pushed while the sessions of a batch are looked up. -/
def lost : List (Label Nat) :=
  [.watch created, .fire, .resume 0, .resume 0, .watch createdNext, .resume 0, .resume 0, .resume 0,
    .fire, .resume 1, .resume 1, .resume 1, .resume 1]

/-- A second run starts before the first has sent its batch. -/
def twice : List (Label Nat) :=
  [.watch created, .fire, .resume 0, .resume 0, .watch createdNext, .fire, .resume 1, .resume 1, .resume 1, .resume 1,
    .resume 1, .resume 0, .resume 0, .resume 0]

/-- The document of a written file is noted to be on an instance that does not have it. -/
def unanswered : List (Label Nat) :=
  [.watch created, .watch written, .fire, .resume 0, .resume 0, .resume 0, .resume 0]

/-- The second event is lost, the first is sent twice, or the run does not come to an end. -/
theorem undelivered_runs :
    (∀ docs, Steady w1 rootDirs (fun _ => "s1") (rootWatched docs)) ∧
    ¬Delivered rootDirs (run (step w1 e1) (rootStart .empty) lost) ∧
    ¬Delivered rootDirs (run (step w1 e1) (rootStart .empty) twice) ∧
    ¬Delivered rootDirs (run (step w1 e1) (rootStart (Dict.empty.set 7 "e2")) unanswered) := by
  refine ⟨steady_rootWatched, fun h => ?_, fun h => ?_, fun h => ?_⟩
  · exact absurd ((h "alice").2 rfl (by decide)) (by decide)
  · exact absurd ((h "alice").2 rfl (by decide)) (by decide)
  · exact absurd ((h "alice").2 rfl (by decide)) (by decide)

end HideServer.Env.Events
