import HideServer.Cache.Teardown

/-!
# Workspaces that are gone

Only opening an environment makes a record and binds a session. Nothing comes to point to a workspace
that was removed and not opened since, if nothing did when it was removed. Keys are strings, so ids
with a colon are excluded.
-/

namespace HideServer.Cache.Teardown

open Async Gateway Function Trace

variable {wsUuid : String}

/-- The command writes to the workspace. -/
def ActsOn (wsUuid : String) : Cmd → Prop
  | .setWorkspace uuid _ | .delWorkspace uuid | .fetch (.dispose uuid) _ => uuid = wsUuid
  | .setTimer key _ _ => ∃ uid sessionId, key = presenceWorkspace uid sessionId wsUuid
  | _ => False

section

variable {gone : String → Prop}

variable {uuid : String} {presence : CachedPresence}

def Loose (gone : String → Prop) (bound : Option String) : Prop := ∀ wsUuid ∈ bound, Plain wsUuid ∧ ¬gone wsUuid

def Free (gone : String → Prop) (presence : CachedPresence) : Prop :=
  ∀ sessionId session, presence.get? sessionId = some session → Loose gone session.wsUuid

structure Clear (gone : String → Prop) (w : World) : Prop where
  plain : ∀ wsUuid, gone wsUuid → Plain wsUuid
  uncached : ∀ wsUuid, gone wsUuid → w.workspace wsUuid = none
  free : ∀ uid presence, w.presence uid = some presence → Free gone presence
  keyless : ∀ wsUuid, gone wsUuid → ∀ uid sessionId, w.timers (presenceWorkspace uid sessionId wsUuid) = none

def Away (gone : String → Prop) : Cmd → Prop
  | .setPresence _ presence => Free gone presence
  | cmd => ∀ wsUuid, gone wsUuid → ¬ActsOn wsUuid cmd

/-- Answers in a clear world. -/
def Shows (gone : String → Prop) : (cmd : Cmd) → cmd.Answer → Prop
  | .getWorkspace uuid, cached => ∀ workspace ∈ cached, ¬gone uuid
  | .getPresence _, cached => ∀ presence ∈ cached, Free gone presence
  | _, _ => True

theorem shows_exec (cmd : Cmd) (w : World) (h : Clear gone w) : Shows gone cmd (exec cmd w).1 := by
  cases cmd with
  | getWorkspace uuid =>
    intro workspace hfound hgone
    have hnone := h.uncached uuid hgone
    simp only [exec] at hfound
    rw [hnone] at hfound
    cases hfound
  | getPresence uid => exact fun presence hfound => h.free uid presence hfound
  | _ => trivial

theorem clear_exec (cmd : Cmd) (w : World) (hcmd : Away gone cmd) (h : Clear gone w) : Clear gone (exec cmd w).2 := by
  cases cmd with
  | setPresence uid presence =>
    refine ⟨h.plain, h.uncached, fun other found hfound => ?_, h.keyless⟩
    simp only [exec, update_apply] at hfound
    split_ifs at hfound
    · cases hfound
      exact hcmd
    · exact h.free other found hfound
  | delPresence uid =>
    refine ⟨h.plain, h.uncached, fun other found hfound => ?_, h.keyless⟩
    simp only [exec, update_apply] at hfound
    split_ifs at hfound
    exact h.free other found hfound
  | setWorkspace uuid | delWorkspace uuid =>
    refine ⟨h.plain, fun wsUuid hgone => ?_, h.free, h.keyless⟩
    have hne : wsUuid ≠ uuid := fun heq => hcmd wsUuid hgone heq.symm
    simp only [exec, update_of_ne hne]
    exact h.uncached wsUuid hgone
  | setTimer key value ttl =>
    refine ⟨h.plain, h.uncached, h.free, fun wsUuid hgone uid sessionId => ?_⟩
    have hne : presenceWorkspace uid sessionId wsUuid ≠ key := fun heq => hcmd wsUuid hgone ⟨uid, sessionId, heq.symm⟩
    simp only [exec, update_of_ne hne]
    exact h.keyless wsUuid hgone uid sessionId
  | delTimer key =>
    refine ⟨h.plain, h.uncached, h.free, fun wsUuid hgone uid sessionId => ?_⟩
    simp only [exec, update_apply]
    split_ifs
    · rfl
    · exact h.keyless wsUuid hgone uid sessionId
  | acquire key duration | release key token =>
    simp only [exec]
    split <;> exact ⟨h.plain, h.uncached, h.free, h.keyless⟩
  | _ => exact ⟨h.plain, h.uncached, h.free, h.keyless⟩

abbrev KeepsAway (gone : String → Prop) {α : Type} (p : Io α) : Prop := p.Safe (Away gone) (Shows gone) fun _ => True

theorem not_actsOn {cmd : Cmd} (h : Away gone cmd) (hgone : gone wsUuid) : ¬ActsOn wsUuid cmd := by
  cases cmd with
  | setPresence => exact id
  | _ => exact h wsUuid hgone

theorem away_sessionTimer {uid sessionId : String} {value ttl : Nat} (huid : Plain uid) (hsession : Plain sessionId) :
    Away gone (.setTimer (presenceSession uid sessionId) value ttl) := by
  rintro wsUuid - ⟨uid', sessionId', heq⟩
  exact presenceWorkspace_ne huid hsession heq.symm

theorem away_workspaceTimer (hplain : ∀ wsUuid, gone wsUuid → Plain wsUuid) {uid sessionId : String} {value ttl : Nat}
    (hloose : Plain wsUuid ∧ ¬gone wsUuid) :
    Away gone (.setTimer (presenceWorkspace uid sessionId wsUuid) value ttl) := by
  rintro other hgone ⟨uid', sessionId', heq⟩
  obtain rfl := presenceWorkspace_inj hloose.1 (hplain other hgone) heq
  exact hloose.2 hgone

theorem away_tears {wsUuid : String} (hloose : ¬gone wsUuid) (disposed : Bool) :
    Away gone (.delWorkspace wsUuid) ∧ Away gone (.fetch (.dispose wsUuid) disposed) := by
  constructor
  · rintro _ hgone rfl
    exact hloose hgone
  · rintro _ hgone rfl
    exact hloose hgone

theorem away (hplain : ∀ wsUuid, gone wsUuid → Plain wsUuid) :
    Rules (Away gone) (Shows gone) (fun uuid _ => ¬gone uuid) fun wsUuid => Plain wsUuid ∧ ¬gone wsUuid where
  minor {cmd} h := by
    cases cmd with
    | fetch request => cases request <;> first | exact h.elim | exact fun _ _ => id
    | _ => first | exact h.elim | exact fun _ _ => id
  found h := h _ rfl
  write h := by
    rintro _ hgone rfl
    exact h hgone
  same h _ := h
  watching _ _ h := h
  splice _ _ h := h
  key _ _ _ _ _ hloose := away_workspaceTimer hplain hloose
  getPresence _ := fun _ _ => id
  within h := h _ rfl
  lift _ _ _ := fun _ _ => id

end

structure Ledger where
  world : World
  gone : List String

def opened : Event → Option String
  | .cache (.envReady _ _ _ uuid _ _) => some uuid
  | _ => none

variable (c : Settings)

def record (s : Ledger) (event : Event) : Ledger where
  world := step c s.world event
  gone := s.gone.filter (fun wsUuid => opened event ≠ some wsUuid) ++ removed c s.world event

/-- The ids of an event have no colon. -/
def Named : Event → Prop
  | .cache (.connect uid sessionId _ _) | .cache (.disconnect uid sessionId) | .cache (.ping uid sessionId _ _) =>
    Plain uid ∧ Plain sessionId
  | .cache (.envReady _ _ _ uuid _ _) | .delete _ uuid => Plain uuid
  | _ => True

instance : (event : Event) → Decidable (Named event)
  | .cache (.connect uid sessionId _ _) | .cache (.disconnect uid sessionId) | .cache (.ping uid sessionId _ _) =>
    inferInstanceAs (Decidable (Plain uid ∧ Plain sessionId))
  | .cache (.envReady _ _ _ uuid _ _) | .delete _ uuid => inferInstanceAs (Decidable (Plain uuid))
  | .cache (.expiry ..) | .cache (.envClose ..) | .cache (.openDir ..) | .cache (.closeDir ..) => .isTrue trivial
  | .cache (.change _) | .cache (.announce _) => .isTrue trivial

/-- The workspace that an event names. -/
def meant : Event → Option String
  | .cache (.envReady _ _ _ uuid _ _) | .delete _ uuid => some uuid
  | _ => none

/-- Unless it opens or deletes the workspace, the event does not act on a workspace that is gone. -/
def LeavesAlone (s : Ledger) (event : Event) : Prop :=
  ∀ wsUuid ∈ s.gone, meant event ≠ some wsUuid →
    ∀ call ∈ Prog.calls exec (program c s.world event) (pass s.world event), ¬ActsOn wsUuid call.2

/-- Sessions are bound to plain ids. -/
def PlainlyBound (w : World) : Prop := ∀ uid sessionId wsUuid, Bound w uid sessionId wsUuid → Plain wsUuid

section

variable {gone : String → Prop}

theorem away_expiry (t : Timeouts) (hplain : ∀ wsUuid, gone wsUuid → Plain wsUuid) (key : String) (disposed : Bool) :
    KeepsAway gone (handleCacheExpiry t key disposed) := by
  refine (away hplain).handleCacheExpiry t (fun _ _ => ?_) fun wsUuid hpart => ?_
  · refine (away hplain).handleStaleSession t (fun _ h => h) (fun _ _ => ?_) (fun _ _ => id) fun _ h => away_tears h.2 disposed
    exact away_sessionTimer (plain_rendered key 0) (plain_rendered key 1)
  · have hws : Plain wsUuid := plain_of_mem_split (List.mem_of_mem_tail (List.mem_of_getElem? hpart))
    exact (away hplain).handleStaleWorkspace t _ _ fun _ hnot => ⟨⟨hws, hnot⟩, away_tears hnot disposed⟩

variable {event : Event}

theorem away_program (w : World) (hplain : ∀ wsUuid, gone wsUuid → Plain wsUuid)
    (hnamed : Named event) (hmeant : ∀ wsUuid, meant event = some wsUuid → ¬gone wsUuid) :
    KeepsAway gone (program c w event) := by
  have hrules := away hplain
  cases event with
  | delete members wsUuid =>
    exact hrules.clearCacheOnDelete (fun _ _ h => h) (away_tears (hmeant wsUuid rfl) true).1 members
  | cache event =>
    cases event with
    | connect => exact hrules.handleConnection _ (fun _ h => h) (fun _ _ => away_sessionTimer hnamed.1 hnamed.2) _ _
    | disconnect => exact hrules.handleDisconnect _ (fun _ h => h) fun _ _ => away_sessionTimer hnamed.1 hnamed.2
    | ping => exact hrules.handlePing _ (fun _ h => h) (fun _ _ => away_sessionTimer hnamed.1 hnamed.2) _ _
    | expiry key disposed => exact .ite (fun _ => away_expiry c.timeouts hplain key disposed) fun _ => trivial
    | envReady _ _ _ uuid =>
      exact hrules.handleEnvReady (fun _ h => h) (hmeant uuid rfl) ⟨hnamed, hmeant uuid rfl⟩ _ _ _
    | envClose => exact hrules.handleEnvClose (fun _ h => h) _ _ _ _
    | openDir => exact hrules.openDir ..
    | closeDir => exact hrules.updateCache ..
    | change change | announce key => trivial

variable {w : World}

theorem clear_pass (h : Clear gone w) (event : Event) : Clear gone (pass w event) := by
  cases event with
  | delete => exact h
  | cache event =>
    cases event with
    | change change => cases change <;> exact ⟨h.plain, h.uncached, h.free, h.keyless⟩
    | announce key =>
      simp only [pass, World.pass, World.announce]
      split
      · obtain ⟨hplain, huncached, hfree, hkeyless⟩ := clear_exec (.delTimer key) w (fun _ _ => id) h
        exact ⟨hplain, huncached, hfree, hkeyless⟩
      · exact h
    | _ => exact h

/-- What is gone stays gone, unless the event is meant for it. -/
theorem clear_step (h : Clear gone w) (hnamed : Named event) :
    Clear (fun wsUuid => gone wsUuid ∧ meant event ≠ some wsUuid) (step c w event) ∧
      ∀ call ∈ Prog.calls exec (program c w event) (pass w event),
        Away (fun wsUuid => gone wsUuid ∧ meant event ≠ some wsUuid) call.2 := by
  have hrest : Clear (fun wsUuid => gone wsUuid ∧ meant event ≠ some wsUuid) w := by
    refine ⟨fun wsUuid hgone => h.plain wsUuid hgone.1, fun wsUuid hgone => h.uncached wsUuid hgone.1, ?_,
      fun wsUuid hgone => h.keyless wsUuid hgone.1⟩
    intro uid presence hpresence sessionId session hsession wsUuid hws
    obtain ⟨hplain, hnot⟩ := h.free uid presence hpresence sessionId session hsession wsUuid hws
    exact ⟨hplain, fun hgone => hnot hgone.1⟩
  have haway := away_program c w hrest.plain hnamed fun wsUuid hmeant hgone => hgone.2 hmeant
  exact haway.keeps clear_exec shows_exec (clear_pass hrest event)

theorem plain_removed {c : Settings} (hbound : PlainlyBound w) (hnamed : Named event)
    (hremoved : wsUuid ∈ removed c w event) : Plain wsUuid := by
  obtain ⟨members, rfl⟩ | ⟨key, disposed, rfl, -, hdisposal⟩ := removed_cases hremoved
  · exact hnamed
  · obtain ⟨-, ⟨hgiven, -⟩ | ⟨-, session, hsession, -, hws⟩⟩ := disposal_cases hdisposal
    · exact plain_of_mem_split (List.mem_of_mem_tail (List.mem_of_getElem? (Option.filter_eq_some_iff.mp hgiven).1))
    · exact hbound _ _ wsUuid ⟨session, hsession, (Option.filter_eq_some_iff.mp hws).1⟩

theorem Clear.loose (h : Clear gone w) {uid sessionId : String} (hbound : Bound w uid sessionId wsUuid) :
    Plain wsUuid ∧ ¬gone wsUuid := by
  obtain ⟨session, hsession, hws⟩ := hbound
  obtain ⟨presence, hpresence, hfound⟩ := Option.bind_eq_some_iff.mp hsession
  exact h.free uid presence hpresence sessionId session hfound wsUuid hws

theorem Clear.dead (h : Clear gone w) (hgone : gone wsUuid) : Dead w wsUuid :=
  ⟨fun _ _ hbound => (h.loose hbound).2 hgone, h.keyless wsUuid hgone⟩

theorem clear_record (s : Ledger) (event : Event) (h : Clear (· ∈ s.gone) s.world)
    (hevent : Named event ∧ GoneBefore s.world event) : Clear (· ∈ (record c s event).gone) (record c s event).world := by
  obtain ⟨hrest, -⟩ := clear_step c h hevent.1
  have hdead := (leavesDead_iff c s.world event).mpr hevent.2
  have hgone : ∀ wsUuid ∈ (record c s event).gone,
      wsUuid ∈ removed c s.world event ∨ wsUuid ∈ s.gone ∧ meant event ≠ some wsUuid := by
    intro wsUuid hmem
    rcases List.mem_append.mp hmem with hmem | hremoved
    · obtain ⟨hmem, hclosed⟩ := List.mem_filter.mp hmem
      -- a deletion removes what was gone already once more; only opening takes a workspace off the list
      by_cases hdeleted : ∃ members, event = .delete members wsUuid
      · obtain ⟨members, rfl⟩ := hdeleted
        exact .inl ((removed_deletion c members).mpr rfl)
      · refine .inr ⟨hmem, fun hmeant => ?_⟩
        cases event with
        | delete members uuid =>
          cases hmeant
          exact hdeleted ⟨members, rfl⟩
        | cache event =>
          cases event with
          | envReady => exact of_decide_eq_true hclosed hmeant
          | _ => cases hmeant
    · exact .inl hremoved
  constructor
  · intro wsUuid hmem
    have hbound : PlainlyBound s.world := fun _ _ _ hbound => (h.loose hbound).1
    exact (hgone wsUuid hmem).elim (plain_removed hbound hevent.1) (hrest.plain wsUuid)
  · intro wsUuid hmem
    exact (hgone wsUuid hmem).elim uncached_removed (hrest.uncached wsUuid)
  · intro uid presence hpresence sessionId session hfound wsUuid hws
    obtain ⟨hplain, hnot⟩ := hrest.free uid presence hpresence sessionId session hfound wsUuid hws
    have hbound : Bound (step c s.world event) uid sessionId wsUuid :=
      ⟨session, Option.bind_eq_some_iff.mpr ⟨presence, hpresence, hfound⟩, hws⟩
    exact ⟨hplain, fun hmem => (hgone wsUuid hmem).elim (fun hremoved => (hdead wsUuid hremoved).unbound _ _ hbound) hnot⟩
  · intro wsUuid hmem
    exact (hgone wsUuid hmem).elim (fun hremoved => (hdead wsUuid hremoved).keyless) (hrest.keyless wsUuid)

theorem leavesAlone_of_clear (s : Ledger) (event : Event) (h : Clear (· ∈ s.gone) s.world)
    (hnamed : Named event) : LeavesAlone c s event := by
  intro wsUuid hmem hmeant call hcall
  exact not_actsOn ((clear_step c h hnamed).2 call hcall) ⟨hmem, hmeant⟩

end

/-- An event leaves nothing that points to a workspace it removes exactly if the rest has gone before; and in every run in which
the rest has gone before, nothing points to a removed workspace, and nothing acts on it, until it is opened again. -/
theorem dead_until_opened (c : Settings) :
    (∀ w event, LeavesDead c w event ↔ GoneBefore w event) ∧ ∀ w events, PlainlyBound w →
        Along (record c) (fun s event => Named event ∧ GoneBefore s.world event) ⟨w, []⟩ events →
        Always (record c) (fun s => ∀ wsUuid ∈ s.gone, Dead s.world wsUuid) ⟨w, []⟩ events ∧
          Along (record c) (LeavesAlone c) ⟨w, []⟩ events := by
  refine ⟨leavesDead_iff c, fun w events hbound hevents => ?_⟩
  have hstart : Clear (· ∈ ([] : List String)) w := by
    refine ⟨by simp, by simp, fun uid presence hpresence sessionId session hfound wsUuid hws => ⟨?_, by simp⟩, by simp⟩
    exact hbound uid sessionId wsUuid ⟨session, Option.bind_eq_some_iff.mpr ⟨presence, hpresence, hfound⟩, hws⟩
  constructor
  · exact always_of_invariant (clear_record c) (fun s h wsUuid => h.dead) hstart hevents
  · refine along_of_invariant (clear_record c) (fun s event h hevent => ?_) hstart hevents
    exact leavesAlone_of_clear c s event h hevent.1

def discarded : List Event :=
  [.cache (.connect "alice" "s1" "k1" "g1"), .cache (.envReady "e1" "alice" "s1" "w1" true true), .delete ["alice"] "w1"]

theorem oneEach_discarded : OneEach (run (record .default) ⟨.empty, []⟩ (discarded.take 2)).world ["alice"] "w1" := by
  have hwritten : ∃ p q r, (run (record .default) ⟨.empty, []⟩ (discarded.take 2)).world.presence =
      update (update (update (fun _ => none) "alice" p) "alice" q) "alice" r := ⟨_, _, _, rfl⟩
  have hkeys : ∃ t t', (run (record .default) ⟨.empty, []⟩ (discarded.take 2)).world.timers =
      update (update (fun _ => none) (presenceSession "alice" "s1") t)
        (presenceWorkspace "alice" "s1" "w1") t' := ⟨_, _, rfl⟩
  have hsessions : (run (record .default) ⟨.empty, []⟩ (discarded.take 2)).world.presence "alice" =
      some (Dict.empty.set "s1" ⟨.active, "k1", "g1", some "w1"⟩) := by decide +kernel
  generalize (run (record .default) ⟨.empty, []⟩ (discarded.take 2)).world = w at hwritten hkeys hsessions ⊢
  obtain ⟨p, q, r, hwritten⟩ := hwritten
  obtain ⟨t, t', hkeys⟩ := hkeys
  have hbound : ∀ uid sessionId, Bound w uid sessionId "w1" → uid = "alice" ∧ sessionId = "s1" := by
    rintro uid sessionId ⟨session, hsession, -⟩
    obtain ⟨presence, hpresence, hfound⟩ := Option.bind_eq_some_iff.mp hsession
    have huid : uid = "alice" := by
      by_contra hother
      rw [hwritten] at hpresence
      simp [update_of_ne hother] at hpresence
    subst huid
    rw [hsessions] at hpresence
    cases hpresence
    rw [Dict.get?_set] at hfound
    split_ifs at hfound with hsame
    · exact ⟨rfl, hsame⟩
    · cases hfound
  refine ⟨fun uid sessionId h => ?_, fun uid sessionId sessionId' h h' => ?_, fun uid sessionId hkey => ?_⟩
  · obtain ⟨rfl, rfl⟩ := hbound uid sessionId h
    exact ⟨by simp, by decide⟩
  · exact (hbound uid sessionId' h').2.trans (hbound uid sessionId h).2.symm
  · refine ⟨"alice", "s1", ⟨⟨.active, "k1", "g1", some "w1"⟩, ?_, rfl⟩, ?_⟩
    · rw [World.session, hsessions]
      rfl
    · by_contra hother
      rw [hkeys, update_of_ne hother] at hkey
      have hsession : presenceWorkspace uid sessionId "w1" ≠ presenceSession "alice" "s1" :=
        presenceWorkspace_ne (by decide) (by decide)
      simp [update_of_ne hsession] at hkey

/-- Alice's next ping for the workspace leaves it alone. -/
theorem dead_discarded :
    (run (record .default) ⟨.empty, []⟩ (discarded ++ [.cache (.ping "alice" "s1" (some "w1") true)])).gone = ["w1"] ∧
      Always (record .default) (fun s => ∀ wsUuid ∈ s.gone, Dead s.world wsUuid) ⟨.empty, []⟩
        (discarded ++ [.cache (.ping "alice" "s1" (some "w1") true)]) ∧
      Along (record .default) (LeavesAlone .default) ⟨.empty, []⟩
        (discarded ++ [.cache (.ping "alice" "s1" (some "w1") true)]) := by
  refine ⟨by decide +kernel, (dead_until_opened .default).2 .empty _ ?_ ?_⟩
  · rintro uid sessionId wsUuid ⟨session, ⟨⟩, -⟩
  · refine ⟨⟨by decide, trivial⟩, ⟨by decide, trivial⟩, ⟨by decide, oneEach_discarded⟩, ⟨by decide, trivial⟩, trivial⟩

def lapsed : List Event := deserted.map .cache

def overdue : List Event :=
  [.cache (.expiry "presence:alice:s1:w1" true), .cache (.change (.wait 60000)), .cache (.announce "presence:alice:s1")]

def closed : List Event :=
  [.cache (.change (.setRow "alice" "w1" true)), .cache (.connect "alice" "s1" "k1" "g1"),
    .cache (.envReady "e1" "alice" "s1" "w1" true true), .cache (.envClose "e1" "alice" "w1" true)]

/-- An expired workspace keeps its session, whose expiry disposes of it again; a deleted workspace keeps the key
that closing it left. -/
theorem pointed_to :
    ¬LeavesDead .default (run (record .default) ⟨.empty, []⟩ lapsed).world
        (.cache (.expiry "presence:alice:s1:w1" true)) ∧
      ¬LeavesAlone .default (run (record .default) ⟨.empty, []⟩ (lapsed ++ overdue))
        (.cache (.expiry "presence:alice:s1" true)) ∧
      ¬LeavesDead .default (run (record .default) ⟨.empty, []⟩ closed).world (.delete ["alice"] "w1") := by
  refine ⟨fun h => ?_, fun h => ?_, fun h => ?_⟩
  · have hbound : ((step .default (run (record .default) ⟨.empty, []⟩ lapsed).world
        (.cache (.expiry "presence:alice:s1:w1" true))).session "alice" "s1").any
          (fun session => decide (session.wsUuid = some "w1")) = true := by decide +kernel
    obtain ⟨session, hsession, hws⟩ := (Option.any_eq_true ..).mp hbound
    exact (h "w1" (by decide +kernel)).unbound "alice" "s1" ⟨session, hsession, of_decide_eq_true hws⟩
  · have hagain : (Prog.calls exec (program .default (run (record .default) ⟨.empty, []⟩ (lapsed ++ overdue)).world
        (.cache (.expiry "presence:alice:s1" true))) (run (record .default) ⟨.empty, []⟩ (lapsed ++ overdue)).world).any
          (fun call => decide (call.2 = .fetch (.dispose "w1") true)) = true := by decide +kernel
    obtain ⟨call, hcall, hdispose⟩ := List.any_eq_true.mp hagain
    refine h "w1" (by decide +kernel) (by decide) call hcall ?_
    rw [of_decide_eq_true hdispose]
    rfl
  · have hkey := (h "w1" (by decide +kernel)).keyless "alice" "s1"
    revert hkey
    decide +kernel

end HideServer.Cache.Teardown
