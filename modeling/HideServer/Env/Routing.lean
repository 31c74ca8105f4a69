import HideServer.Env.Signals

/-!
# Who gets which events

`sync` drops the writes of a batch that are no news and collects the others for the users who watch
their paths. The loop does not end if a hash is asked of an instance without the document, and a reply
equals no hash. The answers are those of one moment here; `batches_sync` connects the two.
-/

namespace HideServer.Env.Events

open Async Async.Prog Site List DocHash
open Cache hiding exec

variable {U : Type}

/-! ### `sync`, with the answers it gets -/

@[ext]
structure Answers where
  presence : String → Option CachedPresence
  /-- The hash of a document of this instance, if there is one. -/
  computeHash : Nat → Option String
  /-- What another instance replies, if it has the document. -/
  requestHash : InstanceId → Nat → Option Packet
  fileHash : FSEvent → String
  /-- The users of a document of this instance, if there is one. -/
  users : Nat → Option (List String)

/-- A message to a session. -/
structure Delivery where
  uid : String
  sessionId : String
  events : List FSEvent
  deriving DecidableEq, Repr

namespace Answers

variable (a : Answers) (me : InstanceId) (wCache : CachedWorkspace)

/-- The reply of another instance; there is none but with a hash. -/
def reply (owner : InstanceId) (ino : Nat) : Option Packet :=
  (a.requestHash owner ino).filter fun packet => packet.data ≠ ""

/-- The hash of the document of a file, if it has one; without a reply there is nothing at all. -/
def getDocHash (ino : Nat) : Option (Option DocHash) :=
  match named (wCache.docs.get? ino) with
  | none => some none
  | some owner =>
    if owner = me then some ((a.computeHash ino).map .hash)
    else (a.reply owner ino).map fun packet => some (.reply packet)

/-- The test of hashes for one event. -/
def examine (event : FSEvent) : Verdict :=
  if event.writes then
    match event.ino with
    | none => .skip
    | some ino =>
      match a.getDocHash me wCache ino with
      | none => .stop
      | some docHash =>
        match docHash.filter truthy with
        | none => .skip
        | some docHash =>
          if docHash.same (a.fileHash event) then .skip
          -- `pickOne` throws
          else if a.users ino = some [] then .stop
          else .pass
  else .pass

/-- The loop of `sync`. -/
def gather : List FSEvent → Dict String (List FSEvent) → Option (Dict String (List FSEvent))
  | [], batches => some batches
  | event :: events, batches =>
    match a.examine me wCache event with
    | .stop => none
    | .skip => gather events batches
    | .pass => gather events (enlist wCache event batches)

variable (uuid : String)

def sendBatches (batches : Dict String (List FSEvent)) : List Delivery :=
  batches.keys.filterMap fun uid =>
    (sessionId uuid (a.presence uid)).map fun sid => ⟨uid, sid, gathered batches uid⟩

variable (batch : List FSEvent) (event : FSEvent)

def sync (cached : Option CachedWorkspace) (batch : List FSEvent) : List Delivery :=
  match cached with
  | none => []
  | some wCache =>
    match a.gather me wCache batch .empty with
    | none => []
    | some batches => a.sendBatches uuid batches

/-! ### What a user should get -/

/-- What is known of the document of the event's file. -/
def known : Option DocHash :=
  event.ino.bind fun ino => (named (wCache.docs.get? ino)).bind fun owner =>
    if owner = me then (given (a.computeHash ino)).map .hash else (a.reply owner ino).map .reply

/-- The hash of the document of the event's file, wherever the document is. -/
def docHash : Option String := (a.known me wCache event).map hex

/-- A write is left if there is a hash of the document, and it is not that of the file. -/
def Remains : Prop :=
  event.writes = true → ∃ docHash ∈ a.docHash me wCache event, a.fileHash event ≠ docHash
  deriving Decidable

/-- What the test of hashes lets through. -/
def Passes : Prop :=
  event.writes = true → ∃ docHash ∈ a.known me wCache event, ¬docHash.same (a.fileHash event)
  deriving Decidable

/-- What a user should get. -/
def due (uid : String) : List FSEvent :=
  (batch.filter fun event => a.Remains me wCache event ∧ uid ∈ audience wCache.dirs event).map rooted

/-- What is collected for a user. -/
def collected (uid : String) : List FSEvent :=
  (batch.filter fun event => a.Passes me wCache event ∧ uid ∈ audience wCache.dirs event).map rooted

/-- Each user who is in the workspace and for whom there is something gets it in one message, and nobody else gets
any. -/
def RoutesExactly : Prop :=
  ∀ uid, (a.sync me uuid (some wCache) batch).filter (·.uid = uid) =
    if a.due me wCache batch uid = [] then []
    else ((sessionId uuid (a.presence uid)).map fun sid => ⟨uid, sid, a.due me wCache batch uid⟩).toList

/-- A write of a file whose document is said to be on another instance, which has none; or one that makes a conflict
for a document without users. -/
def Halts : Prop :=
  event.writes = true ∧ ∃ ino ∈ event.ino,
    (∃ owner ∈ named (wCache.docs.get? ino), owner ≠ me ∧ a.reply owner ino = none) ∨
      a.Passes me wCache event ∧ a.users ino = some []
  deriving Decidable

/-- A write that is no news and that is passed on to somebody who is in the workspace. -/
def Repeats : Prop :=
  a.Passes me wCache event ∧ ¬a.Remains me wCache event ∧
    ∃ uid ∈ audience wCache.dirs event, (sessionId uuid (a.presence uid)).isSome
  deriving Decidable

end Answers

section

variable {a : Answers} {me : InstanceId} {wCache : CachedWorkspace} {event : FSEvent} {batch : List FSEvent}
  {uuid uid : String}

namespace Answers

variable (a me wCache) in
/-- There is no answer exactly if another instance is asked in vain. -/
theorem getDocHash_spec {ino : Nat} (hino : event.ino = some ino) :
    (a.getDocHash me wCache ino = none ∧
      ∃ owner ∈ named (wCache.docs.get? ino), owner ≠ me ∧ a.reply owner ino = none) ∨
    (∃ docHash, a.getDocHash me wCache ino = some docHash ∧ docHash.filter truthy = a.known me wCache event) ∧
      ¬∃ owner ∈ named (wCache.docs.get? ino), owner ≠ me ∧ a.reply owner ino = none := by
  simp only [getDocHash, known, hino, Option.bind_some]
  cases howner : named (wCache.docs.get? ino) with
  | none => exact .inr ⟨⟨none, rfl, rfl⟩, by simp⟩
  | some owner =>
    by_cases hme : owner = me
    · refine .inr ⟨⟨(a.computeHash ino).map .hash, by simp [hme], ?_⟩, by simp [hme]⟩
      simp [hme, given, Option.filter_map, Function.comp_def, truthy]
    · cases hreply : a.reply owner ino with
      | none => exact .inl ⟨by simp [hme, hreply], owner, rfl, hme, hreply⟩
      | some packet =>
        refine .inr ⟨⟨some (.reply packet), by simp [hme, hreply], ?_⟩, by simp [hreply]⟩
        simp [hme, hreply, truthy]

theorem examine_eq_stop (h : a.Halts me wCache event) : a.examine me wCache event = .stop := by
  obtain ⟨hwrites, ino, hino, hhalts⟩ := h
  unfold examine
  rw [if_pos hwrites, Option.mem_def.mp hino]
  rcases getDocHash_spec a me wCache hino with ⟨hnone, -⟩ | ⟨⟨docHash, hdocHash, hknown⟩, hreplies⟩
  · simp only [hnone]
  · obtain ⟨hpasses, husers⟩ := hhalts.resolve_left hreplies
    obtain ⟨known, hmem, hdiffers⟩ := hpasses hwrites
    simp only [hdocHash, hknown, Option.mem_def.mp hmem, if_neg hdiffers, husers, if_true]

theorem passes_iff (hwrites : event.writes = true) :
    a.Passes me wCache event ↔ ∃ docHash ∈ a.known me wCache event, ¬docHash.same (a.fileHash event) :=
  ⟨fun h => h hwrites, fun h _ => h⟩

theorem examine_of_not_halts (h : ¬a.Halts me wCache event) :
    a.examine me wCache event = if a.Passes me wCache event then .pass else .skip := by
  unfold examine
  by_cases hwrites : event.writes = true
  · simp only [hwrites, if_true, passes_iff hwrites]
    cases hino : event.ino with
    | none =>
      have hnone : a.known me wCache event = none := by simp [known, hino]
      simp [hnone]
    | some ino =>
      rcases getDocHash_spec a me wCache hino with ⟨-, hsilent⟩ | ⟨⟨docHash, hdocHash, hknown⟩, -⟩
      · exact absurd ⟨hwrites, ino, hino, .inl hsilent⟩ h
      · simp only [hdocHash, hknown]
        cases hdoc : a.known me wCache event with
        | none => simp
        | some known =>
          by_cases hsame : known.same (a.fileHash event) = true
          · simp [hsame]
          · -- the event is passed on, so the document has users
            have hpasses : a.Passes me wCache event := (passes_iff hwrites).mpr ⟨known, hdoc, hsame⟩
            have husers : a.users ino ≠ some [] :=
              fun husers => h ⟨hwrites, ino, hino, .inr ⟨hpasses, husers⟩⟩
            simp [hsame, husers]
  · have hpasses : a.Passes me wCache event := fun hwrites' => absurd hwrites' hwrites
    rw [if_neg hwrites, if_pos hpasses]

theorem Remains.passes (h : a.Remains me wCache event) : a.Passes me wCache event := by
  intro hwrites
  obtain ⟨hash, hhash, hdiffers⟩ := h hwrites
  obtain ⟨known, hknown, rfl⟩ := Option.map_eq_some_iff.mp hhash
  refine ⟨known, hknown, ?_⟩
  cases known with
  | hash hex => simpa [DocHash.same, DocHash.hex] using hdiffers
  | reply packet => simp [DocHash.same]

@[simp] theorem collected_nil (uid : String) : a.collected me wCache [] uid = [] := rfl

theorem collected_append (left right : List FSEvent) (uid : String) :
    a.collected me wCache (left ++ right) uid = a.collected me wCache left uid ++ a.collected me wCache right uid := by
  simp [collected]

theorem collected_singleton (uid : String) : a.collected me wCache [event] uid =
    if a.Passes me wCache event ∧ uid ∈ audience wCache.dirs event then [rooted event] else [] := by
  unfold collected
  split_ifs <;> simp_all

/-- A user gets what is for them if none of the events they get is no news. -/
theorem collected_eq_due_iff (uid : String) : a.collected me wCache batch uid = a.due me wCache batch uid ↔
    ∀ event ∈ batch, a.Passes me wCache event → uid ∈ audience wCache.dirs event → a.Remains me wCache event := by
  have hdue : a.due me wCache batch uid =
      ((batch.filter fun event => a.Passes me wCache event ∧ uid ∈ audience wCache.dirs event).filter
        fun event => a.Remains me wCache event).map rooted := by
    rw [filter_filter, due]
    congr 1
    refine filter_congr fun event _ => ?_
    have hpasses : a.Remains me wCache event → a.Passes me wCache event := Remains.passes
    by_cases hremains : a.Remains me wCache event <;> simp [hremains, hpasses]
  rw [hdue, collected]
  constructor
  · intro heq event hevent hpasses hwatches
    have hlength := congrArg length heq
    rw [length_map, length_map] at hlength
    have hall := length_filter_eq_length_iff.mp hlength.symm event
    simpa [hevent, hpasses, hwatches] using hall
  · intro hall
    congr 1
    refine (filter_eq_self.mpr fun event hevent => ?_).symm
    simp only [mem_filter, decide_eq_true_eq] at hevent
    exact decide_eq_true (hall event hevent.1 hevent.2.1 hevent.2.2)

theorem gather_of_halts (hhalts : ∃ event ∈ batch, a.Halts me wCache event) (batches : Dict String (List FSEvent)) :
    a.gather me wCache batch batches = none := by
  induction batch generalizing batches with
  | nil => simp at hhalts
  | cons event batch ih =>
    unfold gather
    by_cases hevent : a.Halts me wCache event
    · rw [examine_eq_stop hevent]
    · have hlater : ∃ event ∈ batch, a.Halts me wCache event := by
        obtain ⟨other, hother, hhalts⟩ := hhalts
        rcases mem_cons.mp hother with rfl | hother
        · exact absurd hhalts hevent
        · exact ⟨other, hother, hhalts⟩
      rw [examine_of_not_halts hevent]
      split_ifs
      · exact ih hlater _
      · exact ih hlater _

/-- The loop collects for each user what passes. -/
structure Gathers (a : Answers) (me : InstanceId) (wCache : CachedWorkspace) (batch : List FSEvent)
    (before after : Dict String (List FSEvent)) : Prop where
  events : ∀ uid, gathered after uid = gathered before uid ++ a.collected me wCache batch uid
  users : ∀ uid, uid ∈ after.keys ↔ uid ∈ before.keys ∨ a.collected me wCache batch uid ≠ []

theorem Gathers.append {left right : List FSEvent} {before between after : Dict String (List FSEvent)}
    (hleft : Gathers a me wCache left before between) (hright : Gathers a me wCache right between after) :
    Gathers a me wCache (left ++ right) before after where
  events uid := by rw [hright.events, hleft.events, collected_append, append_assoc]
  users uid := by
    rw [hright.users, hleft.users, collected_append, ne_eq, ne_eq, ne_eq, append_eq_nil_iff, not_and_or, or_assoc]

theorem gathers_enlist (hnodup : ∀ path uids, wCache.dirs.get? path = some uids → uids.Nodup)
    (hpasses : a.Passes me wCache event) (batches : Dict String (List FSEvent)) :
    Gathers a me wCache [event] batches (enlist wCache event batches) := by
  have haudience : (audience wCache.dirs event).Nodup := by
    unfold audience watchers
    cases hdirs : wCache.dirs.get? (rooted event).watchedPath with
    | none => exact nodup_nil
    | some uids => exact hnodup _ uids hdirs
  refine ⟨fun uid => ?_, fun uid => ?_⟩
  · rw [gathered_enlist, collected_singleton, haudience.count]
    by_cases hwatches : uid ∈ audience wCache.dirs event <;> simp [hwatches, hpasses]
  · rw [mem_keys_enlist, collected_singleton]
    by_cases hwatches : uid ∈ audience wCache.dirs event <;> simp [hwatches, hpasses]

theorem gathers_skip (hgone : ¬a.Passes me wCache event) (batches : Dict String (List FSEvent)) :
    Gathers a me wCache [event] batches batches :=
  ⟨fun uid => by simp [collected_singleton, hgone], fun uid => by simp [collected_singleton, hgone]⟩

theorem gather_of_not_halts (hnodup : ∀ path uids, wCache.dirs.get? path = some uids → uids.Nodup)
    (hgoes : ∀ event ∈ batch, ¬a.Halts me wCache event) (batches : Dict String (List FSEvent)) :
    ∃ after, a.gather me wCache batch batches = some after ∧ Gathers a me wCache batch batches after := by
  induction batch generalizing batches with
  | nil => exact ⟨batches, rfl, fun uid => by simp, fun uid => by simp⟩
  | cons event batch ih =>
    obtain ⟨hevent, hgoes⟩ := forall_mem_cons.mp hgoes
    unfold gather
    rw [examine_of_not_halts hevent]
    split_ifs with hpasses
    · obtain ⟨after, hafter, hgathers⟩ := ih hgoes (enlist wCache event batches)
      exact ⟨after, hafter, (gathers_enlist hnodup hpasses batches).append hgathers⟩
    · obtain ⟨after, hafter, hgathers⟩ := ih hgoes batches
      exact ⟨after, hafter, (gathers_skip hpasses batches).append hgathers⟩

/-! ### What is sent -/

theorem filter_filterMap_uid {deliver : String → Option Delivery}
    (hdeliver : ∀ uid, ∀ sent ∈ deliver uid, sent.uid = uid) {uids : List String} (hnodup : uids.Nodup) (uid : String) :
    (uids.filterMap deliver).filter (·.uid = uid) = if uid ∈ uids then (deliver uid).toList else [] := by
  induction uids with
  | nil => rfl
  | cons other uids ih =>
    obtain ⟨hnew, hlater⟩ := nodup_cons.mp hnodup
    rw [filterMap_cons]
    by_cases hother : uid = other
    · subst hother
      have hrest : (uids.filterMap deliver).filter (·.uid = uid) = [] := by rw [ih hlater, if_neg hnew]
      cases hsent : deliver uid with
      | none => simpa [hsent] using hrest
      | some sent => simpa [hsent, hdeliver uid sent hsent] using hrest
    · cases hsent : deliver other with
      | none => simpa [hother] using ih hlater
      | some sent =>
        have hto : sent.uid ≠ uid := fun heq => hother (heq.symm.trans (hdeliver other sent hsent))
        simpa [hother, hto] using ih hlater

theorem filter_sendBatches (batches : Dict String (List FSEvent)) (uid : String) :
    (a.sendBatches uuid batches).filter (·.uid = uid) =
      if uid ∈ batches.keys then
        ((sessionId uuid (a.presence uid)).map fun sid => ⟨uid, sid, gathered batches uid⟩).toList
      else [] := by
  refine filter_filterMap_uid (fun uid sent hsent => ?_) batches.nodup uid
  obtain ⟨sid, -, rfl⟩ := Option.map_eq_some_iff.mp hsent
  rfl

theorem routesExactly_iff_of_not_halts (hnodup : ∀ path uids, wCache.dirs.get? path = some uids → uids.Nodup)
    (hgoes : ∀ event ∈ batch, ¬a.Halts me wCache event) (uuid : String) :
    a.RoutesExactly me wCache uuid batch ↔ ∀ event ∈ batch, ¬a.Repeats me wCache uuid event := by
  obtain ⟨batches, hbatches, hgathers⟩ := gather_of_not_halts hnodup hgoes .empty
  have hevents (uid : String) : gathered batches uid = a.collected me wCache batch uid := hgathers.events uid
  have husers (uid : String) : uid ∈ batches.keys ↔ a.collected me wCache batch uid ≠ [] := by
    rw [hgathers.users]
    exact or_iff_right not_mem_nil
  have hexact : a.RoutesExactly me wCache uuid batch ↔
      ∀ uid, (sessionId uuid (a.presence uid)).isSome → a.collected me wCache batch uid = a.due me wCache batch uid := by
    refine forall_congr' fun uid => ?_
    simp only [sync, hbatches, filter_sendBatches, hevents, husers, ite_not]
    cases sessionId uuid (a.presence uid) with
    | none => simp
    | some sid =>
      by_cases hnone : a.collected me wCache batch uid = [] <;> by_cases hdue : a.due me wCache batch uid = [] <;>
        simp [hnone, hdue, eq_comm]
  rw [hexact]
  constructor
  · rintro hall event hevent ⟨hpasses, hgone, uid, hwatches, hsession⟩
    exact hgone ((collected_eq_due_iff uid).mp (hall uid hsession) event hevent hpasses hwatches)
  · intro hall uid hsession
    refine (collected_eq_due_iff uid).mpr fun event hevent hpasses hwatches => ?_
    by_contra hgone
    exact hall event hevent ⟨hpasses, hgone, uid, hwatches, hsession⟩

theorem routesExactly_iff_of_halts (hhalts : ∃ event ∈ batch, a.Halts me wCache event) (uuid : String) :
    a.RoutesExactly me wCache uuid batch ↔
      ∀ uid, (sessionId uuid (a.presence uid)).isSome → a.due me wCache batch uid = [] := by
  unfold RoutesExactly
  simp only [sync, gather_of_halts hhalts, filter_nil]
  refine forall_congr' fun uid => ?_
  cases sessionId uuid (a.presence uid) with
  | none => simp
  | some sid =>
    by_cases hdue : a.due me wCache batch uid = [] <;> simp [hdue]

end Answers

/-- Every user gets exactly what is for them if and only if no event of the batch halts the loop and none is passed on
that is no news, or one halts the loop and there is nothing for anybody in the workspace. -/
theorem routesExactly_iff (a : Answers) (me : InstanceId) (wCache : CachedWorkspace) (uuid : String)
    (batch : List FSEvent) (hnodup : ∀ path uids, wCache.dirs.get? path = some uids → uids.Nodup) :
    a.RoutesExactly me wCache uuid batch ↔
      (∀ event ∈ batch, ¬a.Halts me wCache event ∧ ¬a.Repeats me wCache uuid event) ∨
        (∃ event ∈ batch, a.Halts me wCache event) ∧
          ∀ uid, (sessionId uuid (a.presence uid)).isSome → a.due me wCache batch uid = [] := by
  by_cases hhalts : ∃ event ∈ batch, a.Halts me wCache event
  · rw [Answers.routesExactly_iff_of_halts hhalts uuid]
    refine ⟨fun hnothing => .inr ⟨hhalts, hnothing⟩, fun h => ?_⟩
    rcases h with hgoes | ⟨-, hnothing⟩
    · obtain ⟨event, hevent, hhalts⟩ := hhalts
      exact absurd hhalts (hgoes event hevent).1
    · exact hnothing
  · have hgoes : ∀ event ∈ batch, ¬a.Halts me wCache event := by
      intro event hevent hevent'
      exact hhalts ⟨event, hevent, hevent'⟩
    rw [Answers.routesExactly_iff_of_not_halts hnodup hgoes uuid]
    refine ⟨fun hnone => .inl fun event hevent => ⟨hgoes event hevent, hnone event hevent⟩, fun h => ?_⟩
    rcases h with hboth | ⟨hsome, -⟩
    · exact fun event hevent => (hboth event hevent).2
    · exact absurd hsome hhalts

end

def aliceAlone : Answers where
  presence uid := if uid = "alice" then some (Dict.empty.set "s1" ⟨.active, "k1", "g1", some "w1"⟩) else none
  computeHash _ := none
  requestHash _ _ := none
  fileHash _ := "lines"
  users _ := none

/-- The document on the other instance has the text of the file. -/
def inStep : Answers := { aliceAlone with requestHash := fun _ _ => some ⟨"lines"⟩ }

def rootCached (owner : String) : CachedWorkspace := ⟨.active, "e1", rootDirs, Dict.empty.set 7 owner, .empty⟩

def rewritten : FSEvent := ⟨"/workspace", "/workspace/notes", none, some 7, .write, 0, .file⟩

theorem nodup_rootCached (owner : String) :
    ∀ path uids, (rootCached owner).dirs.get? path = some uids → uids.Nodup := by
  intro path uids huids
  simp only [rootCached, rootDirs, Dict.get?_set, Dict.get?_empty] at huids
  split_ifs at huids
  cases huids
  exact nodup_singleton _

/-- The note names the instance itself, which has no document any more. -/
theorem routesExactly_rootCached :
    aliceAlone.due e1 (rootCached "e1") [rewritten, created] "alice" = [rooted created] ∧
      aliceAlone.RoutesExactly e1 (rootCached "e1") "w1" [rewritten, created] := by
  have hgoes : ∀ event ∈ [rewritten, created],
      ¬aliceAlone.Halts e1 (rootCached "e1") event ∧ ¬aliceAlone.Repeats e1 (rootCached "e1") "w1" event := by decide
  exact ⟨by decide, (routesExactly_iff _ _ _ _ _ (nodup_rootCached "e1")).mpr (.inl hgoes)⟩

/-- The note names another instance. If that one has no document any more, Alice does not get the event of the other
file; if it has one with the text of the file, Alice gets the write as well. -/
theorem unrouted_rootCached :
    (∀ path uids, (rootCached "e2").dirs.get? path = some uids → uids.Nodup) ∧
      (aliceAlone.due e1 (rootCached "e2") [rewritten, created] "alice" = [rooted created] ∧
        aliceAlone.sync e1 "w1" (some (rootCached "e2")) [rewritten, created] = [] ∧
        ¬aliceAlone.RoutesExactly e1 (rootCached "e2") "w1" [rewritten, created]) ∧
      inStep.due e1 (rootCached "e2") [rewritten, created] "alice" = [rooted created] ∧
      inStep.sync e1 "w1" (some (rootCached "e2")) [rewritten, created] =
        [⟨"alice", "s1", [rooted rewritten, rooted created]⟩] ∧
      ¬inStep.RoutesExactly e1 (rootCached "e2") "w1" [rewritten, created] := by
  refine ⟨nodup_rootCached "e2", ⟨by decide, by decide, fun hexact => ?_⟩, by decide, by decide, fun hexact => ?_⟩
  · exact absurd (hexact "alice") (by decide)
  · exact absurd (hexact "alice") (by decide)

/-! ### The commands of `sync` -/

/-- The answers to the commands, as the instances and the cache are. -/
def answersOf (c : Setting U) (me : InstanceId) (s : Site.State U) : Answers where
  presence := s.world.presence
  computeHash ino := (s.doc me (c.file ino)).map fun found => c.hash found.2.text
  requestHash other ino := (s.doc other (c.file ino)).map fun found => ⟨c.hash found.2.text⟩
  fileHash event := event.ino.elim "" fun ino => (exec c (.fetchHash me ino) s).1
  users ino := (s.doc me (c.file ino)).map fun found => found.2.users

def delivery? (call : Site.State U × Command U) : Option Delivery :=
  match call.2 with
  | .emit (.batch uid sid events) => some ⟨uid, sid, events⟩
  | _ => none

def SendsNoBatch : Command U → Prop
  | .emit (.batch ..) => False
  | _ => True

section

variable {c : Setting U} {me : InstanceId} {wCache : CachedWorkspace} {event : FSEvent} {s t : Site.State U}

theorem delivery?_eq_none {call : Site.State U × Command U} (h : SendsNoBatch call.2) : delivery? call = none := by
  unfold delivery?
  split
  · rename_i hcommand
    rw [hcommand] at h
    cases h
  · rfl

theorem filterMap_delivery? {α : Type} {p : Site.Io U α} (hp : p.Only SendsNoBatch) (s : Site.State U) :
    (calls (exec c) p s).filterMap delivery? = [] :=
  filterMap_eq_nil_iff.mpr fun _ hcall => delivery?_eq_none (hp.of_mem_calls hcall)

theorem sendsNoBatch_sessions (uuid : String) (uids : List String) :
    (sessions uuid uids : Site.Io U _).Only SendsNoBatch := by
  refine only_activeSessions (fun uid => ?_) uuid uids
  exact .single trivial

theorem sendsNoBatch_flag (uuid : String) (ino : Nat) : (flag uuid me ino : Site.Io U Verdict).Only SendsNoBatch := by
  refine .perform_bind trivial fun marked => ?_
  cases marked with
  | none => trivial
  | some marked =>
    obtain ⟨users, conflictResolver⟩ := marked
    cases conflictResolver with
    | none => trivial
    | some conflictResolver =>
      refine .bind (.bind (sendsNoBatch_sessions uuid users) fun active => ?_) fun _ => trivial
      exact .each active fun _ _ => .single trivial

theorem sendsNoBatch_check (uuid : String) (ino : Nat) :
    (check uuid me wCache ino : Site.Io U Verdict).Only SendsNoBatch := by
  have hhash : (getDocHash me ino wCache : Site.Io U _).Only SendsNoBatch := by
    unfold getDocHash
    cases named (wCache.docs.get? ino) with
    | none => trivial
    | some owner => exact .ite (.single trivial) (.single trivial)
  refine hhash.bind fun docHash => ?_
  cases docHash with
  | none => trivial
  | some docHash =>
    show (compareHash uuid me ino docHash : Site.Io U Verdict).Only SendsNoBatch
    unfold compareHash
    cases docHash.filter truthy with
    | none => trivial
    | some docHash => exact .perform_bind trivial fun _ => .ite trivial (sendsNoBatch_flag uuid ino)

theorem sendsNoBatch_gather (uuid : String) (batch : List FSEvent) (batches : Dict String (List FSEvent)) :
    (gather uuid me wCache batch batches : Site.Io U _).Only SendsNoBatch := by
  induction batch generalizing batches with
  | nil => trivial
  | cons event batch ih =>
    have hexamine : (examine uuid me wCache event : Site.Io U Verdict).Only SendsNoBatch := by
      refine .ite ?_ trivial
      cases event.ino with
      | none => trivial
      | some ino => exact sendsNoBatch_check uuid ino
    refine hexamine.bind fun verdict => ?_
    cases verdict with
    | stop => trivial
    | skip => exact ih batches
    | pass => exact ih (enlist wCache event batches)

/-- Users and text of a document. -/
def seen (s : Site.State U) (i : InstanceId) (file : Sync.File) : Option (List String × List U) :=
  (s.doc i file).map fun found => (found.2.users, found.2.text)

theorem seen_of_bare (h : t.bare me = s.bare me) (i : InstanceId) (file : Sync.File) : seen t i file = seen s i file := by
  unfold seen
  by_cases hi : i = me
  · subst hi
    cases hdoc : s.doc i file with
    | none => rw [doc_none_of_bare h hdoc]
    | some found =>
      obtain ⟨doc', hdoc', husers, htext⟩ := doc_of_bare h hdoc
      simp only [hdoc', Option.map_some, husers, htext]
  · unfold State.doc
    rw [(elsewhere_of_bare h hi).1]

theorem answersOf_of_bare (h : t.bare me = s.bare me) : answersOf c me t = answersOf c me s := by
  have husers : ∀ s : Site.State U, (answersOf c me s).users = fun ino => (seen s me (c.file ino)).map Prod.fst := by
    simp [answersOf, seen, Function.comp_def]
  have hhash : ∀ (s : Site.State U) other, (answersOf c me s).requestHash other =
      fun ino => (seen s other (c.file ino)).map fun found => ⟨c.hash found.2⟩ := by
    simp [answersOf, seen, Function.comp_def]
  have hown : ∀ s : Site.State U, (answersOf c me s).computeHash =
      fun ino => (seen s me (c.file ino)).map fun found => c.hash found.2 := by
    simp [answersOf, seen, Function.comp_def]
  have hfiles : (answersOf c me t).fileHash = (answersOf c me s).fileHash := by
    simp only [answersOf, exec, chance_of_bare h, files_of_bare h]
  have hsame : (answersOf c me t).computeHash = (answersOf c me s).computeHash := by
    rw [hown, hown]
    simp only [seen_of_bare h]
  have hothers : (answersOf c me t).requestHash = (answersOf c me s).requestHash := by
    funext other
    rw [hhash, hhash]
    simp only [seen_of_bare h]
  have hclients : (answersOf c me t).users = (answersOf c me s).users := by
    rw [husers, husers]
    simp only [seen_of_bare h]
  have hpresence : (answersOf c me t).presence = (answersOf c me s).presence := by
    simp only [answersOf, world_of_bare h]
  exact Answers.ext hpresence hsame hothers hfiles hclients

theorem run_flag (ino : Nat) (s : Site.State U) :
    (run (exec c) (flag c.uuid me ino) s).1 = if (answersOf c me s).users ino = some [] then .stop else .pass := by
  cases hdoc : s.doc me (c.file ino) with
  | none => simp [flag, exec, hdoc, answersOf]
  | some found =>
    by_cases husers : found.2.users = []
    · simp [flag, exec, hdoc, answersOf, husers, pickOne]
    · obtain ⟨uid, -, hpick⟩ := pickOne_mem s.chance.draw husers
      simp [flag, exec, hdoc, answersOf, husers, hpick]

section

variable (hhash : ∀ text, c.hash text ≠ "")

include hhash

theorem run_getDocHash (ino : Nat) (s : Site.State U) :
    run (exec c) (getDocHash me ino wCache) s = ((answersOf c me s).getDocHash me wCache ino, s) := by
  unfold getDocHash Answers.getDocHash
  cases named (wCache.docs.get? ino) with
  | none => rfl
  | some owner =>
    by_cases howner : owner = me
    · simp [howner, exec, answersOf]
    · have hreply : (answersOf c me s).reply owner ino = (answersOf c me s).requestHash owner ino := by
        simp only [Answers.reply, answersOf]
        cases s.doc owner (c.file ino) with
        | none => rfl
        | some found => simp [Option.filter, hhash]
      simp only [if_neg howner, hreply]
      simp [exec, answersOf]

theorem run_examine (event : FSEvent) (s : Site.State U) :
    (run (exec c) (examine c.uuid me wCache event) s).1 = (answersOf c me s).examine me wCache event := by
  unfold examine Answers.examine
  by_cases hwrites : event.writes = true
  · rw [if_pos hwrites, if_pos hwrites]
    cases hino : event.ino with
    | none => rfl
    | some ino =>
      simp only [check, run_bind, run_getDocHash hhash]
      cases (answersOf c me s).getDocHash me wCache ino with
      | none => rfl
      | some docHash =>
        simp only [compareHash]
        cases docHash.filter truthy with
        | none => rfl
        | some docHash =>
          have hfile : (answersOf c me s).fileHash event = (exec c (.fetchHash me ino) s).1 := by
            simp [answersOf, hino]
          simp only [perform_bind, run_await, hfile]
          split_ifs with hsame husers
          · rfl
          · rw [show (exec c (.fetchHash me ino) s).2 = s from rfl, run_flag, if_pos husers]
          · rw [show (exec c (.fetchHash me ino) s).2 = s from rfl, run_flag, if_neg husers]
  · rw [if_neg hwrites, if_neg hwrites]
    rfl

theorem run_gather (batch : List FSEvent) (batches : Dict String (List FSEvent)) (s : Site.State U) :
    (run (exec c) (gather c.uuid me wCache batch batches) s).1 =
      (answersOf c me s).gather me wCache batch batches := by
  induction batch generalizing batches s with
  | nil => rfl
  | cons event batch ih =>
    have hbare := bare_run_of_syncs (c := c) (syncs_examine c.uuid me wCache event) s
    unfold gather Answers.gather
    rw [run_bind, run_examine hhash]
    cases (answersOf c me s).examine me wCache event with
    | stop => rfl
    | skip => rw [← answersOf_of_bare (c := c) hbare]; exact ih batches _
    | pass => rw [← answersOf_of_bare (c := c) hbare]; exact ih (enlist wCache event batches) _

end

theorem filterMap_sendBatches (batches : Dict String (List FSEvent)) (t : Site.State U) :
    (calls (exec c) (sendBatches c.uuid batches) t).filterMap delivery? =
      (answersOf c me t).sendBatches c.uuid batches := by
  have hquiet := filterMap_delivery? (c := c) (sendsNoBatch_sessions c.uuid batches.keys) t
  unfold sendBatches Answers.sendBatches
  rw [calls_bind, filterMap_append, hquiet, nil_append, run_sessions, calls_each, filterMap_map]
  induction batches.keys with
  | nil => rfl
  | cons uid uids ih =>
    rw [flatMap_cons, filterMap_append, ih, filterMap_cons]
    simp only [answersOf]
    cases sessionId c.uuid (t.world.presence uid) <;> rfl

/-- What `sync` sends as batches, when it runs alone, is what it makes of the answers. -/
theorem batches_sync (hhash : ∀ text, c.hash text ≠ "") (me : InstanceId) (batch : List FSEvent) (s : Site.State U) :
    (syncCalls c me batch s).filterMap delivery? =
      (answersOf c me s).sync me c.uuid (s.world.workspace c.uuid) batch := by
  cases hcached : s.world.workspace c.uuid with
  | none => simp [syncCalls, sync, exec, hcached, Answers.sync, delivery?]
  | some wCache =>
    have hquiet : (calls (exec c) (gather c.uuid me wCache batch .empty) s).filterMap delivery? = [] :=
      filterMap_delivery? (sendsNoBatch_gather c.uuid batch .empty) s
    have hbare := bare_run_of_syncs (c := c) (syncs_gather c.uuid me wCache batch .empty) s
    have hfirst : delivery? ((s, .getWorkspace) : Site.State U × Command U) = none := rfl
    simp only [syncCalls_eq hcached, distribute, calls_bind, filterMap_cons, hfirst, filterMap_append,
      hquiet, run_gather hhash, Answers.sync, nil_append]
    cases (answersOf c me s).gather me wCache batch .empty with
    | none => rfl
    | some batches =>
      rw [← answersOf_of_bare (c := c) hbare]
      exact filterMap_sendBatches batches _

theorem batches_sync_created :
    (syncCalls w1 e1 [created] (.start (rootWatched .empty) fun _ => [])).filterMap delivery? =
      (answersOf w1 e1 (.start (rootWatched .empty) fun _ => [])).sync e1 "w1"
        ((rootWatched .empty).workspace "w1") [created] :=
  batches_sync (c := w1) (by rintro (_ | ⟨_, _ | _⟩) <;> simp [w1]) e1 _ _

end

end HideServer.Env.Events
