import HideServer.Async.Triple
import HideServer.Env.Moves

/-!
# Conflicts of documents on other instances

The hash of a document is asked of the instance that holds it, but the document to be marked is looked
up on the receiving instance only. `sync` runs alone here.
-/

namespace HideServer.Env.Site

open Async Async.Prog Cache Sync Function List State

variable {U : Type}

/-- Every open document is on one instance, and has users. -/
structure Assigned (s : State U) : Prop where
  single : ∀ {i j file found found'}, s.doc i file = some found → s.doc j file = some found' → i = j
  users : ∀ {i file found}, s.doc i file = some found → found.2.users ≠ []

theorem Standing.assigned {s : State U} (h : Standing s)
    (hsingle : ∀ {i j file found found'}, s.doc i file = some found → s.doc j file = some found' → i = j) :
    Assigned s where
  single := hsingle
  users hfound := (h.found hfound).2.2.2

variable (c : Setting U) (me : InstanceId)

def syncCalls (batch : List FSEvent) (s : State U) : List (State U × Command U) :=
  calls (exec c) (sync c.uuid me batch) s

/-- The state after `sync`. -/
def synced (batch : List FSEvent) (s : State U) : State U :=
  (run (exec c) (sync c.uuid me batch) s).2

/-- `sync` fetches the hash of a file, and it is not that of the document on the instance that is named for it. -/
structure Differs (c : Setting U) (me : InstanceId) (batch : List FSEvent) (s : State U) (owner : InstanceId) (ino : Nat)
    (found : Nat × WSSharedDoc U) : Prop where
  named : ∃ wCache, s.world.workspace c.uuid = some wCache ∧ Site.named (wCache.docs.get? ino) = some owner
  held : s.doc owner (c.file ino) = some found
  fetched : ∃ t, (t, .fetchHash me ino) ∈ syncCalls c me batch s
  differs : (exec c (.fetchHash me ino) s).1 ≠ c.hash found.2.text

/-- The document is made a conflicting one with one of its users as resolver, and the users in the workspace are
told. -/
structure Reported (c : Setting U) (me : InstanceId) (batch : List FSEvent) (s : State U) (owner : InstanceId) (ino : Nat)
    (found : Nat × WSSharedDoc U) : Prop where
  marked : ∃ doc, (synced c me batch s).doc owner (c.file ino) = some (found.1, doc) ∧ doc.isConflicting = true
  resolver : (synced c me batch s).conflictResolver owner found.1 ∈ found.2.users
  told : ∀ uid ∈ found.2.users, ∀ sid ∈ sessionId c.uuid (s.world.presence uid), ∃ t,
    (t, .emit (.conflict uid sid ino ((synced c me batch s).conflictResolver owner found.1))) ∈ syncCalls c me batch s

def bareDoc (doc : WSSharedDoc U) : WSSharedDoc U := { doc with isConflicting := false }

def State.bare (s : State U) : State U :=
  let inst := { s.fleet me with objects := fun d => ((s.fleet me).objects d).map bareDoc }
  { s with
    fleet := update s.fleet me inst
    conflictResolver := update s.conflictResolver me fun _ => "" }

section

variable {s t : State U} {me : InstanceId}

theorem bare_mark (ino : Nat) (s : State U) : (exec c (.mark me ino) s).2.bare me = s.bare me := by
  simp only [exec]
  split
  · rfl
  · rename_i d doc hfound
    have hobjects : (fun e => (((s.fleet me).put d { doc with isConflicting := true }).objects e).map bareDoc) =
        fun e => ((s.fleet me).objects e).map bareDoc := by
      funext e
      rw [objects_put]
      split_ifs with he
      · rw [he, (doc_eq_some.mp hfound).2]
        rfl
      · rfl
    simp only [bare, setResolver, put, update_idem, update_self, hobjects]
    rfl

section

variable (h : t.bare me = s.bare me)

include h

theorem world_of_bare : t.world = s.world := by
  have hworld := congrArg world h
  exact hworld

theorem chance_of_bare : t.chance = s.chance := by
  have hchance := congrArg chance h
  exact hchance

theorem elsewhere_of_bare {i : InstanceId} (hi : i ≠ me) :
    t.fleet i = s.fleet i ∧ t.conflictResolver i = s.conflictResolver i := by
  have hfleet := congrFun (congrArg fleet h) i
  have hresolver := congrFun (congrArg conflictResolver h) i
  simpa [bare, hi] using And.intro hfleet hresolver

theorem files_of_bare : (t.fleet me).files = (s.fleet me).files := by
  have hfiles := congrArg (fun state => (state.fleet me).files) h
  simpa [bare] using hfiles

end

theorem doc_bare (s : State U) (file : File) :
    (s.bare me).doc me file = (s.doc me file).map fun found => (found.1, bareDoc found.2) := by
  have hhere : ((s.bare me).fleet me).here file = (s.fleet me).here file := by
    simp [bare, Instance.here]
  have hobjects (d : Nat) : ((s.bare me).fleet me).objects d = ((s.fleet me).objects d).map bareDoc := by
    simp [bare]
  unfold doc
  rw [hhere]
  cases (s.fleet me).here file with
  | none => rfl
  | some d =>
    rw [Option.bind_some, Option.bind_some, hobjects]
    cases (s.fleet me).objects d <;> rfl

theorem doc_of_bare (h : t.bare me = s.bare me) {file : File} {d : Nat} {doc : WSSharedDoc U}
    (hfound : s.doc me file = some (d, doc)) :
    ∃ doc', t.doc me file = some (d, doc') ∧ doc'.users = doc.users ∧ doc'.text = doc.text := by
  have hdoc := congrArg (fun state => state.doc me file) h
  simp only [doc_bare, hfound, Option.map_some] at hdoc
  obtain ⟨⟨e, doc'⟩, hfound', heq⟩ := Option.map_eq_some_iff.mp hdoc
  obtain ⟨rfl, hbare⟩ := Prod.mk.inj heq
  have husers := congrArg WSSharedDoc.users hbare
  have htext := congrArg WSSharedDoc.text hbare
  exact ⟨doc', hfound', husers, htext⟩

theorem doc_none_of_bare (h : t.bare me = s.bare me) {file : File} (hnone : s.doc me file = none) :
    t.doc me file = none := by
  have hdoc := congrArg (fun state => state.doc me file) h
  simpa only [doc_bare, hnone, Option.map_none, Option.map_eq_none_iff] using hdoc

end

theorem bare_of_syncs {me : InstanceId} {command : Command U} (h : Syncs me command)
    (s : State U) : (exec c command s).2.bare me = s.bare me := by
  cases command with
  | mark i ino =>
    cases h
    exact bare_mark c ino s
  | setFileContent | fetchContent | replace | clear | find => cases h
  | _ => rfl

theorem spans_distribute {c : Setting U} {me : InstanceId} {wCache : CachedWorkspace} {ino : Nat}
    {inv : State U → Prop} {rel : State U → List (State U × Command U) → State U → Prop} (hrel : Composes rel)
    (hothers : ∀ command s, Syncs me command → command.about ≠ some ino → inv s →
      inv (exec c command s).2 ∧ rel s [(s, command)] (exec c command s).2)
    (hcheck : Spans (exec c) inv rel (check c.uuid me wCache ino)) (batch : List FSEvent) :
    Spans (exec c) inv rel (distribute c.uuid me batch wCache) := by
  have hexamine (event : FSEvent) : Spans (exec c) inv rel (examine c.uuid me wCache event) := by
    unfold examine
    split
    · cases event.ino with
      | none => exact .ret hrel _
      | some other =>
        by_cases hother : other = ino
        · rw [hother]
          exact hcheck
        · refine (concerns_check c.uuid me wCache other).spans hrel fun command s hconcerns hs => ?_
          apply hothers command s hconcerns.1 _ hs
          rcases hconcerns.2 with hnone | hsome
          · simp [hnone]
          · simpa [hsome] using hother
    · exact .ret hrel _
  have hgather (events : List FSEvent) (batches : Dict String (List FSEvent)) :
      Spans (exec c) inv rel (gather c.uuid me wCache events batches) := by
    induction events generalizing batches with
    | nil => exact .ret hrel _
    | cons event events ih =>
      refine (hexamine event).bind hrel fun verdict => ?_
      cases verdict with
      | stop => exact .ret hrel _
      | skip => exact ih batches
      | pass => exact ih (enlist wCache event batches)
  refine (hgather batch .empty).bind hrel fun gathered => ?_
  cases gathered with
  | none => exact .ret hrel _
  | some batches =>
    refine (sends_sendBatches c.uuid batches).spans hrel fun command s hsends hs => ?_
    obtain ⟨hsyncs, hnone⟩ := Concerns.of_sends me hsends
    exact hothers command s hsyncs (by simp [or_self_iff.mp hnone]) hs

section

variable {c : Setting U} {me : InstanceId} {batch : List FSEvent} {s : State U} {wCache : CachedWorkspace}

theorem synced_eq (hcached : s.world.workspace c.uuid = some wCache) :
    synced c me batch s = (run (exec c) (distribute c.uuid me batch wCache) s).2 := by
  simp only [synced, sync, run_bind, run_perform, exec, hcached]

theorem syncCalls_eq (hcached : s.world.workspace c.uuid = some wCache) :
    syncCalls c me batch s = (s, .getWorkspace) :: calls (exec c) (distribute c.uuid me batch wCache) s := by
  simp only [syncCalls, sync, calls_bind, calls_perform, run_perform, exec, hcached, singleton_append]

end

/-- No conflict of the file is announced. -/
def Silent (ino : Nat) (_ : State U) (calls : List (State U × Command U)) (_ : State U) : Prop :=
  ∀ call ∈ calls, ∀ uid sid resolver, call.2 ≠ .emit (.conflict uid sid ino resolver)

theorem silent_composes (ino : Nat) : Composes (Silent (U := U) ino) where
  nil _ := by simp [Silent]
  append hleft hright call hcall := by
    rcases mem_append.mp hcall with hcall | hcall
    · exact hleft call hcall
    · exact hright call hcall

section

variable {c : Setting U} {me : InstanceId} {s : State U} {ino : Nat} {wCache : CachedWorkspace}

theorem silent_check (hnone : s.doc me (c.file ino) = none) :
    Spans (exec c) (fun t => t.bare me = s.bare me) (Silent ino) (check c.uuid me wCache ino) := by
  have hrel := silent_composes (U := U) ino
  have hquiet {command : Command U} (hsyncs : Syncs me command)
      (hemit : ∀ uid sid resolver, command ≠ .emit (.conflict uid sid ino resolver)) (t : State U)
      (ht : t.bare me = s.bare me) : (exec c command t).2.bare me = s.bare me ∧ Silent ino t [(t, command)] (exec c command t).2 := by
    refine ⟨(bare_of_syncs c hsyncs t).trans ht, fun call hcall => ?_⟩
    rw [mem_singleton] at hcall
    rw [hcall]
    exact hemit
  have hflag : Spans (exec c) (fun t => t.bare me = s.bare me) (Silent ino) (flag c.uuid me ino) := by
    refine .perform_bind hrel (hquiet rfl (by simp)) fun t ht => ?_
    simp only [exec, doc_none_of_bare ht hnone]
    exact .ret hrel _
  have hcompare (docHash : Option DocHash) :
      Spans (exec c) (fun t => t.bare me = s.bare me) (Silent ino) (compareHash c.uuid me ino docHash) := by
    unfold compareHash
    cases docHash.filter DocHash.truthy with
    | none => exact .ret hrel _
    | some docHash =>
      refine .perform_bind hrel (hquiet trivial (by simp)) fun t ht => ?_
      split
      · exact .ret hrel _
      · exact hflag
  have hdocHash : Spans (exec c) (fun t => t.bare me = s.bare me) (Silent ino) (getDocHash me ino wCache) := by
    unfold getDocHash
    cases named (wCache.docs.get? ino) with
    | none => exact .ret hrel _
    | some owner =>
      simp only
      split
      · exact .perform_bind hrel (hquiet trivial (by simp)) fun _ _ => .ret hrel _
      · exact .perform_bind hrel (hquiet trivial (by simp)) fun _ _ => .ret hrel _
  refine hdocHash.bind hrel fun docHash => ?_
  cases docHash with
  | none => exact .ret hrel _
  | some docHash => exact hcompare docHash

theorem silent_distribute (wCache : CachedWorkspace) (hnone : s.doc me (c.file ino) = none) (batch : List FSEvent) :
    Spans (exec c) (fun t => t.bare me = s.bare me) (Silent ino) (distribute c.uuid me batch wCache) := by
  refine spans_distribute (silent_composes ino) (fun command t hsyncs habout ht => ?_) (silent_check hnone) batch
  refine ⟨(bare_of_syncs c hsyncs t).trans ht, fun call hcall uid sid resolver hemit => ?_⟩
  rw [mem_singleton] at hcall
  subst hcall
  exact habout (by rw [show command = _ from hemit]; rfl)

end

def Raised (d : Nat) (users : List String) (t : State U) : Prop :=
  (∃ doc, (t.fleet me).objects d = some doc ∧ doc.users = users ∧ doc.isConflicting = true) ∧
    pickOne t.chance.draw users = some (t.conflictResolver me d)

variable (world : World)

/-- All its users are told. -/
def Told (ino : Nat) (users : List String) (draw : Nat) (calls : List (State U × Command U)) : Prop :=
  ∀ resolver ∈ pickOne draw users, ∀ uid ∈ users, ∀ sid ∈ sessionId c.uuid (world.presence uid),
    ∃ t, (t, .emit (.conflict uid sid ino resolver)) ∈ calls

/-- A conflict stays, and if the hash of the file is fetched it is raised. -/
def Raises (draw ino d : Nat)
    (users : List String) (t : State U) (calls : List (State U × Command U)) (t' : State U) : Prop :=
  (Raised me d users t → Raised me d users t') ∧
    ((∃ u, (u, .fetchHash me ino) ∈ calls) → Raised me d users t' ∧ Told c world ino users draw calls)

theorem Told.mono {c : Setting U} {world : World} {ino : Nat} {users : List String} {draw : Nat}
    {calls calls' : List (State U × Command U)} (h : Told c world ino users draw calls)
    (hsub : calls ⊆ calls') : Told c world ino users draw calls' := by
  intro resolver hresolver uid huid sid hsid
  obtain ⟨t, ht⟩ := h resolver hresolver uid huid sid hsid
  exact ⟨t, hsub ht⟩

theorem raises_composes (draw ino d : Nat) (users : List String) : Composes (Raises c me world draw ino d users) where
  nil t := ⟨id, fun ⟨_, h⟩ => nomatch h⟩
  append := by
    intro t t' t'' left right hleft hright
    refine ⟨hright.1 ∘ hleft.1, fun ⟨u, hu⟩ => ?_⟩
    rcases mem_append.mp hu with hu | hu
    · obtain ⟨hraised, htold⟩ := hleft.2 ⟨u, hu⟩
      exact ⟨hright.1 hraised, htold.mono (subset_append_left left right)⟩
    · obtain ⟨hraised, htold⟩ := hright.2 ⟨u, hu⟩
      exact ⟨hraised, htold.mono (subset_append_right left right)⟩

section

variable {c : Setting U} {me : InstanceId} {s t : State U} {d ino : Nat} {doc : WSSharedDoc U} {users : List String}

theorem Raised.exec (h : Raised me d users t) {command : Command U} (hsyncs : Syncs me command) :
    Raised me d users (exec c command t).2 := by
  cases command with
  | mark i other =>
    cases hsyncs
    simp only [Site.exec]
    split
    · exact h
    · rename_i e marked hfound
      obtain ⟨⟨doc, hdoc, husers, hconflicting⟩, hresolver⟩ := h
      have hmarked := (doc_eq_some.mp hfound).2
      by_cases he : d = e
      · subst he
        cases hdoc.symm.trans hmarked
        refine ⟨⟨{ marked with isConflicting := true }, ?_, husers, rfl⟩, ?_⟩
        · simp [setResolver, put, Instance.put]
        · simpa [setResolver, put, husers] using by simp [hresolver]
      · refine ⟨⟨doc, ?_, husers, hconflicting⟩, ?_⟩
        · simpa [setResolver, put, Instance.put, he] using hdoc
        · simpa [setResolver, put, he] using hresolver
  | setFileContent | fetchContent | replace | clear | find => cases hsyncs
  | _ => exact h

theorem Raised.run (h : Raised me d users t) {α : Type} {p : Io U α} {file : Option Nat}
    (hp : p.Only (Concerns me file)) : Raised me d users (run (Site.exec c) p t).2 := by
  have hexec (command : Command U) (t : State U) : Concerns me file command → Raised me d users t →
      Raised me d users (Site.exec c command t).2 := fun hconcerns h => h.exec hconcerns.1
  exact hp.triple hexec t h

theorem bare_run_of_syncs {α : Type} {p : Io U α} (hp : p.Only (Syncs me)) (t : State U) :
    (run (exec c) p t).2.bare me = t.bare me := by
  have hexec (command : Command U) (t : State U) (hsyncs : Syncs me command) :
      (exec c command t).2.bare me = t.bare me := bare_of_syncs c hsyncs t
  exact hp.run_eq hexec t

theorem bare_run {α : Type} {p : Io U α} {file : Option Nat} (hp : p.Only (Concerns me file))
    (t : State U) : (run (exec c) p t).2.bare me = t.bare me :=
  bare_run_of_syncs (hp.mono fun _ hconcerns => hconcerns.1) t

theorem told_sendConflict {world : World} (hworld : t.world = world) {draw : Nat}
    {resolver : String} (hpick : pickOne draw users = some resolver) :
    Told c world ino users draw (calls (exec c) (sendConflict c.uuid ino users resolver) t) := by
  intro other hother uid huid sid hsid
  cases hpick.symm.trans hother
  refine ⟨t, ?_⟩
  simp only [sendConflict, calls_bind, run_sessions]
  apply mem_append_right
  rw [calls_each, mem_map]
  refine ⟨(uid, sid), ?_, rfl⟩
  rw [mem_flatMap]
  refine ⟨uid, huid, ?_⟩
  rw [hworld, show sessionId c.uuid (world.presence uid) = some sid from hsid]
  exact mem_singleton.mpr rfl

theorem mark_raises (hfound : t.doc me (c.file ino) = some (d, doc)) (husers : doc.users ≠ []) :
    ∃ resolver, pickOne t.chance.draw doc.users = some resolver ∧
      (exec c (.mark me ino) t).1 = some (doc.users, some resolver) ∧
        Raised me d doc.users (exec c (.mark me ino) t).2 := by
  obtain ⟨resolver, -, hpick⟩ := pickOne_mem t.chance.draw husers
  refine ⟨resolver, hpick, ?_, ?_⟩
  · simp only [exec, hfound, hpick]
  · simp only [exec, hfound, hpick]
    refine ⟨⟨{ doc with isConflicting := true }, ?_, rfl, rfl⟩, ?_⟩
    · simp [setResolver, put, Instance.put]
    · simpa [setResolver, put] using hpick

theorem flag_raises (hfound : t.doc me (c.file ino) = some (d, doc)) (husers : doc.users ≠ []) :
    Raised me d doc.users (run (exec c) (flag c.uuid me ino) t).2 ∧
      Told c t.world ino doc.users t.chance.draw (calls (exec c) (flag c.uuid me ino) t) := by
  obtain ⟨resolver, hpick, hanswer, hraised⟩ := mark_raises hfound husers
  have hworld : (exec c (.mark me ino) t).2.world = t.world :=
    world_of_bare (bare_mark c ino t)
  simp only [flag, run_bind, calls_bind, run_perform, calls_perform, hanswer]
  constructor
  · exact hraised.run ((sends_sendConflict c.uuid ino doc.users resolver).mono fun _ => Concerns.of_sends me)
  · refine (told_sendConflict hworld hpick).mono fun call hcall => ?_
    exact mem_append_right _ (mem_append_left _ hcall)

theorem raises_check {wCache : CachedWorkspace} (hfound : s.doc me (c.file ino) = some (d, doc))
    (husers : doc.users ≠ []) (hnamed : named (wCache.docs.get? ino) = some me)
    (hdiffers : (exec c (.fetchHash me ino) s).1 ≠ c.hash doc.text) :
    Spans (exec c) (fun t => t.bare me = s.bare me) (Raises c me s.world s.chance.draw ino d doc.users)
      (check c.uuid me wCache ino) := by
  intro t ht
  have hconcerns := concerns_check (U := U) c.uuid me wCache ino
  refine ⟨(bare_run hconcerns t).trans ht, fun hraised => hraised.run hconcerns, fun hfetched => ?_⟩
  obtain ⟨doc', hfound', husers', htext⟩ := doc_of_bare ht hfound
  have hflag := flag_raises hfound' (husers' ▸ husers)
  rw [husers', world_of_bare ht, chance_of_bare ht] at hflag
  have hfetch : (exec c (.fetchHash me ino) t).1 = (exec c (.fetchHash me ino) s).1 := by
    simp only [exec]
    rw [chance_of_bare ht, files_of_bare ht]
  have hdocHash : run (exec c) (getDocHash me ino wCache) t = (some (some (.hash (c.hash doc.text))), t) := by
    simp [getDocHash, hnamed, exec, hfound', htext]
  have hdocCalls : calls (exec c) (getDocHash me ino wCache) t = [(t, .computeHash me ino)] := by
    simp [getDocHash, hnamed]
  simp only [check, run_bind, calls_bind, hdocHash, hdocCalls] at hfetched ⊢
  have hother : ¬(DocHash.hash (c.hash doc.text)).same (exec c (.fetchHash me ino) s).1 := by
    simpa [DocHash.same] using hdiffers
  cases hknown : (some (DocHash.hash (c.hash doc.text))).filter DocHash.truthy with
  | none => simp [compareHash, hknown] at hfetched
  | some known =>
    cases (Option.filter_eq_some_iff.mp hknown).1
    simp only [compareHash, hknown, run_bind, calls_bind, run_perform, calls_perform, hfetch, if_neg hother]
    refine ⟨hflag.1, hflag.2.mono fun call hcall => ?_⟩
    exact mem_append_right _ (mem_append_right _ hcall)

theorem raises_distribute {wCache : CachedWorkspace}
    (hfound : s.doc me (c.file ino) = some (d, doc)) (husers : doc.users ≠ [])
    (hnamed : named (wCache.docs.get? ino) = some me)
    (hdiffers : (exec c (.fetchHash me ino) s).1 ≠ c.hash doc.text) (batch : List FSEvent) :
    Spans (exec c) (fun t => t.bare me = s.bare me) (Raises c me s.world s.chance.draw ino d doc.users)
      (distribute c.uuid me batch wCache) := by
  refine spans_distribute (raises_composes c me s.world s.chance.draw ino d doc.users)
    (fun command t hsyncs habout ht => ?_) (raises_check hfound husers hnamed hdiffers) batch
  refine ⟨(bare_of_syncs c hsyncs t).trans ht, fun hraised => hraised.exec hsyncs, fun ⟨u, hu⟩ => ?_⟩
  cases mem_singleton.mp hu
  exact absurd rfl habout

end

section

variable {c : Setting U} {me owner : InstanceId} {batch : List FSEvent} {s : State U} {ino : Nat}
  {found : Nat × WSSharedDoc U}

theorem Differs.reported (hassigned : Assigned s) (h : Differs c me batch s me ino found) :
    Reported c me batch s me ino found := by
  obtain ⟨wCache, hcached, hnamed⟩ := h.named
  obtain ⟨t, ht⟩ := h.fetched
  obtain ⟨hbare, -, hraises⟩ := raises_distribute h.held (hassigned.users h.held) hnamed h.differs batch s rfl
  rw [syncCalls_eq hcached] at ht
  obtain ⟨⟨⟨doc, hdoc, husers, hconflicting⟩, hpick⟩, htold⟩ := hraises ⟨t, by simpa using ht⟩
  rw [← synced_eq hcached] at hbare hdoc hpick
  rw [chance_of_bare hbare] at hpick
  obtain ⟨doc', hfound', -, -⟩ := doc_of_bare hbare h.held
  cases hdoc.symm.trans (doc_eq_some.mp hfound').2
  refine ⟨⟨doc, hfound', hconflicting⟩, mem_of_getElem? hpick, fun uid huid sid hsid => ?_⟩
  obtain ⟨u, hu⟩ := htold _ hpick uid huid sid hsid
  rw [syncCalls_eq hcached]
  exact ⟨u, mem_cons_of_mem _ hu⟩

theorem Differs.elsewhere (hassigned : Assigned s) (h : Differs c me batch s owner ino found) (howner : owner ≠ me) :
    (synced c me batch s).fleet owner = s.fleet owner ∧
      (synced c me batch s).conflictResolver owner = s.conflictResolver owner ∧
      ∀ call ∈ syncCalls c me batch s, ∀ uid sid resolver, call.2 ≠ .emit (.conflict uid sid ino resolver) := by
  obtain ⟨wCache, hcached, -⟩ := h.named
  have hnone : s.doc me (c.file ino) = none := by
    cases hfound : s.doc me (c.file ino) with
    | none => rfl
    | some other => exact absurd (hassigned.single h.held hfound) howner
  obtain ⟨hbare, hsilent⟩ := silent_distribute wCache hnone batch s rfl
  rw [← synced_eq hcached] at hbare
  obtain ⟨hfleet, hresolver⟩ := elsewhere_of_bare hbare howner
  refine ⟨hfleet, hresolver, fun call hcall => ?_⟩
  rw [syncCalls_eq hcached] at hcall
  rcases mem_cons.mp hcall with rfl | hcall
  · simp
  · exact hsilent call hcall

end

/-- A difference is reported if and only if the receiving instance holds the document, or there is nothing left to
report: the document is in conflict already and none of its users is in the workspace. -/
theorem reported_iff {c : Setting U} {me owner : InstanceId} {batch : List FSEvent} {s : State U}
    {ino : Nat} {found : Nat × WSSharedDoc U} (hassigned : Assigned s)
    (hdiffers : Differs c me batch s owner ino found) :
    Reported c me batch s owner ino found ↔ owner = me ∨
      (found.2.isConflicting = true ∧ s.conflictResolver owner found.1 ∈ found.2.users ∧
        ∀ uid ∈ found.2.users, sessionId c.uuid (s.world.presence uid) = none) := by
  by_cases howner : owner = me
  · subst howner
    exact ⟨fun _ => .inl rfl, fun _ => hdiffers.reported hassigned⟩
  obtain ⟨hfleet, hresolver, hsilent⟩ := hdiffers.elsewhere hassigned howner
  have hdoc : (synced c me batch s).doc owner (c.file ino) = some found := by
    rw [← hdiffers.held]
    simp only [doc, hfleet]
  constructor
  · intro h
    obtain ⟨doc, hmarked, hconflicting⟩ := h.marked
    have hsame : doc = found.2 := congrArg Prod.snd (Option.some.inj (hmarked.symm.trans hdoc))
    subst hsame
    refine .inr ⟨hconflicting, hresolver ▸ h.resolver, fun uid huid => ?_⟩
    cases hsession : sessionId c.uuid (s.world.presence uid) with
    | none => rfl
    | some sid =>
      obtain ⟨t, ht⟩ := h.told uid huid sid hsession
      exact absurd rfl (hsilent _ ht _ _ _)
  · intro h
    obtain ⟨hconflicting, hmem, hsessions⟩ := h.resolve_left howner
    refine ⟨⟨found.2, hdoc, hconflicting⟩, hresolver ▸ hmem, fun uid huid sid hsid => ?_⟩
    rw [hsessions uid huid] at hsid
    cases hsid

def attended : World :=
  { world with presence := update world.presence "alice" (some (Dict.empty.set "s1" ⟨.active, "k1", "g1", some "w1"⟩)) }

def opened (i : InstanceId) : State Nat :=
  let s : State Nat := .start (attended (noted i .empty)) fun _ => []
  (((s.act i (.openFile "alice" notes (some none))).act i (.read 0 true true)).act i (.initialized 0)).write notes [5]

theorem assigned_opened (i : InstanceId) : Assigned (opened i) := by
  have hhome {j : InstanceId} {file : File} {found : Nat × WSSharedDoc Nat} (hfound : (opened i).doc j file = some found) :
      j = i := by
    by_contra hj
    simp only [opened, doc, write, (act_fleet _ _).1, Fleet.act_of_ne hj] at hfound
    cases hfound
  apply Standing.assigned
  · exact ((standing_act (standing_act (standing_act (standing_start _ _) i _) i _) i _).write notes [5])
  · intro j k file found found' hfound hfound'
    exact (hhome hfound).trans (hhome hfound').symm

def blankNotes : WSSharedDoc Nat :=
  { WSSharedDoc.new notes 0 "alice" with load := .finished [], users := ["alice"] }

theorem reported_opened : Reported w1 e1 [written] (opened e1) e1 7 (0, blankNotes) := by
  have hdiffers : Differs w1 e1 [written] (opened e1) e1 7 (0, blankNotes) :=
    ⟨⟨_, rfl, rfl⟩, rfl, ⟨_, mem_of_getElem? (i := 2) rfl⟩, by decide⟩
  exact (reported_iff (assigned_opened e1) hdiffers).mpr (.inl rfl)

/-- The document is on another instance than the one that receives the events. -/
theorem unreported_opened :
    Assigned (opened e2) ∧ Differs w1 e1 [written] (opened e2) e2 7 (0, blankNotes) ∧
    ¬Reported w1 e1 [written] (opened e2) e2 7 (0, blankNotes) := by
  refine ⟨assigned_opened e2, ⟨⟨_, rfl, rfl⟩, rfl, ⟨_, mem_of_getElem? (i := 2) rfl⟩, by decide⟩, fun h => ?_⟩
  obtain ⟨doc, hdoc, hconflicting⟩ := h.marked
  cases hdoc
  cases hconflicting

end HideServer.Env.Site
