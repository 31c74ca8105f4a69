import HideServer.Env.Moves

/-!
# Joining a document

A user who opens a file gets what is in the document as the answer to a sync step 1, and what is
applied later by broadcasts. The client is new: a vector it sends covers no more than what it was sent
and what it made itself. An update is applied once, and a document is the updates applied to it.
-/

namespace HideServer.Env.Joining

open Async Site Sync List
open Cache hiding exec

variable {U : Type}

section

variable {owner : Nat → String} {inst : Instance U} {file : File} {d : Nat} {doc doc' : WSSharedDoc U}

def Follows (inst : Instance U) (label : Sync.Label U) (file : File) (d : Nat) (doc doc' : WSSharedDoc U) : Prop :=
  doc'.destroyed = true ∨
    (doc'.text = doc.text ∨ ∃ update, label = .handleSync file (some update) ∧ doc'.text = doc.text ++ [update]) ∧
      ∀ uid ∈ doc.users, uid ∈ doc'.users ∨ Leaves inst label d doc.users uid

theorem Follows.of_eq {label : Sync.Label U} (hload : doc'.load = doc.load) (hedits : doc'.edits = doc.edits)
    (husers : ∀ uid ∈ doc.users, uid ∈ doc'.users) : Follows inst label file d doc doc' := by
  refine .inr ⟨.inl ?_, fun uid huid => .inl (husers uid huid)⟩
  simp only [WSSharedDoc.text, hload, hedits]

theorem follows_changes (h : Placed owner inst) (hhere : inst.here file = some d) (hdoc : inst.objects d = some doc)
    {label : Sync.Label U} (hchanges : Changes inst d doc label doc') : Follows inst label file d doc doc' := by
  obtain ⟨hfile, -, hload, -⟩ := h.found_at hhere hdoc
  cases hchanges with
  | joined uid hresponsible hother => exact .of_eq rfl rfl fun _ => mem_joined_of_mem
  -- a document that is found is loaded
  | served blank hrequested => simp [hrequested, Load.into] at hload
  | initialized hserved => simp [hserved, Load.into] at hload
  | failed | destroyed => exact .inl rfl
  | edited update hother =>
    obtain rfl := (h.found_at hother hdoc).1.symm.trans hfile
    refine .inr ⟨.inr ⟨update, rfl, ?_⟩, fun _ => .inl⟩
    cases hfinished : doc.load with
    | finished content => simp [WSSharedDoc.text, hfinished]
    | _ => simp [hfinished, Load.into] at hload
  | left hresponsible hother huid hothers =>
    exact .inr ⟨.inl rfl, fun _ => stays_or_leaves hresponsible hother hothers⟩
  | fired | taken | displaced | written => exact .of_eq rfl rfl fun _ => id

theorem follows_step (h : Placed owner inst) (hhere : inst.here file = some d) (hdoc : inst.objects d = some doc)
    (label : Sync.Label U) :
    ∃ doc', (Sync.step inst label).objects d = some doc' ∧ Follows inst label file d doc doc' := by
  have hsame : Follows inst label file d doc doc := .of_eq rfl rfl fun _ => id
  rcases objects_cases inst label with hobjects | ⟨e, x, y, hx, hchanges, hobjects⟩ | ⟨other, map, uid, hobjects⟩
  · rw [hobjects]
    exact ⟨doc, hdoc, hsame⟩
  · rw [hobjects]
    split_ifs with he
    · subst he
      cases hdoc.symm.trans hx
      exact ⟨y, rfl, follows_changes h hhere hdoc hchanges⟩
    · exact ⟨doc, hdoc, hsame⟩
  · have hne : d ≠ inst.docCount := Nat.ne_of_lt (h.docs_lt hdoc)
    rw [hobjects, if_neg hne]
    exact ⟨doc, hdoc, hsame⟩

end

/-! ### The server and the client -/

/-- A broadcast under way. -/
structure Cast (U : Type) where
  update : U
  uids : List String
  lookups : Site.Io U (List (String × String))

structure State (U : Type) where
  site : Site.State U
  casts : List (Cast U)
  /-- The updates that were broadcast, with the recipients. -/
  sent : List (U × List String)
  /-- `openFile` has reported success to the user who joins. -/
  joined : Bool
  replica : List U
  /-- The vectors of the sync steps 1 that were sent and not handled yet: what the client had. -/
  requests : List (List U)
  answers : List (List U)

def State.start (site : Site.State U) : State U := ⟨site, [], [], false, [], [], []⟩

/-- The user who joins, and the file. -/
structure Joiner (U : Type) where
  c : Setting U
  me : InstanceId
  ino : Nat
  uid : String

def Joiner.file (j : Joiner U) : File := j.c.file j.ino

inductive Label (U : Type) where
  | outside (a : Outside U)
  | resume (k : Nat)
  | success
  | edit (update : U)
  | deliver (k : Nat)
  | syncStep1 (vector : List U)
  | answer (k : Nat)
  | receive (k : Nat)

section

variable [DecidableEq U] (j : Joiner U) (s : State U)

/-- The document that is joined. -/
def State.doc : Option (Nat × WSSharedDoc U) := s.site.doc j.me j.file

def broadcast (uuid : String) (update : U) (uids : List String) : List (Cast U) :=
  if uids = [] then [] else [⟨update, uids, sessions uuid uids⟩]

/-- An update arrives; if it is new, `_updateHandler` is called. -/
def State.apply (update : U) : State U :=
  match s.doc j with
  | none => s
  | some (_, doc) =>
    if update ∈ doc.text then s
    else
      { s with
        site := s.site.act j.me (.handleSync j.file (some update))
        casts := s.casts ++ broadcast j.c.uuid update doc.users }

def Joiner.update : Outside U → Option U
  | .step i (.handleSync file (some update)) => if i = j.me ∧ file = j.file then some update else none
  | _ => none

/-- A broadcast goes on. -/
def State.resume (k : Nat) (cast : Cast U) : State U :=
  match cast.lookups with
  | .await command next =>
    { s with
      site := (exec j.c command s.site).2
      casts := s.casts.set k { cast with lookups := next (exec j.c command s.site).1 } }
  | .ret active => { s with casts := s.casts.eraseIdx k, sent := s.sent ++ [(cast.update, active.map Prod.fst)] }

def step : Label U → State U
  | .outside a => (j.update a).elim { s with site := outside s.site a } (s.apply j)
  | .resume k => (s.casts[k]?).elim s (s.resume j k)
  | .success => { s with joined := s.joined || (s.doc j).any fun found => j.uid ∈ found.2.users }
  | .edit update =>
    if s.joined = true ∧ ∀ found ∈ s.doc j, update ∉ found.2.text then { s with replica := s.replica ++ [update] } else s
  | .deliver k =>
    match s.sent[k]? with
    | none => s
    | some (update, uids) => if j.uid ∈ uids then { s with replica := s.replica ++ [update] } else s
  | .syncStep1 vector => if s.joined = true ∧ vector ⊆ s.replica then { s with requests := s.requests ++ [vector] } else s
  | .answer k =>
    match s.requests[k]?, s.doc j with
    | some vector, some (_, doc) =>
      { s with requests := s.requests.eraseIdx k, answers := s.answers ++ [doc.text.filter (· ∉ vector)] }
    | _, _ => s
  | .receive k => (s.answers[k]?).elim s fun answer => { s with replica := s.replica ++ answer }

/-! ### Nothing is missed -/

/-- The update is part of an answer to the user, or it is broadcast with the user among the recipients. -/
def Reaches (update : U) : Prop :=
  (∃ answer ∈ s.answers, update ∈ answer) ∨ (∃ uids, (update, uids) ∈ s.sent ∧ j.uid ∈ uids) ∨
    ∃ cast ∈ s.casts, cast.update = update ∧ j.uid ∈ cast.uids

/-- Once the user has got an answer, every update of the document reaches them, and has reached them when no
broadcast is under way. -/
def NoGap : Prop := s.answers ≠ [] → ∀ found ∈ s.doc j, ∀ update ∈ found.2.text, Reaches j s update

end

/-! ### Broadcasts -/

/-- The user is found in the workspace. -/
def Bound (j : Joiner U) : (command : Command U) → command.Answer → Prop
  | .getPresence uid, presence => uid = j.uid → (sessionId j.c.uuid presence).isSome
  | _, _ => True

def Locates (j : Joiner U) (uids : List String) : Site.Io U (List (String × String)) → Prop :=
  Prog.Safe (fun command => ∃ uid, command = .getPresence uid) (Bound j) fun active => j.uid ∈ uids → j.uid ∈ active.map Prod.fst

theorem locates_sessions (j : Joiner U) (uids : List String) : Locates j uids (sessions j.c.uuid uids) := by
  induction uids with
  | nil => exact fun h => h
  | cons uid uids ih =>
    refine .perform_bind ⟨uid, rfl⟩ fun presence hpresence => ih.bind fun rest hrest hmem => ?_
    rw [map_append, mem_append]
    rcases mem_cons.mp hmem with hself | hmem
    · obtain ⟨sid, hsid⟩ := Option.isSome_iff_exists.mp (hpresence hself.symm)
      simp [hsid, hself]
    · exact .inr (hrest hmem)

section

variable {j : Joiner U} {d : Nat} {s s' : State U} {label : Label U}

def Covered (j : Joiner U) (s : State U) (update : U) : Prop :=
  Reaches j s update ∨ s.joined = true ∧ ∀ found ∈ s.doc j, update ∉ found.2.text

structure Attended (j : Joiner U) (d : Nat) (s : State U) : Prop where
  standing : Standing s.site
  registered : ∃ doc, s.doc j = some (d, doc)
  bound : (sessionId j.c.uuid (s.site.world.presence j.uid)).isSome
  casts : ∀ cast ∈ s.casts, Locates j cast.uids cast.lookups
  joined : s.joined = true → ∀ found ∈ s.doc j, j.uid ∈ found.2.users
  replica : ∀ update ∈ s.replica, Covered j s update
  requests : ∀ vector ∈ s.requests, s.joined = true ∧ ∀ update ∈ vector, Covered j s update
  answers : s.answers ≠ [] → s.joined = true
  noGap : NoGap j s

theorem Reaches.mono {update : U} (h : Reaches j s update) (hanswers : s.answers ⊆ s'.answers) (hsent : s.sent ⊆ s'.sent)
    (hcasts : ∀ cast ∈ s.casts, j.uid ∈ cast.uids → Reaches j s' cast.update) : Reaches j s' update := by
  rcases h with ⟨answer, hanswer, hmem⟩ | ⟨uids, hsent', huid⟩ | ⟨cast, hcast, rfl, huid⟩
  · exact .inl ⟨answer, hanswers hanswer, hmem⟩
  · exact .inr (.inl ⟨uids, hsent hsent', huid⟩)
  · exact hcasts cast hcast huid

theorem Attended.still (h : Attended j d s) (hstanding : Standing s'.site)
    (hworld : (sessionId j.c.uuid (s'.site.world.presence j.uid)).isSome)
    (hregistered : ∃ doc', s'.doc j = some (d, doc') ∧ ∀ doc, s.doc j = some (d, doc) →
      doc'.text = doc.text ∧ (j.uid ∈ doc.users → j.uid ∈ doc'.users))
    (hcasts : ∀ cast ∈ s'.casts, Locates j cast.uids cast.lookups) (hreaches : ∀ update, Reaches j s update → Reaches j s' update)
    (hjoined : s'.joined = s.joined) (hreplica : s'.replica = s.replica) (hrequests : s'.requests = s.requests)
    (hanswers : s'.answers = s.answers) : Attended j d s' := by
  obtain ⟨doc, hdoc⟩ := h.registered
  obtain ⟨doc', hdoc', hsame⟩ := hregistered
  obtain ⟨htext, husers⟩ := hsame doc hdoc
  have hcovered {update : U} (hcovered : Covered j s update) : Covered j s' update := by
    rcases hcovered with hreached | ⟨hjoin, hnew⟩
    · exact .inl (hreaches update hreached)
    · refine .inr ⟨hjoined.trans hjoin, fun found hfound => ?_⟩
      cases hdoc'.symm.trans hfound
      rw [htext]
      exact hnew _ hdoc
  refine ⟨hstanding, ⟨doc', hdoc'⟩, hworld, hcasts, fun hjoin found hfound => ?_, fun update hupdate => ?_,
    fun vector hvector => ?_, fun hsome => ?_, fun hsome found hfound update hupdate => ?_⟩
  · cases hdoc'.symm.trans hfound
    exact husers (h.joined (hjoined ▸ hjoin) _ hdoc)
  · rw [hreplica] at hupdate
    exact hcovered (h.replica update hupdate)
  · rw [hrequests] at hvector
    obtain ⟨hjoin, hvector⟩ := h.requests vector hvector
    exact ⟨hjoined.trans hjoin, fun update hupdate => hcovered (hvector update hupdate)⟩
  · rw [hjoined]
    exact h.answers (hanswers ▸ hsome)
  · cases hdoc'.symm.trans hfound
    rw [htext] at hupdate
    exact hreaches update (h.noGap (hanswers ▸ hsome) _ hdoc update hupdate)

/-! ### The steps -/

theorem doc_outside {site : Site.State U} {me : InstanceId} {file : File} {doc doc' : WSSharedDoc U} {a : Outside U}
    (hstanding : Standing site) (hfound : site.doc me file = some (d, doc))
    (hfound' : (outside site a).doc me file = some (d, doc')) :
    (doc'.text = doc.text ∨ ∃ update, a = .step me (.handleSync file (some update)) ∧ doc'.text = doc.text ++ [update]) ∧
      ∀ uid ∈ doc.users, uid ∈ doc'.users ∨ ∃ cached, a = .step me (.closeFile uid file cached) := by
  obtain ⟨hhere, hdoc⟩ := doc_eq_some.mp hfound
  obtain ⟨-, hdoc'⟩ := doc_eq_some.mp hfound'
  have hsame (hobjects : ((outside site a).fleet me).objects = (site.fleet me).objects) : doc' = doc := by
    rw [hobjects] at hdoc'
    exact Option.some.inj (hdoc'.symm.trans hdoc)
  rcases objects_outside (s := site) a with hobjects | ⟨i, label, rfl⟩
  · obtain rfl := hsame (hobjects me)
    exact ⟨.inl rfl, fun _ => .inl⟩
  · by_cases hi : me = i
    · subst hi
      obtain ⟨owner, hplaced⟩ := hstanding me
      obtain ⟨next, hnext, hfollows⟩ := follows_step hplaced hhere hdoc label
      have hobjects : ((outside site (.step me label)).fleet me).objects = (Sync.step (site.fleet me) label).objects := by
        simp only [outside, objects_act, if_true]
      rw [hobjects, hnext] at hdoc'
      cases hdoc'
      have hlive := ((standing_outside hstanding _).found hfound').2.1
      rcases hfollows with hdestroyed | ⟨htext, husers⟩
      · cases hlive.symm.trans hdestroyed
      · refine ⟨htext.imp_right ?_, fun uid huid => (husers uid huid).imp_right ?_⟩
        · rintro ⟨update, hlabel, hadded⟩
          exact ⟨update, by rw [hlabel], hadded⟩
        · rintro ⟨other, cached, rfl, -, hother, -⟩
          obtain rfl : other = file := (hplaced.found_at hother hdoc).1.symm.trans (hplaced.found_at hhere hdoc).1
          exact ⟨cached, rfl⟩
    · obtain rfl := hsame (by simp only [outside, objects_act, if_neg hi])
      exact ⟨.inl rfl, fun _ => .inl⟩

def State.applied (j : Joiner U) (s : State U) (update : U) (doc : WSSharedDoc U) : State U :=
  { s with
    site := s.site.act j.me (.handleSync j.file (some update))
    casts := s.casts ++ broadcast j.c.uuid update doc.users }

section

variable {update : U} {doc doc' : WSSharedDoc U}

theorem Attended.doc_applied (h : Attended j d s) (hdoc : s.doc j = some (d, doc))
    (hregistered : (s.applied j update doc).doc j = some (d, doc')) :
    (∀ other ∈ doc'.text, other ∈ doc.text ∨ other = update) ∧ (j.uid ∈ doc.users → j.uid ∈ doc'.users) := by
  obtain ⟨htext, husers⟩ := doc_outside (a := .step j.me (.handleSync j.file (some update))) h.standing hdoc hregistered
  constructor
  · intro other hother
    rcases htext with htext | ⟨same, hsame, htext⟩
    · exact .inl (htext ▸ hother)
    · cases hsame
      simpa [htext] using hother
  · intro huid
    rcases husers j.uid huid with huid | ⟨cached, hclose⟩
    · exact huid
    · cases hclose

theorem Reaches.applied {other : U} (h : Reaches j s other) : Reaches j (s.applied j update doc) other := by
  refine h.mono (Subset.refl _) (Subset.refl _) fun cast hcast huid => ?_
  exact .inr (.inr ⟨cast, mem_append_left _ hcast, rfl, huid⟩)

theorem reaches_applied (huid : j.uid ∈ doc.users) : Reaches j (s.applied j update doc) update := by
  have hcast : broadcast j.c.uuid update doc.users = [⟨update, doc.users, sessions j.c.uuid doc.users⟩] :=
    if_neg (ne_nil_of_mem huid)
  refine .inr (.inr ⟨⟨update, doc.users, sessions j.c.uuid doc.users⟩, mem_append_right _ ?_, rfl, huid⟩)
  rw [hcast]
  exact mem_singleton.mpr rfl

theorem Attended.covered_applied (h : Attended j d s) (hdoc : s.doc j = some (d, doc))
    (hregistered : (s.applied j update doc).doc j = some (d, doc')) {other : U} (hcovered : Covered j s other) :
    Covered j (s.applied j update doc) other := by
  rcases hcovered with hreached | ⟨hjoined, hother⟩
  · exact .inl hreached.applied
  · by_cases hsame : other = update
    -- the client's own edit is applied, and broadcast to the client too
    · exact .inl (hsame ▸ reaches_applied (h.joined hjoined _ hdoc))
    · refine .inr ⟨hjoined, fun found hfound hmem => ?_⟩
      cases hregistered.symm.trans hfound
      exact ((h.doc_applied hdoc hregistered).1 other hmem).elim (hother _ hdoc) hsame

theorem locates_applied (hcasts : ∀ cast ∈ s.casts, Locates j cast.uids cast.lookups) :
    ∀ cast ∈ (s.applied j update doc).casts, Locates j cast.uids cast.lookups := by
  intro cast hcast
  rcases mem_append.mp hcast with hcast | hcast
  · exact hcasts cast hcast
  · unfold broadcast at hcast
    split at hcast
    · cases hcast
    · cases mem_singleton.mp hcast
      exact locates_sessions j doc.users

theorem Attended.applied (h : Attended j d s) (hdoc : s.doc j = some (d, doc))
    (hregistered : (s.applied j update doc).doc j = some (d, doc')) : Attended j d (s.applied j update doc) where
  standing := standing_act h.standing j.me (.handleSync j.file (some update))
  registered := ⟨doc', hregistered⟩
  bound := by
    exact h.bound
  casts := locates_applied h.casts
  joined hjoined found hfound := by
    cases hregistered.symm.trans hfound
    exact (h.doc_applied hdoc hregistered).2 (h.joined hjoined _ hdoc)
  replica other hother := h.covered_applied hdoc hregistered (h.replica other hother)
  requests vector hvector := by
    obtain ⟨hjoined, hvector⟩ := h.requests vector hvector
    exact ⟨hjoined, fun other hother => h.covered_applied hdoc hregistered (hvector other hother)⟩
  answers := h.answers
  noGap hsome found hfound other hother := by
    cases hregistered.symm.trans hfound
    rcases (h.doc_applied hdoc hregistered).1 other hother with hother | rfl
    · exact (h.noGap hsome _ hdoc other hother).applied
    -- the client has an answer, so it has joined, and the user is among the recipients
    · exact reaches_applied (h.joined (h.answers hsome) _ hdoc)

end

theorem Attended.apply [DecidableEq U] (h : Attended j d s) {update : U} {doc' : WSSharedDoc U}
    (hregistered : (s.apply j update).doc j = some (d, doc')) : Attended j d (s.apply j update) := by
  obtain ⟨doc, hdoc⟩ := h.registered
  by_cases hold : update ∈ doc.text
  · simp only [State.apply, hdoc, if_pos hold]
    exact h
  · have happly : s.apply j update = s.applied j update doc := by
      simp only [State.apply, State.applied, hdoc, if_neg hold]
    rw [happly] at hregistered ⊢
    exact h.applied hdoc hregistered

theorem Attended.outside [DecidableEq U] (h : Attended j d s) {a : Outside U} (hupdate : j.update a = none) {doc' : WSSharedDoc U}
    (hregistered : (Site.outside s.site a).doc j.me j.file = some (d, doc'))
    (hopened : ∀ cached, a ≠ .step j.me (.closeFile j.uid j.file cached))
    (hbound : (sessionId j.c.uuid ((Site.outside s.site a).world.presence j.uid)).isSome) :
    Attended j d { s with site := Site.outside s.site a } := by
  refine h.still (standing_outside h.standing a) hbound ⟨doc', hregistered, fun doc hdoc => ?_⟩ h.casts (fun _ => id) rfl rfl rfl rfl
  obtain ⟨htext, husers⟩ := doc_outside h.standing hdoc hregistered
  constructor
  · rcases htext with htext | ⟨update, rfl, -⟩
    · exact htext
    · simp [Joiner.update] at hupdate
  · intro huid
    rcases husers j.uid huid with huid | ⟨cached, hclose⟩
    · exact huid
    · exact absurd hclose (hopened cached)

theorem Attended.resume (h : Attended j d s) {k : Nat} {cast : Cast U} (hk : s.casts[k]? = some cast) :
    Attended j d (s.resume j k cast) := by
  have hlocates := h.casts cast (mem_of_getElem? hk)
  obtain ⟨doc, hdoc⟩ := h.registered
  have hsame (other : WSSharedDoc U) (hother : s.doc j = some (d, other)) :
      doc.text = other.text ∧ (j.uid ∈ other.users → j.uid ∈ doc.users) := by
    cases hdoc.symm.trans hother
    exact ⟨rfl, id⟩
  unfold State.resume
  split
  · rename_i command next hlookups
    rw [hlookups] at hlocates
    obtain ⟨⟨uid, rfl⟩, hnext⟩ := hlocates
    refine h.still h.standing h.bound ⟨doc, hdoc, hsame⟩ (fun other hother => ?_) (fun update hreached => ?_) rfl rfl rfl rfl
    · rcases mem_or_eq_of_mem_set hother with hother | rfl
      · exact h.casts other hother
      · refine hnext _ ?_
        rintro rfl
        exact h.bound
    · refine hreached.mono (Subset.refl _) (Subset.refl _) fun other hother huid => ?_
      obtain ⟨i, hi⟩ := mem_iff_getElem?.mp hother
      by_cases hik : k = i
      · subst hik
        cases hk.symm.trans hi
        let next := { cast with lookups := next (exec j.c (.getPresence uid) s.site).1 }
        refine .inr (.inr ⟨next, mem_iff_getElem?.mpr ⟨k, ?_⟩, rfl, huid⟩)
        rw [List.getElem?_set_self (List.getElem?_eq_some_iff.mp hk).1]
      · refine .inr (.inr ⟨other, List.mem_iff_getElem?.mpr ⟨i, ?_⟩, rfl, huid⟩)
        rw [List.getElem?_set_ne hik]
        exact hi
  · rename_i active hlookups
    rw [hlookups] at hlocates
    refine h.still h.standing h.bound ⟨doc, hdoc, hsame⟩ (fun other hother => ?_) (fun update hreached => ?_) rfl rfl rfl rfl
    · exact h.casts other (mem_of_mem_eraseIdx hother)
    · refine hreached.mono (Subset.refl _) (subset_append_left _ _) fun other hother huid => ?_
      obtain ⟨i, hi⟩ := mem_iff_getElem?.mp hother
      by_cases hik : i = k
      · subst hik
        cases hk.symm.trans hi
        exact .inr (.inl ⟨_, mem_append_right _ (mem_singleton.mpr rfl), hlocates huid⟩)
      · exact .inr (.inr ⟨other, mem_eraseIdx_iff_getElem?.mpr ⟨i, hik, hi⟩, rfl, huid⟩)

/-! ### The client -/

theorem Attended.learn (h : Attended j d s) {updates : List U} (hupdates : ∀ update ∈ updates, Covered j s update) :
    Attended j d { s with replica := s.replica ++ updates } where
  __ := h
  replica update hupdate := by
    rcases mem_append.mp hupdate with hupdate | hupdate
    · exact h.replica update hupdate
    · exact hupdates update hupdate

theorem Attended.reply (h : Attended j d s) [DecidableEq U] {k e : Nat} {vector : List U} {doc : WSSharedDoc U}
    (hk : s.requests[k]? = some vector) (hdoc : s.doc j = some (e, doc)) :
    Attended j d { s with requests := s.requests.eraseIdx k, answers := s.answers ++ [doc.text.filter (· ∉ vector)] } := by
  set after : State U :=
    { s with requests := s.requests.eraseIdx k, answers := s.answers ++ [doc.text.filter (· ∉ vector)] }
  obtain ⟨hjoined, hvector⟩ := h.requests vector (mem_of_getElem? hk)
  have hreaches {update : U} (hreached : Reaches j s update) : Reaches j after update := by
    refine hreached.mono (subset_append_left _ _) (Subset.refl _) fun cast hcast huid => ?_
    exact .inr (.inr ⟨cast, hcast, rfl, huid⟩)
  have hcovered {update : U} (hcovered : Covered j s update) : Covered j after update := hcovered.imp_left hreaches
  refine ⟨h.standing, h.registered, h.bound, h.casts, h.joined, fun update hupdate => hcovered (h.replica update hupdate),
    fun other hother => ?_, fun _ => hjoined, fun _ found hfound update hupdate => ?_⟩
  · obtain ⟨hjoined, hother⟩ := h.requests other (mem_of_mem_eraseIdx hother)
    exact ⟨hjoined, fun update hupdate => hcovered (hother update hupdate)⟩
  · cases hdoc.symm.trans hfound
    by_cases hknown : update ∈ vector
    · rcases hvector update hknown with hreached | ⟨-, hnew⟩
      · exact hreaches hreached
      · exact absurd hupdate (hnew _ hdoc)
    · refine .inl ⟨_, mem_append_right _ (mem_singleton.mpr rfl), ?_⟩
      exact mem_filter.mpr ⟨hupdate, by simpa using hknown⟩

end

def alice : Joiner Nat := ⟨w1, e1, 7, "alice"⟩

end HideServer.Env.Joining
