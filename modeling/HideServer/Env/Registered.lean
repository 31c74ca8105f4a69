import HideServer.Env.Calls

/-!
# Opens that were reported as successful

After a successful open the edits of the user get to the document, as long as it stays in the map of
the workspace and the user among its users.
-/

namespace HideServer.Env.Calls

open Cache Sync Trace List

variable {U : Type}

/-- The user is a user of the document in the map, and an edit gets there. -/
def Reached (s : Cluster U) (grant : Grant) : Prop :=
  ∃ d doc, (s.instances grant.instanceId).here (s.file grant.ino) = some d ∧
    (s.instances grant.instanceId).objects d = some doc ∧ grant.uid ∈ doc.users ∧
    ∀ update, ((s.instances grant.instanceId).handleSync (s.file grant.ino) (some update)).objects d =
      some { doc with edits := doc.edits ++ [update], timer := true }

def Phase.answers : Phase → Bool
  | .answered _ => true
  | _ => false

def Phase.updating : Phase → Bool
  | .fetching | .storing _ | .stored => true
  | _ => false

/-- An open that is yet to be reported. -/
def Call.pending (call : Call) : Bool := call.op = .openFile && call.phase.updating

/-- Nobody closes a file before their open of it has been reported. -/
def Patient (s : Cluster U) : Label U → Prop
  | .resume k =>
    ∀ call ∈ s.calls[k]?, call.op = .closeFile → call.phase.answers = true →
      ∀ other ∈ s.calls, other.pending = true → other.grant ≠ call.grant
  | _ => True

def Registered (s : Cluster U) (grant : Grant) : Prop :=
  ∃ users, (s.instances grant.instanceId).users (s.file grant.ino) = some users ∧ grant.uid ∈ users

def Entitled (s : Cluster U) (grant : Grant) : Prop :=
  grant ∈ s.granted ∨ ∃ call ∈ s.calls, call.pending = true ∧ call.grant = grant

def Held (s : Cluster U) : Prop := ∀ grant, Entitled s grant → Registered s grant

section

variable {s : Cluster U} {k : Nat} {call : Call} {grant : Grant}

theorem reached_of_registered (h : Registered s grant) : Reached s grant := by
  obtain ⟨users, husers, huid⟩ := h
  obtain ⟨d, hhere, husers⟩ := Option.bind_eq_some_iff.mp husers
  obtain ⟨doc, hdoc, rfl⟩ := Option.map_eq_some_iff.mp husers
  refine ⟨d, doc, hhere, hdoc, huid, fun update => ?_⟩
  have hfound := found_eq_some.mpr ⟨hhere, hdoc⟩
  simp only [Instance.handleSync, hfound]
  rw [objects_put, if_pos rfl]

theorem registered_act (h : Attached s) {i : InstanceId} {label : Sync.Label U}
    (htidy : Sync.Tidy (s.instances i) label) (hregistered : Registered s grant)
    (hlabel : grant.instanceId = i → ∀ cached, label ≠ .closeFile grant.uid (s.file grant.ino) cached) :
    Registered (s.act i label) grant := by
  obtain ⟨users, husers, huid⟩ := hregistered
  unfold Registered
  by_cases hi : grant.instanceId = i
  · subst hi
    rw [instances_act, Fleet.act_self]
    exact users_step (h.wired _) htidy (hlabel rfl) husers huid
  · rw [instances_act, Fleet.users_act_of_ne hi]
    exact ⟨users, husers, huid⟩

variable {phase : Phase}

theorem entitled_move (h : Entitled (s.move k call phase) grant) :
    Entitled s grant ∨ ({ call with phase := phase } : Call).pending = true ∧ call.grant = grant := by
  rcases h with hgranted | ⟨other, hother, hpending, rfl⟩
  · exact .inl (.inl hgranted)
  · rcases mem_or_eq_of_mem_set hother with hother | rfl
    · exact .inl (.inr ⟨other, hother, hpending, rfl⟩)
    · exact .inr ⟨hpending, rfl⟩

theorem Held.move (h : Held s)
    (hpending : ({ call with phase := phase } : Call).pending = true → Registered s call.grant) :
    Held (s.move k call phase) := by
  intro grant hentitled
  rcases entitled_move hentitled with hentitled | ⟨hnew, rfl⟩
  · exact h grant hentitled
  · exact hpending hnew

theorem Held.act (h : Held s) (hattached : Attached s) {i : InstanceId} {label : Sync.Label U}
    (htidy : Sync.Tidy (s.instances i) label)
    (hlabel : ∀ uid file cached, label ≠ .closeFile uid file cached) : Held (s.act i label) :=
  fun grant hentitled => registered_act hattached htidy (h grant hentitled) fun _ => hlabel _ _

theorem Held.pending (h : Held s) (hcall : s.calls[k]? = some call)
    (hpending : call.pending = true) : Registered s call.grant :=
  h call.grant (.inr ⟨call, mem_of_getElem? hcall, hpending, rfl⟩)

theorem pending_iff : ({ call with phase := phase } : Call).pending = true ↔
    call.op = .openFile ∧ phase.updating = true := by
  simp [Call.pending]

section

variable (h : Held s)

include h

theorem Held.move_idle (hphase : phase.updating = false) : Held (s.move k call phase) := by
  refine h.move fun hpending => ?_
  simp [pending_iff, hphase] at hpending

theorem Held.move_updating (hcall : s.calls[k]? = some call)
    (hphase : call.phase.updating = true) (next : Phase) : Held (s.move k call next) := by
  refine h.move fun hpending => h.pending hcall ?_
  simp [Call.pending, (pending_iff.mp hpending).1, hphase]

section

variable (hattached : Attached s)

include hattached

theorem held_open {cached : Option (Option String)}
    (horderly : Sync.Orderly (s.instances call.instanceId) (.openFile call.uid (s.file call.ino) cached)) :
    Held
      ((s.act call.instanceId (.openFile call.uid (s.file call.ino) cached)).move k call (s.entered call cached)) := by
  have hact : Held (s.act call.instanceId (.openFile call.uid (s.file call.ino) cached)) :=
    h.act hattached horderly nofun
  refine hact.move fun hpending => ?_
  by_cases hresponsible : (s.instances call.instanceId).responsible cached = true
  · cases hhere : (s.instances call.instanceId).here (s.file call.ino) with
    | none => simp [Call.pending, Cluster.entered, hresponsible, hhere, Phase.updating] at hpending
    | some d =>
      obtain ⟨doc, hdoc, -⟩ := (hattached.wired call.instanceId).found hhere
      refine ⟨joined call.uid doc.users, ?_, mem_joined ..⟩
      have husers : (s.instances call.instanceId).users (s.file call.ino) = some doc.users := by
        simp [Instance.users, hhere, hdoc]
      refine Eq.trans (congrFun (congrArg Instance.users (Fleet.act_self ..)) _) ?_
      refine (users_openFile (hattached.wired call.instanceId) ..).trans ?_
      rw [if_pos ⟨hresponsible, rfl⟩, husers]
      rfl
  · simp [Call.pending, Cluster.entered, hresponsible, Phase.updating] at hpending

theorem held_close (hop : call.op = .closeFile) {cached : Option (Option String)}
    (hpatient : ∀ other ∈ s.calls, other.pending = true → other.grant ≠ call.grant) :
    Held { (s.move k call (s.left call cached)).act call.instanceId (.closeFile call.uid (s.file call.ino) cached) with
      granted := s.granted.filter (· ≠ call.grant) } := by
  intro grant hentitled
  have hold : Entitled s grant ∧ grant ≠ call.grant := by
    rcases hentitled with hgranted | ⟨other, hother, hpending, rfl⟩
    · have hkept := mem_filter.mp hgranted
      exact ⟨.inl hkept.1, of_decide_eq_true hkept.2⟩
    · rcases mem_or_eq_of_mem_set hother with hother | rfl
      · exact ⟨.inr ⟨other, hother, hpending, rfl⟩, hpatient other hother hpending⟩
      · rw [pending_iff, hop] at hpending
        cases hpending.1
  have hregistered : Registered (s.act call.instanceId (.closeFile call.uid (s.file call.ino) cached)) grant := by
    refine registered_act hattached trivial (h grant hold.1) fun hinstance other hlabel => hold.2 ?_
    injection hlabel with huid hfile
    cases grant
    simp_all [Call.grant, file_inj hfile]
  exact hregistered

theorem held_initialized (hcall : s.calls[k]? = some call)
    {d : Nat} (hphase : call.phase = .loading d) (hserved : (s.instances call.instanceId).served d = true) :
    Held ((s.act call.instanceId (.initialized d)).move k call .fetching) := by
  have hact : Held (s.act call.instanceId (.initialized d)) := h.act hattached trivial nofun
  refine hact.move fun _ => ⟨[call.uid], ?_, mem_singleton_self _⟩
  refine Eq.trans (congrFun (congrArg Instance.users (Fleet.act_self ..)) _) ?_
  refine (users_initialized (hattached.wired call.instanceId) hserved (hattached.loading hcall hphase) _).trans ?_
  exact if_pos rfl

theorem Held.resume (hcall : s.calls[k]? = some call)
    (htidy : s.tidy call) (hpatient : Patient s (.resume k)) : Held (s.resume k call) := by
  unfold Cluster.resume
  cases hphase : call.phase with
  | asking => exact h.move_idle rfl
  | answered cached =>
    simp only [Cluster.answer]
    cases hop : call.op with
    | openFile => exact held_open h hattached (htidy.opens hop hphase)
    | closeFile => exact held_close h hattached hop (hpatient call hcall hop (by rw [hphase]; rfl))
  | loading d =>
    simp only
    split
    · rename_i hserved
      exact held_initialized h hattached hcall hphase hserved
    · exact h
  | fetching =>
    have hmove (next : Phase) : Held (s.move k call next) := h.move_updating hcall (by rw [hphase]; rfl) next
    simp only
    split
    · exact hmove _
    · exact hmove _
  | storing workspace =>
    have hmove : Held (s.move k call .stored) := h.move_updating hcall (by rw [hphase]; rfl) .stored
    exact hmove
  | stored =>
    have hmove : Held (s.move k call .ended) := h.move_idle rfl
    simp only [Cluster.finish]
    cases hop : call.op with
    | openFile =>
      rintro grant (hgranted | hpending)
      · rcases mem_append.mp hgranted with hgranted | hnew
        · exact h grant (.inl hgranted)
        · rw [mem_singleton.mp hnew]
          exact h.pending hcall (by simp [Call.pending, hop, hphase, Phase.updating])
      · exact hmove grant (.inr hpending)
    | closeFile =>
      have hact : Held (s.act call.instanceId (.closed (s.closing call))) :=
        h.act hattached (htidy.closes hop hphase) nofun
      exact hact.move_idle rfl
  | ended => exact h

theorem held_step {label : Label U} (hloads : Loads label)
    (htidy : Tidy s label) (hpatient : Patient s label) : Held (step s label) := by
  cases label with
  | spawn op i uid ino =>
    rintro grant (hgranted | ⟨other, hother, hpending, rfl⟩)
    · exact h grant (.inl hgranted)
    · rcases mem_append.mp hother with hother | hnew
      · exact h _ (.inr ⟨other, hother, hpending, rfl⟩)
      · rw [mem_singleton.mp hnew] at hpending
        simp [Call.pending, Phase.updating] at hpending
  | resume k =>
    cases hcall : s.calls[k]? with
    | none =>
      rw [step, hcall]
      exact h
    | some call =>
      rw [step, hcall]
      exact h.resume hattached hcall (htidy call hcall) hpatient
  | read k ok blank =>
    cases hloads
    cases hcall : s.calls[k]? with
    | none =>
      rw [step, hcall]
      exact h
    | some call =>
      rw [step, hcall]
      simp only [Option.elim_some, Cluster.read]
      split
      · rename_i d hphase
        split
        · exact h
        · have hact : Held (s.act call.instanceId (.read d true blank)) := h.act hattached rfl (by simp)
          exact hact.move_idle rfl
      · exact h
  | inner i label =>
    rw [step]
    split
    · rename_i hinner
      exact h.act hattached (tidy_of_inner hinner) fun _ _ _ hlabel => by rw [hlabel] at hinner; cases hinner
    · exact h

end

end

end

/-- In a run where no document is made over another, no map is dropped under an opening and nobody closes before
their open is reported, every successful open is kept. -/
theorem reached_of_patient {uuid : String} {workspace : Option CachedWorkspace}
    {files : File → List U} {labels : List (Label U)}
    (hrun : Along step (fun s label => Loads label ∧ Tidy s label ∧ Patient s label)
      (.start uuid workspace files) labels) :
    Always step (fun s => ∀ grant ∈ s.granted, Reached s grant) (.start uuid workspace files) labels := by
  have hstep (s : Cluster U) (label : Label U) : Attached s ∧ Held s → Loads label ∧ Tidy s label ∧ Patient s label →
      Attached (step s label) ∧ Held (step s label) :=
    fun h hlabel => ⟨attached_step h.1 hlabel.1 hlabel.2.1, held_step h.2 h.1 hlabel.1 hlabel.2.1 hlabel.2.2⟩
  have hstart : Held (.start uuid workspace files : Cluster U) := by
    rintro grant (hgranted | ⟨call, hcall, -⟩)
    · cases hgranted
    · cases hcall
  refine always_of_invariant hstep (fun s h grant hgrant => ?_) ⟨attached_start .., hstart⟩ hrun
  exact reached_of_registered (h.2 grant (.inl hgrant))

instance (s : Cluster U) : (label : Label U) → Decidable (Patient s label)
  | .resume k => by dsimp only [Patient]; infer_instance
  | .spawn .. | .read .. | .inner .. => .isTrue trivial

def oneByOne : List (Label Nat) :=
  [.spawn .openFile e1 "alice" 7, .resume 0, .resume 0, .read 0 true false, .resume 0, .resume 0, .resume 0, .resume 0,
    .spawn .openFile e1 "bob" 7, .resume 1, .resume 1, .resume 1, .resume 1, .resume 1,
    .spawn .closeFile e1 "alice" 7, .resume 2, .resume 2]

theorem reached_oneByOne :
    Always step (fun s => ∀ grant ∈ s.granted, Reached s grant) (.start "w1" (some shelf) fun _ => []) oneByOne :=
  reached_of_patient (by decide +kernel)

/-- Alice and Bob open a file at once: both make a document. -/
def atOnce : List (Label Nat) :=
  [.spawn .openFile e1 "alice" 7, .resume 0, .resume 0, .spawn .openFile e1 "bob" 7, .resume 1, .resume 1,
    .read 0 true false, .resume 0, .resume 0, .resume 0, .resume 0, .read 1 true false, .resume 1]

/-- Alice's open was reported as successful, and then Bob's document has taken the place of theirs. -/
theorem replaced_atOnce :
    Along step (fun _ label => Loads label) (.start "w1" (some shelf) fun _ => []) atOnce ∧
      ¬Always step (fun s => ∀ grant ∈ s.granted, Reached s grant) (.start "w1" (some shelf) fun _ => []) atOnce := by
  refine ⟨by decide +kernel, fun halways => ?_⟩
  obtain ⟨d, doc, hhere, hdoc, huid, -⟩ := halways.final ⟨e1, "alice", 7⟩ (by decide +kernel)
  have husers : ((run step (.start "w1" (some shelf) fun _ => []) atOnce).instances e1).users ⟨"w1", 7⟩ =
      some ["bob"] := by decide +kernel
  have hreached : ((run step (.start "w1" (some shelf) fun _ => []) atOnce).instances e1).users ⟨"w1", 7⟩ =
      some doc.users :=
    Option.bind_eq_some_iff.mpr ⟨d, hhere, Option.map_eq_some_iff.mpr ⟨doc, hdoc, rfl⟩⟩
  have hbob : doc.users = ["bob"] := Option.some.inj (hreached.symm.trans husers)
  rw [hbob] at huid
  exact absurd huid (by decide)

end HideServer.Env.Calls
