import Mathlib.Data.Set.Insert
import HideServer.Env.Calls

/-!
# The notes in the cache and the documents

The cached workspace notes which instance has the document of a file. The `Status` of a file is the
note, the instances that have a document of it and those that load one. A call changes the status of
its own file only, and says at every point what it expects of it.
-/

namespace HideServer.Env.Calls

open Cache Sync Trace List Option Cluster

variable {U : Type}

variable {cached : Option (Option String)}

/-- The instance has a document for the file in its map, and it is not destroyed. -/
def Holds (inst : Instance U) (file : File) : Prop :=
  ∃ d doc, inst.here file = some d ∧ inst.objects d = some doc ∧ doc.destroyed = false

variable (s : Cluster U)

/-- The instance noted for a file. -/
def Cluster.note (ino : Nat) : Option String :=
  s.workspace.bind fun workspace => workspace.docs.get? ino

structure Agrees (s : Cluster U) (ino : Nat) : Prop where
  noted : ∀ i : InstanceId, s.note ino = some i.1 ↔ Holds (s.instances i) (s.file ino)
  single : ∀ i j, Holds (s.instances i) (s.file ino) → Holds (s.instances j) (s.file ino) → i = j

/-- No call is under way. -/
def Idle : Prop := ∀ call ∈ s.calls, call.phase = .ended

def Phase.stores : Phase → Bool
  | .storing _ => true
  | _ => false

def Cluster.serial (call : Call) : Prop :=
  match call.op, call.phase with
  -- `updateCache` reads the workspace while no other call is about to write it
  | _, .fetching => ∀ other ∈ s.calls, other.phase.stores = false
  -- the map is dropped only if no document is about to be entered in it
  | .closeFile, .stored => Sync.Orderly (s.instances call.instanceId) (.closed (s.closing call))
  | _, _ => True

/-- The calls for a file follow each other, and those for other files do not get in their way. -/
def Serial : Label U → Prop
  | .spawn _ _ _ ino => ∀ call ∈ s.calls, call.ino = ino → call.phase = .ended
  | .resume k => ∀ call ∈ s.calls[k]?, s.serial call
  | _ => True

/-! ### The status of a file -/

@[ext]
structure Status where
  cached : Option (Option String)
  holders : Set InstanceId
  loaders : Set InstanceId

/-- The note is right and nobody loads. -/
structure Status.Settled (x : Status) : Prop where
  noted : ∀ i : InstanceId, x.cached.join = some i.1 ↔ i ∈ x.holders
  known : ∀ {id}, x.cached.join = some id → ∃ i : InstanceId, i.1 = id
  idle : x.loaders = ∅

structure Status.Changing (x : Status) (call : Call) : Prop where
  holders : x.holders = { i | call.op = .openFile ∧ i = call.instanceId }
  idle : x.loaders = ∅
  cached : x.cached = some none ∨ x.cached = some (some call.instanceId.1)

/-- What a call expects in each phase. -/
def Expects (call : Call) (x : Status) : Prop :=
  match call.phase with
  | .asking | .stored => x.Settled
  | .answered cached => x.Settled ∧ cached = x.cached
  | .loading _ => x.cached = some none ∧ x.holders = ∅ ∧ x.loaders = {call.instanceId} ∧ call.op = .openFile
  | .fetching | .storing _ => x.Changing call
  | .ended => True

section

variable {x : Status} {i : InstanceId}

theorem Status.Settled.holders_eq (h : x.Settled) (hi : i ∈ x.holders) : x.holders = {i} := by
  ext j
  rw [← h.noted j, (h.noted i).mpr hi, some.injEq, Set.mem_singleton_iff, Subtype.ext_iff, eq_comm]

theorem Status.Settled.cached_eq (h : x.Settled) (hi : i ∈ x.holders) : x.cached = some (some i.1) :=
  join_eq_some_iff.mp ((h.noted i).mpr hi)

theorem Status.Settled.vacant (h : x.Settled) {entry : Option String}
    (hcached : x.cached = some entry) (hentry : ∀ id ∈ given entry, id = i.1) (hi : i ∉ x.holders) :
    x.cached = some none ∧ x.holders = ∅ := by
  cases entry with
  | none =>
    refine ⟨hcached, Set.eq_empty_of_forall_notMem fun j hj => ?_⟩
    rw [h.cached_eq hj] at hcached
    cases hcached
  | some id =>
    have hnote : x.cached.join = some id := by rw [hcached]; rfl
    obtain ⟨j, rfl⟩ := h.known hnote
    have hgiven : given (some j.1) = some j.1 := by simp [given, j.2]
    rw [hentry j.1 hgiven] at hnote
    exact absurd ((h.noted i).mp hnote) hi

def Call.noted (call : Call) : Option String :=
  match call.op with
  | .openFile => some call.instanceId.1
  | .closeFile => none

theorem Status.Changing.settled {call : Call} (h : x.Changing call) {y : Status}
    (hcached : y.cached = some call.noted) (hholders : y.holders = x.holders)
    (hloaders : y.loaders = x.loaders) : y.Settled where
  noted := by
    rw [hcached, hholders, h.holders]
    cases hop : call.op with
    | openFile => simp [Call.noted, hop, Subtype.ext_iff, eq_comm]
    | closeFile => simp [Call.noted, hop]
  known := by
    intro id hid
    rw [hcached] at hid
    cases hop : call.op with
    | openFile =>
      simp only [Call.noted, hop, join_some, some.injEq] at hid
      exact ⟨call.instanceId, hid⟩
    | closeFile => simp [Call.noted, hop] at hid
  idle := hloaders.trans h.idle

end

def Cluster.status (ino : Nat) : Status where
  cached := s.workspace.map fun workspace => workspace.docs.get? ino
  holders := { i | (s.instances i).users (s.file ino) ≠ none }
  loaders := { i | ∃ d uid, (s.instances i).opening d = some (s.file ino, uid) }

section

variable {s : Cluster U} {i : InstanceId} {ino : Nat}

variable {uid : String}

theorem status_start (uuid : String) (workspace : Option CachedWorkspace) (files : File → List U)
    (ino : Nat) : ((start uuid workspace files).status ino).Settled where
  noted := by
    cases workspace <;> simp [status, start, Instance.users, Instance.start, Instance.here]
  known := by
    intro id hid
    cases workspace <;> simp [status, start] at hid
  idle := by simp [status, start, Instance.opening, Instance.start]

theorem mem_holders_act (label : Sync.Label U) (j : InstanceId) :
    j ∈ ((s.act i label).status ino).holders ↔
      if j = i then (Sync.step (s.instances i) label).users (s.file ino) ≠ none
      else j ∈ (s.status ino).holders := by
  change ((s.act i label).instances j).users (s.file ino) ≠ none ↔ _
  split_ifs with hj
  · rw [hj, instances_act, Fleet.act_self]
  · rw [instances_act, Fleet.users_act_of_ne hj]
    rfl

theorem mem_loaders_act (label : Sync.Label U) (j : InstanceId) :
    j ∈ ((s.act i label).status ino).loaders ↔
      if j = i then ∃ d uid, (Sync.step (s.instances i) label).opening d = some (s.file ino, uid)
      else j ∈ (s.status ino).loaders := by
  change (∃ d uid, ((s.act i label).instances j).opening d = some (s.file ino, uid)) ↔ _
  split_ifs with hj
  · rw [hj, instances_act, Fleet.act_self]
  · rw [instances_act, Fleet.opening_act_of_ne hj]
    rfl

theorem status_act {label : Sync.Label U} (husers : (Sync.step (s.instances i) label).users (s.file ino) = none ↔
      (s.instances i).users (s.file ino) = none)
    (hopening : ∀ d uid, (Sync.step (s.instances i) label).opening d = some (s.file ino, uid) ↔
      (s.instances i).opening d = some (s.file ino, uid)) :
    (s.act i label).status ino = s.status ino := by
  have hholders : ((s.act i label).status ino).holders = (s.status ino).holders := by
    ext j
    rw [mem_holders_act]
    split_ifs with hj
    · rw [hj]
      exact not_congr husers
    · rfl
  have hloaders : ((s.act i label).status ino).loaders = (s.status ino).loaders := by
    ext j
    rw [mem_loaders_act]
    split_ifs with hj
    · rw [hj]
      exact exists_congr fun d => exists_congr (hopening d)
    · rfl
  exact Status.ext rfl hholders hloaders

theorem status_act_of_tables {label : Sync.Label U}
    (htables : (Sync.step (s.instances i) label).users = (s.instances i).users ∧
      (Sync.step (s.instances i) label).opening = (s.instances i).opening) :
    (s.act i label).status ino = s.status ino :=
  status_act (by rw [htables.1]) fun d uid => by rw [htables.2]

section

variable (h : Attached s)

include h

theorem status_openFile {other : Nat} (hkeep : ino ≠ other ∨
      ((s.instances i).responsible cached = true → (s.instances i).users (s.file other) ≠ none)) :
    (s.act i (.openFile uid (s.file other) cached)).status ino = s.status ino := by
  apply status_act
  · rw [Sync.step, users_openFile (h.wired i)]
    split_ifs with hopens
    · rw [hopens.2, map_eq_none_iff]
    · rfl
  · intro d opener
    rw [Sync.step, opening_openFile (h.wired i)]
    split_ifs with hnew
    · obtain ⟨⟨hresponsible, hhere⟩, rfl⟩ := hnew
      rw [(h.wired i).opening_docCount]
      simp only [reduceCtorEq, iff_false]
      intro hsame
      rcases hkeep with hne | husers
      · exact hne (file_inj (congrArg Prod.fst (some.inj hsame))).symm
      · exact husers hresponsible ((h.wired i).users_eq_none.mpr hhere)
    · rfl

theorem status_closeFile {other : Nat}
    (hkeep : ino ≠ other ∨ (s.instances i).parts uid (s.file other) cached = false) :
    (s.act i (.closeFile uid (s.file other) cached)).status ino = s.status ino := by
  apply status_act
  · rw [Sync.step, users_closeFile (h.wired i)]
    split_ifs with hcloses
    · obtain ⟨hresponsible, hfile⟩ := hcloses
      rw [hfile]
      rcases hkeep with hne | hparts
      · exact absurd (file_inj hfile) hne
      · cases husers : (s.instances i).users (s.file other) with
        | none => rfl
        | some users =>
          simp only [Instance.parts, hresponsible, husers, Bool.true_and, any_some, decide_eq_false_iff_not] at hparts
          simp only [bind_some, parted, if_neg hparts, reduceCtorEq]
    · rfl
  · intro d opener
    rw [Sync.step, opening_closeFile]

theorem status_initialized {other : Nat} {d : Nat} (hserved : (s.instances i).served d = true)
    (hopening : (s.instances i).opening d = some (s.file other, uid)) (hne : ino ≠ other) :
    (s.act i (.initialized d)).status ino = s.status ino := by
  apply status_act
  · rw [Sync.step, users_initialized (h.wired i) hserved hopening, if_neg fun hfile => hne (file_inj hfile)]
  · intro e opener
    rw [Sync.step, opening_initialized hserved]
    split_ifs with he
    · rw [he, hopening]
      simp only [false_iff]
      intro hsame
      exact hne (file_inj (congrArg Prod.fst (some.inj hsame))).symm
    · rfl

theorem status_created (uid : String) (hresponsible : (s.instances i).responsible cached = true)
    (hholders : (s.status ino).holders = ∅) (hloaders : (s.status ino).loaders = ∅) :
    ((s.act i (.openFile uid (s.file ino) cached)).status ino).holders = ∅ ∧
      ((s.act i (.openFile uid (s.file ino) cached)).status ino).loaders = {i} := by
  have husers : (s.instances i).users (s.file ino) = none := by
    by_contra hsome
    exact Set.eq_empty_iff_forall_notMem.mp hholders i hsome
  have hhere := (h.wired i).users_eq_none.mp husers
  constructor
  · ext j
    rw [mem_holders_act, hholders]
    split_ifs
    · rw [Sync.step, users_openFile (h.wired i), if_pos ⟨hresponsible, rfl⟩, husers]
      simp
    · rfl
  · ext j
    rw [mem_loaders_act, hloaders]
    split_ifs with hj
    · simp only [hj, Set.mem_singleton_iff, iff_true]
      exact ⟨_, uid, (opening_openFile (h.wired i) ..).trans (if_pos ⟨⟨hresponsible, hhere⟩, rfl⟩)⟩
    · simp [hj]

theorem status_entered {d : Nat} (hserved : (s.instances i).served d = true)
    (hopening : (s.instances i).opening d = some (s.file ino, uid)) (hholders : (s.status ino).holders = ∅)
    (hloaders : (s.status ino).loaders = {i}) :
    ((s.act i (.initialized d)).status ino).holders = {i} ∧ ((s.act i (.initialized d)).status ino).loaders = ∅ := by
  constructor
  · ext j
    rw [mem_holders_act, hholders]
    split_ifs with hj
    · rw [Sync.step, users_initialized (h.wired i) hserved hopening, if_pos rfl]
      simp [hj]
    · simp [hj]
  · ext j
    rw [mem_loaders_act, hloaders]
    split_ifs with hj
    · simp only [Set.mem_empty_iff_false, iff_false]
      rintro ⟨e, opener, he⟩
      rw [Sync.step, opening_initialized hserved] at he
      split_ifs at he with hsame
      exact hsame ((h.wired i).opening_unique he hopening)
    · simpa using hj

theorem status_parted (hparts : (s.instances i).parts uid (s.file ino) cached = true)
    (hholders : (s.status ino).holders = {i}) :
    ((s.act i (.closeFile uid (s.file ino) cached)).status ino).holders = ∅ ∧
      ((s.act i (.closeFile uid (s.file ino) cached)).status ino).loaders = (s.status ino).loaders := by
  simp only [Instance.parts, Bool.and_eq_true, Option.any_eq_true, decide_eq_true_eq] at hparts
  obtain ⟨hresponsible, users, husers, hlast⟩ := hparts
  constructor
  · ext j
    rw [mem_holders_act, hholders]
    split_ifs with hj
    · rw [Sync.step, users_closeFile (h.wired i), if_pos ⟨hresponsible, rfl⟩, husers]
      simp [parted, hlast]
    · simpa using hj
  · ext j
    rw [mem_loaders_act, Sync.step, opening_closeFile]
    split_ifs with hj
    · rw [hj]
      rfl
    · rfl

end

theorem mem_holders_of_parts (hparts : (s.instances i).parts uid (s.file ino) cached = true) :
    i ∈ (s.status ino).holders := by
  simp only [Instance.parts, Bool.and_eq_true, Option.any_eq_true] at hparts
  obtain ⟨-, users, husers, -⟩ := hparts
  change (s.instances i).users (s.file ino) ≠ none
  rw [husers]
  exact some_ne_none users

end

/-! ### Every call finds what it expects -/

/-- Calls for a file are alone, and find what they expect. -/
structure Agreed (s : Cluster U) : Prop where
  alone : ∀ {k k' : Nat} {call call' : Call}, s.calls[k]? = some call → s.calls[k']? = some call' →
    call.ino = call'.ino → call.phase ≠ .ended → call'.phase ≠ .ended → k = k'
  settled : ∀ ino, (∀ call ∈ s.calls, call.ino = ino → call.phase = .ended) → (s.status ino).Settled
  expects : ∀ {k : Nat} {call : Call}, s.calls[k]? = some call → Expects call (s.status call.ino)

section

variable {s : Cluster U} {k : Nat} {call : Call}

theorem agreed_start (uuid : String) (workspace : Option CachedWorkspace) (files : File → List U) :
    Agreed (.start uuid workspace files) where
  alone h := nomatch h
  settled ino _ := status_start uuid workspace files ino
  expects h := nomatch h

variable {phase : Phase}

theorem Agreed.advance (h : Agreed s) (hcall : s.calls[k]? = some call)
    (hactive : call.phase ≠ .ended) {s' : Cluster U} (hcalls : s'.calls = (s.move k call phase).calls)
    (hframe : ∀ ino, ino ≠ call.ino → s'.status ino = s.status ino)
    (hexpects : Expects { call with phase := phase } (s'.status call.ino))
    (hended : phase = .ended → (s'.status call.ino).Settled) : Agreed s' where
  alone := by
    have hold {j : Nat} {other : Call} (hother : s'.calls[j]? = some other) (hother_active : other.phase ≠ .ended) :
        ∃ before, s.calls[j]? = some before ∧ before.ino = other.ino ∧ before.phase ≠ .ended := by
      rw [hcalls, calls_move hcall] at hother
      split_ifs at hother with hj
      · cases hother
        exact ⟨call, hj ▸ hcall, rfl, hactive⟩
      · exact ⟨other, hother, rfl, hother_active⟩
    intro j j' other other' hother hother' hino hactive hactive'
    obtain ⟨before, hbefore, hsame, hbefore_active⟩ := hold hother hactive
    obtain ⟨before', hbefore', hsame', hbefore_active'⟩ := hold hother' hactive'
    exact h.alone hbefore hbefore' (hsame.trans (hino.trans hsame'.symm)) hbefore_active hbefore_active'
  settled := by
    intro ino hidle
    have hmember {j : Nat} {other : Call} (hother : (s.move k call phase).calls[j]? = some other) : other ∈ s'.calls := by
      rw [hcalls]
      exact mem_of_getElem? hother
    by_cases hino : call.ino = ino
    · subst hino
      have hk : (s.move k call phase).calls[k]? = some { call with phase := phase } := by
        rw [calls_move hcall, if_pos rfl]
      exact hended (hidle _ (hmember hk) rfl)
    · rw [hframe ino (Ne.symm hino)]
      apply h.settled
      intro other hother hother_ino
      obtain ⟨j, hj⟩ := getElem?_of_mem hother
      have hne : j ≠ k := by
        rintro rfl
        cases hcall.symm.trans hj
        exact hino hother_ino
      exact hidle other (hmember (by rw [calls_move hcall, if_neg hne, hj])) hother_ino
  expects := by
    intro j other hother
    rw [hcalls, calls_move hcall] at hother
    split_ifs at hother with hj
    · cases hother
      exact hexpects
    · by_cases hother_active : other.phase = .ended
      · simp [Expects, hother_active]
      · have hino : other.ino ≠ call.ino := fun hsame => hj (h.alone hother hcall hsame hother_active hactive)
        rw [hframe _ hino]
        exact h.expects hother

theorem Agreed.move (h : Agreed s) (hcall : s.calls[k]? = some call) (hactive : call.phase ≠ .ended)
    (hexpects : Expects { call with phase := phase } (s.status call.ino))
    (hended : phase = .ended → (s.status call.ino).Settled) : Agreed (s.move k call phase) :=
  h.advance hcall hactive rfl (fun _ _ => rfl) hexpects hended

theorem Agreed.act (h : Agreed s) (hcall : s.calls[k]? = some call) (hactive : call.phase ≠ .ended)
    {label : Sync.Label U} (hframe : ∀ ino, ino ≠ call.ino → (s.act call.instanceId label).status ino = s.status ino)
    (hexpects : Expects { call with phase := phase } ((s.act call.instanceId label).status call.ino))
    (hended : phase = .ended → ((s.act call.instanceId label).status call.ino).Settled) :
    Agreed ((s.act call.instanceId label).move k call phase) :=
  h.advance hcall hactive rfl hframe hexpects hended

theorem responsible_iff (hattached : Attached s) {i : InstanceId} :
    (s.instances i).responsible cached = true ↔ ∃ entry, cached = some entry ∧ ∀ id ∈ given entry, id = i.1 := by
  unfold Instance.responsible
  rw [hattached.ids i]
  cases cached with
  | none => simp
  | some entry => cases hgiven : given entry <;> simp [hgiven]

section

variable (h : Agreed s)

include h

theorem agreed_open (hattached : Attached s) (hcall : s.calls[k]? = some call)
    (hop : call.op = .openFile) (hphase : call.phase = .answered cached) :
    Agreed
      ((s.act call.instanceId (.openFile call.uid (s.file call.ino) cached)).move k call (s.entered call cached)) := by
  have hexpects := h.expects hcall
  simp only [Expects, hphase] at hexpects
  obtain ⟨hsettled, hcached⟩ := hexpects
  have hactive : call.phase ≠ .ended := by simp [hphase]
  have hframe (ino : Nat) (hino : ino ≠ call.ino) :
      (s.act call.instanceId (.openFile call.uid (s.file call.ino) cached)).status ino = s.status ino :=
    status_openFile hattached (.inl hino)
  by_cases hresponsible : (s.instances call.instanceId).responsible cached = true
  · by_cases husers : (s.instances call.instanceId).users (s.file call.ino) = none
    · have hhere := (hattached.wired call.instanceId).users_eq_none.mp husers
      have hentered : s.entered call cached = .loading (s.instances call.instanceId).docCount := by
        simp [entered, hresponsible, hhere]
      obtain ⟨entry, hentry, hgiven⟩ := (responsible_iff hattached).mp hresponsible
      obtain ⟨hnone, hholders⟩ := hsettled.vacant (hcached.symm.trans hentry) hgiven (not_not.mpr husers)
      obtain ⟨hvacant, hloading⟩ := status_created hattached call.uid hresponsible hholders hsettled.idle
      rw [hentered]
      exact h.act hcall hactive hframe ⟨hnone, hvacant, hloading, hop⟩ nofun
    · have hhere : (s.instances call.instanceId).here (s.file call.ino) ≠ none :=
        fun hnone => husers ((hattached.wired _).users_eq_none.mpr hnone)
      have hentered : s.entered call cached = .fetching := by
        simp [entered, hresponsible, isSome_iff_ne_none, hhere]
      have hstatus : (s.act call.instanceId (.openFile call.uid (s.file call.ino) cached)).status call.ino = s.status call.ino :=
        status_openFile hattached (.inr fun _ => husers)
      have hchanging : (s.status call.ino).Changing { call with phase := .fetching } :=
        ⟨by simp [hsettled.holders_eq husers, hop], hsettled.idle, .inr (hsettled.cached_eq husers)⟩
      rw [hentered]
      exact h.act hcall hactive hframe (hstatus.symm ▸ hchanging) nofun
  · have hentered : s.entered call cached = .ended := by simp [entered, hresponsible]
    have hstatus : (s.act call.instanceId (.openFile call.uid (s.file call.ino) cached)).status call.ino = s.status call.ino :=
      status_openFile hattached (.inr fun hyes => absurd hyes hresponsible)
    rw [hentered]
    exact h.act hcall hactive hframe trivial fun _ => hstatus.symm ▸ hsettled

theorem agreed_close (hattached : Attached s) (hcall : s.calls[k]? = some call)
    (hop : call.op = .closeFile) (hphase : call.phase = .answered cached) :
    Agreed
      ((s.act call.instanceId (.closeFile call.uid (s.file call.ino) cached)).move k call (s.left call cached)) := by
  have hexpects := h.expects hcall
  simp only [Expects, hphase] at hexpects
  obtain ⟨hsettled, -⟩ := hexpects
  have hactive : call.phase ≠ .ended := by simp [hphase]
  have hframe (ino : Nat) (hino : ino ≠ call.ino) :
      (s.act call.instanceId (.closeFile call.uid (s.file call.ino) cached)).status ino = s.status ino :=
    status_closeFile hattached (.inl hino)
  cases hparts : (s.instances call.instanceId).parts call.uid (s.file call.ino) cached with
  | true =>
    have hleft : s.left call cached = .fetching := by simp [left, hparts]
    have hholds := mem_holders_of_parts hparts
    obtain ⟨hvacant, hloaders⟩ := status_parted hattached hparts (hsettled.holders_eq hholds)
    rw [hleft]
    exact h.act hcall hactive hframe
      ⟨by simp [hvacant, hop], hloaders.trans hsettled.idle, .inr (hsettled.cached_eq hholds)⟩ nofun
  | false =>
    have hleft : s.left call cached = .ended := by simp [left, hparts]
    have hstatus : (s.act call.instanceId (.closeFile call.uid (s.file call.ino) cached)).status call.ino = s.status call.ino :=
      status_closeFile hattached (.inr hparts)
    rw [hleft]
    exact h.act hcall hactive hframe trivial fun _ => hstatus.symm ▸ hsettled

theorem agreed_initialized (hattached : Attached s) (hcall : s.calls[k]? = some call)
    {d : Nat} (hphase : call.phase = .loading d) (hserved : (s.instances call.instanceId).served d = true) :
    Agreed ((s.act call.instanceId (.initialized d)).move k call .fetching) := by
  have hexpects := h.expects hcall
  simp only [Expects, hphase] at hexpects
  obtain ⟨hcached, hholders, hloaders, hop⟩ := hexpects
  have hopening := hattached.loading hcall hphase
  obtain ⟨hheld, hidle⟩ := status_entered hattached hserved hopening hholders hloaders
  refine h.act hcall (by simp [hphase]) (fun ino hino => ?_) ⟨by simp [hheld, hop], hidle, .inl hcached⟩ nofun
  exact status_initialized hattached hserved hopening hino

theorem agreed_stored (hcall : s.calls[k]? = some call) {workspace : CachedWorkspace}
    (hphase : call.phase = .storing workspace) (hworkspace : s.workspace = some workspace) :
    Agreed { s.move k call .stored with
      workspace := some { workspace with docs := call.update workspace.docs } } := by
  have hexpects := h.expects hcall
  simp only [Expects, hphase] at hexpects
  have hactive : call.phase ≠ .ended := by simp [hphase]
  refine h.advance hcall hactive rfl (fun ino hino => ?_) ?_ nofun
  · refine Status.ext ?_ rfl rfl
    simp only [status, hworkspace, map_some, Call.update]
    cases call.op with
    | openFile => simp [Dict.get?_set, hino]
    | closeFile => simp [Dict.get?_erase, hino]
  · refine hexpects.settled ?_ rfl rfl
    simp only [status, map_some, Call.update, Call.noted]
    cases call.op with
    | openFile => simp [Dict.get?_set]
    | closeFile => simp [Dict.get?_erase]

theorem Agreed.resume (hattached : Attached s) (hcall : s.calls[k]? = some call)
    (hworkspace : ∀ workspace, call.phase = .storing workspace → s.workspace = some workspace) :
    Agreed (s.resume k call) := by
  have hexpects := h.expects hcall
  unfold Cluster.resume
  cases hphase : call.phase with
  | asking =>
    simp only [Expects, hphase] at hexpects
    exact h.move hcall (by simp [hphase]) ⟨hexpects, rfl⟩ (by simp)
  | answered cached =>
    simp only [answer]
    cases hop : call.op with
    | openFile => exact agreed_open h hattached hcall hop hphase
    | closeFile =>
      have hclose := agreed_close h hattached hcall hop hphase
      exact ⟨hclose.alone, hclose.settled, hclose.expects⟩
  | loading d =>
    simp only
    split
    · rename_i hserved
      exact agreed_initialized h hattached hcall hphase hserved
    · exact h
  | fetching =>
    simp only [Expects, hphase] at hexpects
    cases hnone : s.workspace with
    | none =>
      have hcached := hexpects.cached
      simp [status, hnone] at hcached
    | some workspace =>
      exact h.move hcall (by simp [hphase]) ⟨hexpects.holders, hexpects.idle, hexpects.cached⟩ (by simp)
  | storing workspace => exact agreed_stored h hcall hphase (hworkspace workspace hphase)
  | stored =>
    simp only [Expects, hphase] at hexpects
    have hmove : Agreed (s.move k call .ended) := h.move hcall (by simp [hphase]) trivial fun _ => hexpects
    simp only [finish]
    cases hop : call.op with
    | openFile => exact ⟨hmove.alone, hmove.settled, hmove.expects⟩
    | closeFile =>
      have hstatus (ino : Nat) : (s.act call.instanceId (.closed (s.closing call))).status ino = s.status ino :=
        status_act_of_tables ⟨users_closed _, opening_closed _⟩
      refine h.advance hcall (by simp [hphase]) rfl (fun ino _ => hstatus ino) trivial fun _ => ?_
      exact (hstatus call.ino).symm ▸ hexpects
  | ended => exact h

theorem Agreed.read (hcall : s.calls[k]? = some call) (blank : Bool) : Agreed (s.read k call true blank) := by
  unfold Cluster.read
  cases hphase : call.phase with
  | loading d =>
    simp only [if_true]
    split
    · exact h
    · have hstatus (ino : Nat) : (s.act call.instanceId (.read d true blank)).status ino = s.status ino :=
        status_act_of_tables ⟨users_read d blank, opening_read d blank⟩
      have hexpects := h.expects hcall
      simp only [Expects, hphase] at hexpects
      exact h.act hcall (by simp [hphase]) (fun ino _ => hstatus ino) ((hstatus call.ino).symm ▸ hexpects) nofun
  | _ => exact h

theorem Agreed.spawn (op : Op) (i : InstanceId) (uid : String) {ino : Nat}
    (hidle : ∀ call ∈ s.calls, call.ino = ino → call.phase = .ended) : Agreed (step s (.spawn op i uid ino)) where
  alone := by
    intro j j' other other' hother hother' hino hactive hactive'
    simp only [step, getElem?_append] at hother hother'
    split_ifs at hother hother' with hj hj' hj'
    · exact h.alone hother hother' hino hactive hactive'
    · cases mem_singleton.mp (mem_of_getElem? hother')
      exact absurd (hidle other (mem_of_getElem? hother) hino) hactive
    · cases mem_singleton.mp (mem_of_getElem? hother)
      exact absurd (hidle other' (mem_of_getElem? hother') hino.symm) hactive'
    · have hlast {n : Nat} {call : Call} (hn : ¬n < s.calls.length)
          (hcall : [(⟨op, i, uid, ino, .asking⟩ : Call)][n - s.calls.length]? = some call) : n = s.calls.length := by
        have hlt := (List.getElem?_eq_some_iff.mp hcall).1
        simp only [List.length_singleton] at hlt
        omega
      rw [hlast hj hother, hlast hj' hother']
  settled := by
    intro other hended
    apply h.settled other
    intro call hcall
    exact hended call (mem_append_left _ hcall)
  expects := by
    intro j other hother
    rcases calls_spawn hother with hother | rfl
    · exact h.expects hother
    · exact h.settled ino hidle

end

end

/-! ### One writer at a time -/

def Exclusive : Prop :=
  ∀ (k : Nat) (call : Call) (workspace : CachedWorkspace), s.calls[k]? = some call →
    call.phase = .storing workspace → s.workspace = some workspace ∧
    ∀ (j : Nat) (other : Call), s.calls[j]? = some other → other.phase.stores = true → j = k

section

variable {s : Cluster U} {k : Nat} {call : Call}

theorem Exclusive.of_calls (h : Exclusive s) {s' : Cluster U} (hworkspace : s'.workspace = s.workspace)
    (hold : ∀ {j : Nat} {other : Call}, s'.calls[j]? = some other → other.phase.stores = true →
      s.calls[j]? = some other) :
    Exclusive s' := by
  intro j other workspace hother hstoring
  have hstores : other.phase.stores = true := by rw [hstoring]; rfl
  obtain ⟨hstored, hsingle⟩ := h j other workspace (hold hother hstores) hstoring
  exact ⟨hworkspace.trans hstored, fun j' other' hother' hstores' => hsingle j' other' (hold hother' hstores') hstores'⟩

theorem Exclusive.move (h : Exclusive s) (hcall : s.calls[k]? = some call) {phase : Phase}
    (hphase : phase.stores = false) : Exclusive (s.move k call phase) := by
  refine h.of_calls rfl fun hother hstores => ?_
  rw [calls_move hcall] at hother
  split_ifs at hother with hj
  · cases hother
    rw [hphase] at hstores
    cases hstores
  · exact hother

theorem exclusive_fetched (hcall : s.calls[k]? = some call) {workspace : CachedWorkspace}
    (hworkspace : s.workspace = some workspace) (hnone : ∀ other ∈ s.calls, other.phase.stores = false) :
    Exclusive (s.move k call (.storing workspace)) := by
  have honly {j : Nat} {other : Call} (hother : (s.move k call (.storing workspace)).calls[j]? = some other)
      (hstores : other.phase.stores = true) : j = k ∧ other.phase = .storing workspace := by
    rw [calls_move hcall] at hother
    split_ifs at hother with hj
    · cases hother
      exact ⟨hj, rfl⟩
    · rw [hnone other (mem_of_getElem? hother)] at hstores
      cases hstores
  intro j other copy hother hstoring
  obtain ⟨rfl, hsame⟩ := honly hother (by rw [hstoring]; rfl)
  cases hsame.symm.trans hstoring
  exact ⟨hworkspace, fun j' other' hother' hstores => (honly hother' hstores).1⟩

theorem exclusive_stored (h : Exclusive s) (hcall : s.calls[k]? = some call)
    {workspace : CachedWorkspace} (hphase : call.phase = .storing workspace) (written : Option CachedWorkspace) :
    Exclusive { s.move k call .stored with workspace := written } := by
  intro j other copy hother hstoring
  rw [calls_move hcall] at hother
  split_ifs at hother with hj
  · cases hother
    cases hstoring
  · exact absurd ((h k call workspace hcall hphase).2 j other hother (by rw [hstoring]; rfl)) hj

theorem Exclusive.resume (h : Exclusive s) (hcall : s.calls[k]? = some call)
    (hserial : call.phase = .fetching → ∀ other ∈ s.calls, other.phase.stores = false) :
    Exclusive (s.resume k call) := by
  unfold Cluster.resume
  cases hphase : call.phase with
  | asking => exact h.move hcall rfl
  | answered cached =>
    have hmove {phase : Phase} (hstores : phase.stores = false) : Exclusive (s.move k call phase) := h.move hcall hstores
    simp only [answer]
    cases call.op with
    | openFile =>
      refine hmove ?_
      simp only [entered]
      split_ifs <;> rfl
    | closeFile =>
      refine hmove ?_
      simp only [left]
      split_ifs <;> rfl
  | loading d =>
    simp only
    split
    · have hmove : Exclusive (s.move k call .fetching) := h.move hcall rfl
      exact hmove
    · exact h
  | fetching =>
    cases hworkspace : s.workspace with
    | none => exact h.move hcall rfl
    | some workspace => exact exclusive_fetched hcall hworkspace (hserial hphase)
  | storing workspace => exact exclusive_stored h hcall hphase _
  | stored =>
    have hmove : Exclusive (s.move k call .ended) := h.move hcall rfl
    simp only [finish]
    cases call.op with
    | openFile => exact hmove
    | closeFile => exact hmove
  | ended => exact h

theorem Exclusive.spawn (h : Exclusive s) (op : Op) (i : InstanceId) (uid : String) (ino : Nat) :
    Exclusive (step s (.spawn op i uid ino)) := by
  refine h.of_calls rfl fun hother hstores => ?_
  rcases calls_spawn hother with hother | rfl
  · exact hother
  · cases hstores

theorem Exclusive.read (h : Exclusive s) (hcall : s.calls[k]? = some call) (ok blank : Bool) :
    Exclusive (s.read k call ok blank) := by
  unfold Cluster.read
  split
  · split
    · exact h
    · have hmove {phase : Phase} (hstores : phase.stores = false) : Exclusive (s.move k call phase) := h.move hcall hstores
      refine hmove ?_
      split_ifs <;> rfl
  · exact h

end

/-! ### The steps -/

structure Sound (s : Cluster U) : Prop where
  attached : Attached s
  agreed : Agreed s
  exclusive : Exclusive s

section

variable {s : Cluster U} {k : Nat} {call : Call}

theorem tidy_of_serial (h : Sound s) (hcall : s.calls[k]? = some call) (hserial : s.serial call) : s.tidy call := by
  unfold tidy
  split
  · rename_i cached hop hphase
    intro _ _ d _ doc hdoc hfile
    have hexpects := h.agreed.expects hcall
    simp only [Expects, hphase] at hexpects
    rw [← Load.opener_eq_none]
    by_contra hopener
    obtain ⟨uid, huid⟩ := ne_none_iff_exists'.mp hopener
    refine Set.eq_empty_iff_forall_notMem.mp hexpects.1.idle call.instanceId ⟨d, uid, ?_⟩
    exact opening_eq_some.mpr ⟨doc, hdoc, hfile, huid⟩
  · rename_i hop hphase
    simp only [serial, hop, hphase] at hserial
    exact hserial
  · trivial

theorem sound_resume (h : Sound s) (hcall : s.calls[k]? = some call) (hserial : s.serial call) :
    Sound (s.resume k call) := by
  refine ⟨h.attached.resume hcall (tidy_of_serial h hcall hserial), h.agreed.resume h.attached hcall ?_,
    h.exclusive.resume hcall ?_⟩
  · intro workspace hphase
    exact (h.exclusive k call workspace hcall hphase).1
  · intro hphase
    cases hop : call.op with
    | openFile | closeFile =>
      simp only [serial, hop, hphase] at hserial
      exact hserial

theorem sound_step (h : Sound s) {label : Label U} (hloads : Loads label)
    (hserial : Serial s label) : Sound (step s label) := by
  cases label with
  | spawn op i uid ino =>
    exact ⟨h.attached.spawn op i uid ino, h.agreed.spawn op i uid hserial, h.exclusive.spawn op i uid ino⟩
  | resume k =>
    cases hcall : s.calls[k]? with
    | none =>
      rw [step, hcall]
      exact h
    | some call =>
      rw [step, hcall]
      exact sound_resume h hcall (hserial call hcall)
  | read k ok blank =>
    cases hloads
    cases hcall : s.calls[k]? with
    | none =>
      rw [step, hcall]
      exact h
    | some call =>
      rw [step, hcall]
      exact ⟨h.attached.read hcall blank, h.agreed.read hcall blank, h.exclusive.read hcall true blank⟩
  | inner i label =>
    have hattached : Attached (step s (.inner i label)) := attached_step h.attached hloads trivial
    rw [step] at hattached ⊢
    split at hattached
    · rename_i hinner
      have hstatus (ino : Nat) : (s.act i label).status ino = s.status ino := status_act_of_tables (tables_inner hinner)
      rw [if_pos hinner]
      refine ⟨hattached, ⟨h.agreed.alone, fun ino hidle => ?_, fun hcall => ?_⟩, h.exclusive⟩
      · rw [hstatus]
        exact h.agreed.settled ino hidle
      · rw [hstatus]
        exact h.agreed.expects hcall
    · rename_i hinner
      rw [if_neg hinner]
      exact h

theorem holds_iff (h : Attached s) {i : InstanceId} {ino : Nat} :
    Holds (s.instances i) (s.file ino) ↔ i ∈ (s.status ino).holders := by
  change _ ↔ (s.instances i).users (s.file ino) ≠ none
  rw [Ne, (h.wired i).users_eq_none]
  constructor
  · rintro ⟨d, doc, hhere, -⟩
    simp [hhere]
  · intro hsome
    obtain ⟨d, hhere⟩ := ne_none_iff_exists'.mp hsome
    obtain ⟨doc, hdoc, -, hlive, -⟩ := (h.wired i).found hhere
    exact ⟨d, doc, hhere, hdoc, hlive⟩

theorem agrees_of_settled (h : Attached s) {ino : Nat} (hsettled : (s.status ino).Settled) : Agrees s ino where
  noted := by
    intro i
    rw [holds_iff h, ← hsettled.noted]
    simp only [note, status]
    cases s.workspace <;> rfl
  single := by
    intro i j hi hj
    have hholders := hsettled.holders_eq ((holds_iff h).mp hj)
    have hmem := (holds_iff h).mp hi
    rw [hholders] at hmem
    exact hmem

end

/-- In a run where the calls for a file follow each other, where nobody else writes the workspace during an
`updateCache` and no map is dropped under an opening, the notes are right whenever no call is in progress. -/
theorem agrees_of_serial {uuid : String} {workspace : Option CachedWorkspace}
    {files : File → List U} {labels : List (Label U)}
    (hrun : Along step (fun s label => Loads label ∧ Serial s label) (.start uuid workspace files) labels) :
    Always step (fun s => Idle s → ∀ ino, Agrees s ino) (.start uuid workspace files) labels := by
  have hstep (s : Cluster U) (label : Label U) : Sound s → Loads label ∧ Serial s label → Sound (step s label) :=
    fun h hlabel => sound_step h hlabel.1 hlabel.2
  have hstart : Sound (.start uuid workspace files : Cluster U) :=
    ⟨attached_start .., agreed_start .., fun _ _ _ hcall => nomatch hcall⟩
  refine always_of_invariant hstep (fun s h hidle ino => ?_) hstart hrun
  exact agrees_of_settled h.attached (h.agreed.settled ino fun call hcall _ => hidle call hcall)

/-! ### Calls in turn, and at once on two instances -/

instance [DecidableEq U] (s : Cluster U) (call : Call) : Decidable (s.serial call) := by
  obtain ⟨op, -, -, -, phase⟩ := call
  cases op <;> cases phase <;> (dsimp only [serial]; infer_instance)

instance [DecidableEq U] (s : Cluster U) : (label : Label U) → Decidable (Serial s label)
  | .spawn op i uid ino => by dsimp only [Serial]; infer_instance
  | .resume k => by dsimp only [Serial]; infer_instance
  | .read .. | .inner .. => .isTrue trivial

/-- Calls for two files, each in its turn. -/
def inTurn : List (Label Nat) :=
  [.spawn .openFile e1 "alice" 7, .spawn .openFile e2 "bob" 8, .resume 0, .resume 1, .resume 0, .resume 1,
    .read 1 true false, .read 0 true false, .resume 0, .resume 1, .resume 0, .resume 0, .resume 1, .resume 1, .resume 0,
    .resume 1, .spawn .closeFile e1 "alice" 7, .resume 2, .resume 2, .resume 2, .resume 2, .resume 2,
    .spawn .openFile e2 "bob" 7, .resume 3, .resume 3, .read 3 true false, .resume 3, .resume 3, .resume 3, .resume 3]

theorem agrees_inTurn :
    Always step (fun s => Idle s → ∀ ino, Agrees s ino) (.start "w1" (some shelf) fun _ => []) inTurn :=
  agrees_of_serial (by decide +kernel)

/-- Alice and Bob open one file on two instances. -/
def onTwo : List (Label Nat) :=
  [.spawn .openFile e1 "alice" 7, .spawn .openFile e2 "bob" 7, .resume 0, .resume 1, .resume 0, .resume 1,
    .read 0 true false, .read 1 true false, .resume 0, .resume 1, .resume 0, .resume 0, .resume 0, .resume 1, .resume 1,
    .resume 1]

/-- Both instances have made a document, and the note names one of them. -/
theorem split_onTwo :
    Along step (fun _ label => Loads label) (.start "w1" (some shelf) fun _ => []) onTwo ∧
      ¬Always step (fun s => Idle s → ∀ ino, Agrees s ino) (.start "w1" (some shelf) fun _ => []) onTwo := by
  refine ⟨by decide +kernel, fun halways => ?_⟩
  have hagrees := halways.final (by unfold Idle; decide +kernel) 7
  have hsame := hagrees.single e1 e2 ⟨0, _, by decide +kernel, rfl, rfl⟩ ⟨0, _, by decide +kernel, rfl, rfl⟩
  exact absurd hsame (by decide)

end HideServer.Env.Calls
