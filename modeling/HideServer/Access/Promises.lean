import HideServer.Access.LifeCycle
import HideServer.Async.Triple
import HideServer.Manage.Owners
import Mathlib.Data.Finset.Card

/-!
# Capacity that has been promised

A request is tested against the capacity of the node; the count of dedicated workspaces and `UNUSED`
codes grows later, untested. A code is promised from its request on, if there was room for it beside
all that was promised before.
-/

namespace HideServer.Access

open Async Async.Prog Trace Db.Table Manage Option

structure Node where
  allocatableCpu : Int
  requestedSysCpu : Int
  wsCpu : Nat
  idleThresholdCpu : Int
  deriving DecidableEq, Repr

/-- So many workspaces fit on the node. -/
def Node.Fits (node : Node) (count : Nat) : Prop :=
  count * node.wsCpu + node.requestedSysCpu < node.allocatableCpu - node.idleThresholdCpu
  deriving Decidable

structure Books where
  codes : Codes
  store : Store
  promised : Finset Nat

def totalDedicatedCount (store : Store) : Nat :=
  store.workspaces.count fun row => row.dedicated && row.status ≠ .deleting

variable (codes : Codes) (store : Store) (node : Node)

def unusedAccessCodeCount : Nat := codes.count fun row => row.status = .unused

variable (b : Books)

/-- What `canProvision` answers, in numbers that are read right and not rounded; `Quantities.canProvision_agrees`
connects the two. -/
def Node.hasRoom : Bool :=
  node.Fits (totalDedicatedCount b.store + unusedAccessCodeCount b.codes + 1)

/-- What happens to the records. The flag of a request for a code says whether the cluster answers, and a new workspace
comes with the key of the code it is created for. -/
inductive Deed where
  | access (op : Op)
  | create (uid : String) (data : CreateData) (uuid : String) (profile commits : Bool) (code : Nat)
  | delete (uid : String) (uuid : Option String) (sessions : Sessions) (choice : Nat) (commits : Bool)

/-- A request for a code is made only if there is room. -/
def tested : Op → Op
  | .create uid uuid code expiresAt answers mailed =>
    .create uid uuid code expiresAt (answers && node.hasRoom b) mailed
  | op => op

def Books.promising : Op → Finset Nat
  | .create .. =>
    if node.Fits (totalDedicatedCount b.store + b.promised.card + 1) then insert b.codes.next b.promised else b.promised
  | _ => b.promised

/-- The creation of a dedicated workspace goes through. -/
def founds (uid : String) (data : CreateData) (uuid : String) (profile commits : Bool) : Bool :=
  data.dedicated && (run Manage.exec (Manage.createWorkspace uid data uuid profile commits) store).1.isOk

/-- One operation on the books. -/
def deedStep : Deed → Books
  | .access op =>
    let codes := perform b.codes (tested node b op)
    ⟨codes, b.store, (b.promising node op).filter fun id => (codes.rows id).isSome⟩
  | .create uid data uuid profile commits code =>
    ⟨b.codes, Manage.perform b.store (.create uid data uuid profile commits),
      if founds b.store uid data uuid profile commits then b.promised.erase code else b.promised⟩
  | .delete uid uuid sessions choice commits =>
    { b with store := Manage.perform b.store (.delete uid uuid sessions choice commits) }

/-- The records at the start: who has an `UNUSED` code has been promised a workspace. -/
def Books.start : Books :=
  ⟨codes, store, (Finset.range codes.next).filter fun id => (codes.rows id).any fun row => row.status = .unused⟩

/-- The dedicated workspaces and the codes that are waiting to be used fit on the node. -/
def WithinCapacity : Prop :=
  node.Fits (totalDedicatedCount b.store + unusedAccessCodeCount b.codes)
  deriving Decidable

def Op.unuses : Op → Option Nat
  | .fulfill .approve (some token) _ choice => (codes.find? (byUuid token.uuid) choice).map Prod.fst
  | .reset uid code choice =>
    ((codes.find? (byCode uid code) choice).filter fun found => found.2.status = .used).map Prod.fst
  | _ => none

/-- Only promised codes are approved and reset, and a dedicated workspace is created for a promised code that has been
used. -/
def KeepsPromises : Deed → Prop
  | .access op => ∀ id ∈ op.unuses b.codes, id ∈ b.promised
  | .create uid data uuid profile commits code =>
    founds b.store uid data uuid profile commits = true → code ∈ b.promised ∧ status b.codes code = some .used
  | .delete .. => True

instance (b : Books) : ∀ deed : Deed, Decidable (KeepsPromises b deed)
  | .access op => inferInstanceAs (Decidable (∀ id ∈ op.unuses b.codes, id ∈ b.promised))
  | .create .. => inferInstanceAs (Decidable (_ → _))
  | .delete .. => .isTrue trivial

section

theorem Node.Fits.mono {node : Node} {count fewer : Nat} (h : node.Fits count) (hle : fewer ≤ count) :
    node.Fits fewer := by
  have hscaled : (fewer : Int) * node.wsCpu ≤ count * node.wsCpu := by
    exact_mod_cast Nat.mul_le_mul_right node.wsCpu hle
  unfold Fits at h ⊢
  omega

theorem unusedAccessCodeCount_eq :
    unusedAccessCodeCount codes =
      ((Finset.range codes.next).filter fun id => (codes.rows id).any fun row => row.status = .unused).card := by
  unfold unusedAccessCodeCount count
  simp only [List.countP_eq_length_filter, Finset.card_def, Finset.filter_val, Finset.range_val, Multiset.range,
    Multiset.filter_coe, Multiset.coe_card, Bool.decide_eq_true]

variable {codes : Codes}

theorem status_eq_unused {id : Nat} :
    ((codes.rows id).any fun row => row.status = .unused) = true ↔ status codes id = some .unused := by
  cases hrow : codes.rows id <;> simp [status, hrow]

theorem lt_next_of_status {id : Nat} {st : AccessStatus} (h : status codes id = some st) : id < codes.next := by
  obtain ⟨row, hrow, -⟩ := map_eq_some_iff.mp h
  exact codes.lt_next hrow

theorem unusedAccessCodeCount_le {promised : Finset Nat}
    (h : ∀ id, status codes id = some .unused → id ∈ promised) : unusedAccessCodeCount codes ≤ promised.card := by
  rw [unusedAccessCodeCount_eq]
  refine Finset.card_le_card fun id hid => h id ?_
  exact status_eq_unused.mp (Finset.mem_filter.mp hid).2

end

section

variable {b : Books}

theorem status_unused_of_perform (hunique : UniqueCodes b.codes) {op : Op} {id : Nat}
    (h : status (perform b.codes op) id = some .unused) :
    status b.codes id = some .unused ∨ op.unuses b.codes = some id := by
  by_cases hchanges : ∃ row after, Changes b.codes op id row after
  · obtain ⟨row, after, hchanges⟩ := hchanges
    rw [status_of_changes hunique hchanges] at h
    cases h
    cases hchanges with
    | approve hfound => simp [Op.unuses, hfound]
    | reset hfound hstatus => simp [Op.unuses, hfound, hstatus]
  · left
    have hkept : ∀ row after, b.codes.rows id = some row → ¬Changes b.codes op id row after :=
      fun row after _ h => hchanges ⟨row, after, h⟩
    rcases status_of_not_changes hunique hkept with hsame | hnone | ⟨-, hnew⟩
    · rwa [hsame] at h
    · rw [hnone] at h
      cases h
    · rw [hnew] at h
      cases h

theorem unuses_tested (b : Books) (op : Op) (codes : Codes) : (tested node b op).unuses codes = op.unuses codes := by
  cases op <;> rfl

theorem workspaces_transact_create {store after : Store} {workspace : Workspace} {owner : String}
    (h : transact store [.create workspace owner] = some after) :
    ∃ image name, after.workspaces = store.workspaces.insert { workspace with image := image, name := name } := by
  simp only [transact, List.foldlM_cons, List.foldlM_nil, Write.apply, bind_eq_bind] at h
  split_ifs at h
  · simp at h
  · obtain ⟨_, hsaved, h⟩ := bind_eq_some_iff.mp h
    obtain ⟨row, hrow, hsaved⟩ := bind_eq_some_iff.mp hsaved
    obtain ⟨image, name, rfl⟩ := Manage.inserted_some hrow
    simp only [Store.saveMembership] at hsaved
    split_ifs at hsaved
    · simp only [pure_def, some.injEq] at hsaved h
      subst hsaved h
      exact ⟨image, name, rfl⟩

theorem totalDedicatedCount_exec_create (workspace : Workspace) (owner : String)
    (commits : Bool) (hstatus : workspace.status ≠ .deleting) :
    totalDedicatedCount (Manage.exec (.transaction [.create workspace owner] commits) store).2 =
      totalDedicatedCount store +
        if workspace.dedicated && (Manage.exec (.transaction [.create workspace owner] commits) store).1 then 1 else 0 := by
  cases htransact : Manage.transact store [.create workspace owner] with
  | none => simp [Manage.exec_violation commits htransact]
  | some after =>
    cases commits with
    | false => simp
    | true =>
      rw [Manage.exec_commit htransact]
      obtain ⟨image, name, hinsert⟩ := workspaces_transact_create htransact
      simp [totalDedicatedCount, hinsert, count_insert, hstatus]

theorem totalDedicatedCount_create (uid : String) (data : CreateData) (uuid : String) (profile commits : Bool) :
    totalDedicatedCount (Manage.perform store (.create uid data uuid profile commits)) =
      totalDedicatedCount store + if founds store uid data uuid profile commits then 1 else 0 := by
  simp only [founds, Manage.perform, Manage.createWorkspace]
  cases data.name with
  | none => simp [Except.isOk, Except.toBool]
  | some name =>
    by_cases hvalid : Manage.validName name = true
    · simp only [hvalid, Bool.not_true, Bool.false_eq_true, if_false, run_bind, run_perform, pure_eq, run_ret]
      rw [totalDedicatedCount_exec_create _ _ _ _ (by simp)]
      split_ifs <;> simp_all [Except.isOk, Except.toBool]
    · simp [hvalid, Except.isOk, Except.toBool]

theorem totalDedicatedCount_delete_le (uid : String) (uuid : Option String)
    (sessions : Sessions) (choice : Nat) (commits : Bool) :
    totalDedicatedCount (Manage.perform store (.delete uid uuid sessions choice commits)) ≤
      totalDedicatedCount store := by
  cases uuid with
  | none => exact Nat.le_refl _
  | some uuid =>
    rcases Manage.run_deleteWorkspace store uid uuid sessions choice commits with
      ⟨err, hrun, -⟩ | ⟨id, after, -, -, htransact, hrun⟩
    · rw [Manage.perform, hrun]
    · rw [Manage.perform, hrun]
      simp only [Manage.transact, List.foldlM_cons, List.foldlM_nil, Manage.Write.apply, bind_eq_bind, bind_some] at htransact
      split_ifs at htransact
      · simp at htransact
      · simp only [bind_some, pure_def, some.injEq] at htransact
        subst htransact
        exact count_delete_le ..

end

/-- What keeps the count in bounds. -/
structure Sound (node : Node) (b : Books) : Prop where
  unique : UniqueCodes b.codes
  unused : ∀ id, status b.codes id = some .unused → id ∈ b.promised
  room : node.Fits (totalDedicatedCount b.store + b.promised.card)

variable {node : Node}

theorem sound_start {codes : Codes} {store : Store} (hunique : UniqueCodes codes)
    (hwithin : WithinCapacity node (.start codes store)) : Sound node (.start codes store) where
  unique := hunique
  unused id hstatus :=
    Finset.mem_filter.mpr ⟨Finset.mem_range.mpr (lt_next_of_status hstatus), status_eq_unused.mpr hstatus⟩
  room := by
    unfold WithinCapacity at hwithin
    rw [unusedAccessCodeCount_eq] at hwithin
    exact hwithin

variable {b : Books}

theorem Sound.withinCapacity (h : Sound node b) : WithinCapacity node b :=
  h.room.mono (Nat.add_le_add_left (unusedAccessCodeCount_le h.unused) _)

theorem sound_access (h : Sound node b) {op : Op} (hcond : KeepsPromises b (.access op)) :
    Sound node (deedStep node b (.access op)) := by
  have hpromising : b.promised ⊆ b.promising node op := by
    unfold Books.promising
    split
    · split_ifs
      · exact Finset.subset_insert _ _
      · exact Finset.Subset.refl _
    · exact Finset.Subset.refl _
  have hroom : node.Fits (totalDedicatedCount b.store + (b.promising node op).card) := by
    unfold Books.promising
    split
    · split_ifs with hfits
      · exact hfits.mono (Nat.add_le_add_left (Finset.card_insert_le _ _) _)
      · exact h.room
    · exact h.room
  refine ⟨uniqueCodes_perform h.unique _, fun id hstatus => ?_, ?_⟩
  · refine Finset.mem_filter.mpr ⟨hpromising ?_, ?_⟩
    · rcases status_unused_of_perform h.unique hstatus with hbefore | hmade
      · exact h.unused id hbefore
      · rw [unuses_tested] at hmade
        exact hcond id hmade
    · obtain ⟨row, hrow, -⟩ := map_eq_some_iff.mp hstatus
      exact isSome_of_eq_some hrow
  · exact hroom.mono (Nat.add_le_add_left (Finset.card_filter_le _ _) _)

theorem sound_create (h : Sound node b) {uid : String} {data : CreateData}
    {uuid : String} {profile commits : Bool} {code : Nat}
    (hcond : KeepsPromises b (.create uid data uuid profile commits code)) :
    Sound node (deedStep node b (.create uid data uuid profile commits code)) := by
  refine ⟨h.unique, fun id hstatus => ?_, ?_⟩
  · simp only [deedStep] at hstatus ⊢
    split_ifs with hfounds
    · refine Finset.mem_erase.mpr ⟨?_, h.unused id hstatus⟩
      rintro rfl
      rw [(hcond hfounds).2] at hstatus
      cases hstatus
    · exact h.unused id hstatus
  · simp only [deedStep, totalDedicatedCount_create]
    split_ifs with hfounds
    · have hcard := Finset.card_erase_add_one (hcond hfounds).1
      exact h.room.mono (by omega)
    · exact h.room

theorem sound_step {deed : Deed} (h : Sound node b) (hcond : KeepsPromises b deed) :
    Sound node (deedStep node b deed) := by
  cases deed with
  | access op => exact sound_access h hcond
  | create uid data uuid profile commits code => exact sound_create h hcond
  | delete uid uuid sessions choice commits =>
    exact ⟨h.unique, h.unused, h.room.mono (Nat.add_le_add_right (totalDedicatedCount_delete_le ..) _)⟩

/-- If only promised codes are approved and reset, and dedicated workspaces are created for promised codes only, the
promised capacity exists throughout. -/
theorem promised_capacity_exists (node : Node) (codes : Codes) (store : Store) (deeds : List Deed)
    (hunique : UniqueCodes codes) (hwithin : WithinCapacity node (.start codes store))
    (hcond : Along (deedStep node) KeepsPromises (.start codes store) deeds) :
    Always (deedStep node) (WithinCapacity node) (.start codes store) deeds := by
  refine always_of_invariant (C := KeepsPromises) ?_ ?_ (sound_start hunique hwithin) hcond
  · exact fun b deed h hkeeps => sound_step h hkeeps
  · exact fun b h => h.withinCapacity

def smallNode : Node := ⟨1000, 0, 350, 350⟩

/-- A code is requested and approved, used, and a workspace created; later it is deleted. -/
theorem promised_capacity_exists_small :
    Always (deedStep smallNode) (WithinCapacity smallNode) (.start .empty .empty)
      [.access (.create "alice" "u1" "c1" 1000 true true),
        .access (.fulfill .approve (some ⟨some "alice", some "u1"⟩) "n1" 0),
        .access (.consume "alice" (some "c1") 1 0),
        .create "alice" ⟨some "space", "d", "img", true⟩ "w1" true true 1,
        .access (.create "bob" "u2" "c2" 1000 true true),
        .delete "alice" (some "w1") (fun _ => none) 0 true,
        .access (.create "bob" "u3" "c3" 1000 true true),
        .access (.fulfill .approve (some ⟨some "bob", some "u3"⟩) "n3" 0)] :=
  promised_capacity_exists smallNode .empty .empty _ uniqueCodes_empty (by decide) (by decide +kernel)

/-- Two codes are requested while there is room for one workspace, since a `NEW` code does not count, and both are
approved. -/
theorem promised_capacity_missing :
    UniqueCodes .empty ∧ WithinCapacity smallNode (.start .empty .empty) ∧
      ¬Always (deedStep smallNode) (WithinCapacity smallNode) (.start .empty .empty)
        [.access (.create "alice" "u1" "c1" 1000 true true), .access (.create "bob" "u2" "c2" 1000 true true),
          .access (.fulfill .approve (some ⟨some "alice", some "u1"⟩) "n1" 0),
          .access (.fulfill .approve (some ⟨some "bob", some "u2"⟩) "n2" 0)] := by
  refine ⟨uniqueCodes_empty, by decide, fun halways => ?_⟩
  exact absurd halways.final (by decide +kernel)

end HideServer.Access
