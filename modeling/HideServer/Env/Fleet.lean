import HideServer.Env.Opened

/-!
# Instances with the same files

What one instance writes to a file all of them read; otherwise a step leaves the others as they are.
-/

namespace HideServer.Env

open Sync

variable {U : Type}

/-- `randomUUID()` is not empty. -/
abbrev InstanceId := { id : String // id ≠ "" }

/-- The instances by id. -/
abbrev Fleet (U : Type) := InstanceId → Instance U

namespace Fleet

def act (fleet : Fleet U) (i : InstanceId) (label : Sync.Label U) : Fleet U :=
  let inst := Sync.step (fleet i) label
  fun j => if j = i then inst else { fleet j with files := inst.files }

variable {fleet : Fleet U} {i j : InstanceId}

theorem act_self (label : Sync.Label U) : fleet.act i label i = Sync.step (fleet i) label :=
  if_pos rfl

theorem act_of_ne (hne : j ≠ i) (label : Sync.Label U) :
    fleet.act i label j = { fleet j with files := (Sync.step (fleet i) label).files } :=
  if_neg hne

theorem users_act_of_ne (hne : j ≠ i) (label : Sync.Label U) : (fleet.act i label j).users = (fleet j).users := by
  rw [act_of_ne hne]
  rfl

theorem opening_act_of_ne (hne : j ≠ i) (label : Sync.Label U) : (fleet.act i label j).opening = (fleet j).opening := by
  rw [act_of_ne hne]
  rfl

end Fleet

def e1 : InstanceId := ⟨"e1", by decide⟩

def e2 : InstanceId := ⟨"e2", by decide⟩

end HideServer.Env
