import HideServer.Async.Pool
import Mathlib.Data.List.Perm.Basic

/-!
# Updates of a shared cell

Tasks read a cell of the shared state and later store a content computed from it. In a run whose
stores are all `Fresh`, the content is that of the updates made one after the other.
-/

namespace Async

open Trace List Option Pool

variable {S Op A E : Type} {R : E → Type} {α β C : Type}

/-- A part of the shared state that some commands read and some store. -/
structure Cell (exec : (e : E) → S → R e × S) (C : Type) where
  view : S → C
  read : (e : E) → R e → Option C
  write : E → Option C
  view_of_read : ∀ e s c, read e (exec e s).1 = some c → view s = c
  view_exec : ∀ e s, view (exec e s).2 = (write e).getD (view s)

namespace Cell

variable {exec : (e : E) → S → R e × S} (cell : Cell exec C)

variable {p : Prog E R α} {f : α → Prog E R β}

def Apart (e : E) : Prop := cell.write e = none ∧ ∀ answer, cell.read e answer = none

/-- The program never stores. -/
abbrev Idle (p : Prog E R α) : Prop := p.Only fun e => cell.write e = none

/-- The program stores nothing but `content`, and that at most once. -/
def Owes (content : C) : Prog E R α → Prop
  | .ret _ => True
  | .await e next =>
    (cell.write e = some content ∧ ∀ answer, cell.Idle (next answer)) ∨
    (cell.write e = none ∧ ∀ answer, Owes content (next answer))

/-- What the program stores, if anything, comes by `effect` from what it has read first. -/
def Updates (effect : C → C) : Prog E R α → Prop
  | .ret _ => True
  | .await e next =>
    cell.write e = none ∧ ∀ answer,
      match cell.read e answer with
      | none => Updates effect (next answer)
      | some content => cell.Owes (effect content) (next answer)

variable {cell} {content : C} {effect : C → C}

theorem Idle.owes (hp : cell.Idle p) : cell.Owes content p := by
  induction p with
  | ret value => trivial
  | await e next ih => exact .inr ⟨hp.1, fun answer => ih answer (hp.2 answer)⟩

theorem Idle.updates (hp : cell.Idle p) : cell.Updates effect p := by
  induction p with
  | ret value => trivial
  | await e next ih =>
    refine ⟨hp.1, fun answer => ?_⟩
    cases cell.read e answer with
    | none => exact ih answer (hp.2 answer)
    | some content => exact Idle.owes (hp.2 answer)

theorem Owes.bind_left (hp : cell.Idle p) (hf : ∀ value, cell.Owes content (f value)) :
    cell.Owes content (p >>= f) := by
  induction p with
  | ret value => exact hf value
  | await e next ih => exact .inr ⟨hp.1, fun answer => ih answer (hp.2 answer)⟩

theorem Owes.bind_right (hp : cell.Owes content p) (hf : ∀ value, cell.Idle (f value)) :
    cell.Owes content (p >>= f) := by
  induction p with
  | ret value => exact (hf value).owes
  | await e next ih =>
    rcases hp with ⟨he, hnext⟩ | ⟨he, hnext⟩
    · exact .inl ⟨he, fun answer => (hnext answer).bind hf⟩
    · exact .inr ⟨he, fun answer => ih answer (hnext answer)⟩

theorem Owes.ite {c : Prop} [Decidable c] {q : Prog E R α} (hp : cell.Owes content p) (hq : cell.Owes content q) :
    cell.Owes content (if c then p else q) := by
  split
  · exact hp
  · exact hq

theorem Updates.ite {c : Prop} [Decidable c] {q : Prog E R α} (hp : cell.Updates effect p) (hq : cell.Updates effect q) :
    cell.Updates effect (if c then p else q) := by
  split
  · exact hp
  · exact hq

theorem Updates.bind_left (hp : p.Only cell.Apart) (hf : ∀ value, cell.Updates effect (f value)) :
    cell.Updates effect (p >>= f) := by
  induction p with
  | ret value => exact hf value
  | await e next ih =>
    refine ⟨hp.1.1, fun answer => ?_⟩
    rw [hp.1.2 answer]
    exact ih answer (hp.2 answer)

theorem Updates.bind_right (hp : cell.Updates effect p) (hf : ∀ value, cell.Idle (f value)) :
    cell.Updates effect (p >>= f) := by
  induction p with
  | ret value => exact (hf value).updates
  | await e next ih =>
    refine ⟨hp.1, fun answer => ?_⟩
    have hnext := hp.2 answer
    cases hread : cell.read e answer with
    | none =>
      rw [hread] at hnext
      exact ih answer hnext
    | some content =>
      rw [hread] at hnext
      exact Owes.bind_right hnext hf

theorem Updates.fetch {e : E} {f : R e → Prog E R α} (he : cell.write e = none)
    (hf : ∀ answer, ∃ content, cell.read e answer = some content ∧ cell.Owes (effect content) (f answer)) :
    cell.Updates effect (Prog.perform e >>= f) := by
  refine ⟨he, fun answer => ?_⟩
  obtain ⟨content, hread, howes⟩ := hf answer
  rw [hread]
  exact howes

theorem Idle.view_run (hp : cell.Idle p) (s : S) : cell.view (p.run exec s).2 = cell.view s :=
  hp.run_eq (fun e s he => by rw [cell.view_exec, he, getD_none]) s

theorem Owes.view_run (hp : cell.Owes content p) (s : S) :
    cell.view (p.run exec s).2 = cell.view s ∨ cell.view (p.run exec s).2 = content := by
  induction p generalizing s with
  | ret value => exact .inl rfl
  | await e next ih =>
    rcases hp with ⟨he, hnext⟩ | ⟨he, hnext⟩
    · right
      rw [Prog.run_await, (hnext _).view_run, cell.view_exec, he, getD_some]
    · have hview : cell.view (exec e s).2 = cell.view s := by rw [cell.view_exec, he, getD_none]
      rw [Prog.run_await, ← hview]
      exact ih _ (hnext _) _

theorem Updates.view_run (hp : cell.Updates effect p) (s : S) :
    cell.view (p.run exec s).2 = cell.view s ∨ cell.view (p.run exec s).2 = effect (cell.view s) := by
  induction p generalizing s with
  | ret value => exact .inl rfl
  | await e next ih =>
    have hview : cell.view (exec e s).2 = cell.view s := by rw [cell.view_exec, hp.1, getD_none]
    have hnext := hp.2 (exec e s).1
    rw [Prog.run_await, ← hview]
    cases hread : cell.read e (exec e s).1 with
    | none =>
      rw [hread] at hnext
      exact ih _ hnext _
    | some content =>
      rw [hread, ← cell.view_of_read e s content hread, ← hview] at hnext
      exact Owes.view_run hnext _

variable (cell)

def firstRead (seen : Exchange E R) : Option C := seen.findSome? fun x => cell.read x.1 x.2

def stored (seen : Exchange E R) : Bool := seen.any fun x => (cell.write x.1).isSome

/-- What is left of a task, by how far it has come. -/
def Sound (effect : C → C) (seen : Exchange E R) (p : Prog E R α) : Prop :=
  if cell.stored seen then cell.Idle p
  else
    match cell.firstRead seen with
    | none => cell.Updates effect p
    | some content => cell.Owes (effect content) p

variable {cell}

@[simp] theorem firstRead_nil : cell.firstRead [] = none := rfl

@[simp] theorem firstRead_cons (e : E) (answer : R e) (seen : Exchange E R) :
    cell.firstRead (⟨e, answer⟩ :: seen) = (cell.read e answer).or (cell.firstRead seen) := by
  simp only [firstRead, findSome?_cons]
  cases cell.read e answer <;> rfl

@[simp] theorem stored_nil : cell.stored ([] : Exchange E R) = false := rfl

@[simp] theorem stored_cons (e : E) (answer : R e) (seen : Exchange E R) :
    cell.stored (⟨e, answer⟩ :: seen) = ((cell.write e).isSome || cell.stored seen) := rfl

theorem firstRead_snoc (seen : Exchange E R) (e : E) (answer : R e) :
    cell.firstRead (seen ++ [⟨e, answer⟩]) = (cell.firstRead seen).or (cell.read e answer) := by
  simp [firstRead, findSome?_append]

theorem stored_snoc (seen : Exchange E R) (e : E) (answer : R e) :
    cell.stored (seen ++ [⟨e, answer⟩]) = (cell.stored seen || (cell.write e).isSome) := by
  simp [stored]

theorem Sound.write {seen : Exchange E R} {e : E} {next : R e → Prog E R α} {stores : C}
    (h : cell.Sound effect seen (.await e next)) (hwrite : cell.write e = some stores) :
    cell.stored seen = false ∧ ∃ content, cell.firstRead seen = some content ∧ stores = effect content := by
  unfold Sound at h
  split_ifs at h with hstored
  · cases hwrite.symm.trans h.1
  · refine ⟨by simpa using hstored, ?_⟩
    cases hread : cell.firstRead seen with
    | none =>
      rw [hread] at h
      cases hwrite.symm.trans h.1
    | some content =>
      rw [hread] at h
      rcases h with ⟨he, -⟩ | ⟨he, -⟩
      · cases hwrite.symm.trans he
        exact ⟨content, rfl, rfl⟩
      · cases hwrite.symm.trans he

theorem Sound.snoc {seen : Exchange E R} {e : E} {next : R e → Prog E R α}
    (h : cell.Sound effect seen (.await e next)) (answer : R e) :
    cell.Sound effect (seen ++ [⟨e, answer⟩]) (next answer) := by
  unfold Sound at h ⊢
  rw [stored_snoc, firstRead_snoc]
  by_cases hstored : cell.stored seen = true
  · rw [if_pos hstored] at h
    rw [hstored, Bool.true_or, if_pos rfl]
    exact h.2 answer
  · rw [if_neg hstored] at h
    rw [Bool.not_eq_true] at hstored
    rw [hstored, Bool.false_or]
    cases hread : cell.firstRead seen with
    | none =>
      rw [hread] at h
      have hnext := h.2 answer
      rw [h.1, none_or]
      simpa using hnext
    | some content =>
      rw [hread] at h
      rcases h with ⟨he, hidle⟩ | ⟨he, howes⟩
      · rw [he]
        exact hidle answer
      · rw [he]
        exact howes answer

section

theorem perm_filter_set {τ : Type} (p : τ → Bool) {xs : List τ} {i : Nat} {x : τ} (y : τ)
    (hx : xs[i]? = some x) (hpx : p x = false) (hpy : p y = true) :
    ((xs.set i y).filter p).Perm (xs.filter p ++ [y]) := by
  induction xs generalizing i with
  | nil => cases hx
  | cons first xs ih =>
    cases i with
    | zero =>
      cases hx
      rw [set_cons_zero, filter_cons_of_pos hpy, filter_cons_of_neg (by simp [hpx])]
      exact (perm_append_singleton y _).symm
    | succ i =>
      rw [set_cons_succ, filter_cons, filter_cons]
      split
      · exact (ih hx).cons first
      · exact ih hx

theorem map_filter_set {τ κ : Type} (p : τ → Bool) (f : τ → κ) {xs : List τ} {i : Nat} {x : τ}
    (y : τ) (hx : xs[i]? = some x) (hp : p y = p x) (hf : f y = f x) :
    ((xs.set i y).filter p).map f = (xs.filter p).map f := by
  induction xs generalizing i with
  | nil => rfl
  | cons first xs ih =>
    cases i with
    | zero =>
      cases hx
      simp [filter_cons, hp, apply_ite, hf]
    | succ i =>
      rw [set_cons_succ, filter_cons, filter_cons]
      split
      · exact congrArg (f first :: ·) (ih hx)
      · exact ih hx

variable (cell) (program : Op → Prog E R α) (outside : S → A → S)

/-- The task whose next command, executed by this action, stores something in the cell. -/
def storing (pool : Pool S Op E R α) : Action Op A → Option (Task Op E R α)
  | .resume i => pool.tasks[i]?.filter fun task => (task.prog.head?.bind cell.write).isSome
  | _ => none

/-- A task that stores has read what the cell holds now. -/
def Fresh (pool : Pool S Op E R α) (action : Action Op A) : Prop :=
  ∀ task ∈ cell.storing pool action, cell.firstRead task.seen = some (cell.view pool.shared)

instance [DecidableEq C] (pool : Pool S Op E R α) (action : Action Op A) : Decidable (cell.Fresh pool action) := by
  unfold Fresh
  infer_instance

def stores (pool : Pool S Op E R α) : List (Action Op A) → List Op
  | [] => []
  | action :: actions =>
    ((cell.storing pool action).map Task.op).toList ++ stores (step program exec outside pool action) actions

def Updating (effect : Op → C → C) (pool : Pool S Op E R α) : Prop :=
  ∀ task ∈ pool.tasks, cell.Sound (effect task.op) task.seen task.prog

variable {cell program outside} {effect : Op → C → C} {pool : Pool S Op E R α}

theorem mem_storing {action : Action Op A} {task : Task Op E R α} :
    task ∈ cell.storing pool action ↔ ∃ i e next stored, action = .resume i ∧ pool.tasks[i]? = some task ∧
      task.prog = .await e next ∧ cell.write e = some stored := by
  cases action with
  | spawn op => simp [storing]
  | outside a => simp [storing]
  | resume i =>
    simp only [storing, mem_def, filter_eq_some_iff]
    constructor
    · rintro ⟨htask, hwrite⟩
      cases hprog : task.prog with
      | ret value =>
        rw [hprog] at hwrite
        cases hwrite
      | await e next =>
        rw [hprog] at hwrite
        obtain ⟨stored, hstored⟩ := isSome_iff_exists.mp hwrite
        exact ⟨i, e, next, stored, rfl, htask, rfl, hstored⟩
    · rintro ⟨j, e, next, stored, hj, htask, hprog, hstored⟩
      cases hj
      refine ⟨htask, ?_⟩
      rw [hprog]
      exact isSome_iff_exists.mpr ⟨stored, hstored⟩

theorem write_of_not_storing {i : Nat} {task : Task Op E R α} {e : E} {next : R e → Prog E R α}
    (hstoring : cell.storing pool (.resume i : Action Op A) = none)
    (htask : pool.tasks[i]? = some task) (hprog : task.prog = .await e next) : cell.write e = none := by
  by_contra hwrite
  obtain ⟨stored, hstored⟩ := ne_none_iff_exists'.mp hwrite
  have hmem : task ∈ cell.storing pool (.resume i : Action Op A) :=
    mem_storing.mpr ⟨i, e, next, stored, rfl, htask, hprog, hstored⟩
  rw [hstoring] at hmem
  cases hmem

theorem updating_step (hprogram : ∀ op, cell.Updates (effect op) (program op))
    (hpool : cell.Updating effect pool) (action : Action Op A) :
    cell.Updating effect (step program exec outside pool action) := by
  apply forall_tasks_step program exec outside hpool fun op _ => hprogram op
  intro task e next hprog hsound
  rw [hprog] at hsound
  exact hsound.snoc _

theorem view_step (hpool : cell.Updating effect pool)
    (houtside : ∀ s a, cell.view (outside s a) = cell.view s) {action : Action Op A} (hfresh : cell.Fresh pool action) :
    cell.view (step program exec outside pool action).shared =
      (cell.storing pool action).elim (cell.view pool.shared) fun task =>
        effect task.op (cell.view pool.shared) := by
  cases hstoring : cell.storing pool action with
  | some task =>
    obtain ⟨i, e, next, stored, rfl, htask, hprog, hstored⟩ := mem_storing.mp hstoring
    have hsound := hpool task (mem_of_getElem? htask)
    rw [hprog] at hsound
    obtain ⟨-, content, hread, rfl⟩ := hsound.write hstored
    cases hread.symm.trans (hfresh task hstoring)
    rw [step_resume_of_await program exec outside htask hprog, elim_some]
    rw [cell.view_exec, hstored, getD_some]
  | none =>
    cases action with
    | spawn op => rfl
    | outside a => exact houtside _ a
    | resume i =>
      rcases step_resume_cases program exec outside pool i with hsame | ⟨task, e, next, htask, hprog, hstep⟩
      · rw [hsame, elim_none]
      · rw [hstep, elim_none]
        rw [cell.view_exec, write_of_not_storing hstoring htask hprog, getD_none]

/-- Where stores are fresh, the content is that of the updates one after the other. -/
theorem view_run (hprogram : ∀ op, cell.Updates (effect op) (program op))
    (houtside : ∀ s a, cell.view (outside s a) = cell.view s) (hpool : cell.Updating effect pool)
    {actions : List (Action Op A)} (hfresh : Along (step program exec outside) cell.Fresh pool actions) :
    cell.view (run (step program exec outside) pool actions).shared =
      (cell.stores program outside pool actions).foldl (fun content op => effect op content)
        (cell.view pool.shared) := by
  induction actions generalizing pool with
  | nil => rfl
  | cons action actions ih =>
    rw [run_cons, ih (updating_step hprogram hpool action) hfresh.2, view_step hpool houtside hfresh.1, stores,
      foldl_append]
    cases cell.storing pool action with
    | none => rfl
    | some task => rfl

theorem reads_step {P : C → Prop} (hview : P (cell.view pool.shared))
    (hreads : ∀ task ∈ pool.tasks, ∀ content ∈ cell.firstRead task.seen, P content) (action : Action Op A) :
    ∀ task ∈ (step program exec outside pool action).tasks, ∀ content ∈ cell.firstRead task.seen, P content := by
  apply forall_tasks_step program exec outside hreads
  · intro op _ content hcontent
    cases hcontent
  · intro task e next _ hseen content hcontent
    rw [firstRead_snoc, mem_def, or_eq_some_iff] at hcontent
    rcases hcontent with hcontent | ⟨-, hcontent⟩
    · exact hseen content hcontent
    · rw [← cell.view_of_read e _ _ hcontent]
      exact hview

/-- The tasks that have stored. -/
def storers (cell : Cell exec C) (pool : Pool S Op E R α) : List Op :=
  (pool.tasks.filter fun task => cell.stored task.seen).map Task.op

theorem perm_storers_step (hpool : cell.Updating effect pool) (action : Action Op A) :
    (cell.storers (step program exec outside pool action)).Perm
      (cell.storers pool ++ ((cell.storing pool action).map Task.op).toList) := by
  cases hstoring : cell.storing pool action with
  | some task =>
    obtain ⟨i, e, next, content, rfl, htask, hprog, hwrite⟩ := mem_storing.mp hstoring
    have hsound := hpool task (mem_of_getElem? htask)
    rw [hprog] at hsound
    rw [step_resume_of_await program exec outside htask hprog]
    have hset := perm_filter_set (fun task => cell.stored task.seen)
      ⟨task.op, task.seen ++ [⟨e, (exec e pool.shared).1⟩], next (exec e pool.shared).1⟩ htask (hsound.write hwrite).1
      (by simp [stored_snoc, hwrite])
    exact (hset.map Task.op).trans (by simp [storers])
  | none =>
    cases action with
    | spawn op => simp [storers, stored]
    | outside a => simp [storers]
    | resume i =>
      rcases step_resume_cases program exec outside pool i with hsame | ⟨task, e, next, htask, hprog, hstep⟩
      · rw [hsame]
        simp
      · have hwrite := write_of_not_storing hstoring htask hprog
        have hset := map_filter_set (fun task => cell.stored task.seen) Task.op
          ⟨task.op, task.seen ++ [⟨e, (exec e pool.shared).1⟩], next (exec e pool.shared).1⟩ htask
          (by simp [stored_snoc, hwrite]) rfl
        rw [hstep]
        simp only [storers, hset, map_none, toList_none, append_nil]
        exact Perm.refl _

theorem perm_storers_run (hprogram : ∀ op, cell.Updates (effect op) (program op))
    (hpool : cell.Updating effect pool) (actions : List (Action Op A)) :
    (cell.storers (run (step program exec outside) pool actions)).Perm
      (cell.storers pool ++ cell.stores program outside pool actions) := by
  induction actions generalizing pool with
  | nil => simp [stores]
  | cons action actions ih =>
    rw [run_cons, stores, ← append_assoc]
    exact (ih (updating_step hprogram hpool action)).trans ((perm_storers_step hpool action).append_right _)

end

end Cell

end Async
