import HideServer.Async.Trace
import HideServer.Async.Dialogue

/-!
# Interleaved programs

A pool is a shared state and the tasks started so far. An action starts a task, executes the next
command of one, or changes the state from outside. What a task has yet to do follows from its
operation and what it has seen: that is `Residue`.
-/

namespace Async

open List

variable {S Op A E : Type} {R : E → Type} {α β : Type}

variable {seen : Exchange E R}

/-- `Residue p seen q`: after the exchange `seen`, what is left of `p` is `q`. -/
inductive Residue : Prog E R α → Exchange E R → Prog E R α → Prop where
  | refl (p : Prog E R α) : Residue p [] p
  | await {e : E} {next : R e → Prog E R α} {answer : R e} {seen : Exchange E R} {q : Prog E R α}
      (h : Residue (next answer) seen q) : Residue (.await e next) (⟨e, answer⟩ :: seen) q

variable {p : Prog E R α}

namespace Residue

theorem snoc {e : E} {next : R e → Prog E R α} (h : Residue p seen (.await e next)) (answer : R e) :
    Residue p (seen ++ [⟨e, answer⟩]) (next answer) := by
  generalize hq : Prog.await e next = q at h
  induction h with
  | refl p =>
    subst hq
    exact .await (.refl _)
  | await h ih => exact .await (ih hq)

variable {q : Prog E R α}

theorem only {ok : E → Prop} (h : Residue p seen q) (hp : p.Only ok) : q.Only ok := by
  induction h with
  | refl p => exact hp
  | await h ih => exact ih (hp.2 _)

theorem safe {ok : E → Prop} {good : (e : E) → R e → Prop} {post : α → Prop} (h : Residue p seen q)
    (hp : p.Safe ok good post) (hseen : ∀ x ∈ seen, good x.1 x.2) : q.Safe ok good post := by
  induction h with
  | refl p => exact hp
  | await h ih =>
    apply ih
    · exact hp.2 _ (hseen _ mem_cons_self)
    · intro x hx
      exact hseen x (mem_cons_of_mem _ hx)

@[simp] theorem of_ret {value : α} : Residue (.ret value) seen q ↔ seen = [] ∧ q = .ret value := by
  constructor
  · intro h
    cases h
    exact ⟨rfl, rfl⟩
  · rintro ⟨rfl, rfl⟩
    exact .refl _

theorem of_await {e : E} {next : R e → Prog E R α} :
    Residue (.await e next) seen q ↔ (seen = [] ∧ q = .await e next) ∨
        ∃ answer rest, seen = ⟨e, answer⟩ :: rest ∧ Residue (next answer) rest q := by
  constructor
  · intro h
    cases h with
    | refl => exact .inl ⟨rfl, rfl⟩
    | await h => exact .inr ⟨_, _, rfl, h⟩
  · rintro (⟨rfl, rfl⟩ | ⟨answer, rest, rfl, h⟩)
    · exact .refl _
    · exact .await h

end Residue

/-- Whatever the program is answered, the exchange it ends with satisfies `P`. -/
def Prog.Ends (P : Exchange E R → Prop) : Prog E R α → Prop
  | .ret _ => P []
  | .await e next => ∀ answer, Ends (fun seen => P (⟨e, answer⟩ :: seen)) (next answer)

theorem Prog.Ends.mono {P Q : Exchange E R → Prop} (hp : p.Ends P) (himp : ∀ seen, P seen → Q seen) : p.Ends Q := by
  induction p generalizing P Q with
  | ret value => exact himp [] hp
  | await e next ih =>
    intro answer
    exact ih answer (hp answer) fun seen => himp (⟨e, answer⟩ :: seen)

theorem Prog.Ends.bind {P Q : Exchange E R → Prop} {f : α → Prog E R β} (hp : p.Ends Q)
    (hf : ∀ seen value, Q seen → (f value).Ends fun rest => P (seen ++ rest)) : (p >>= f).Ends P := by
  induction p generalizing P Q with
  | ret value => exact hf [] value hp
  | await e next ih =>
    intro answer
    exact ih answer (hp answer) fun seen value hseen => hf (⟨e, answer⟩ :: seen) value hseen

theorem Prog.Only.ends {ok : E → Prop} (hp : p.Only ok) : p.Ends fun seen => ∀ x ∈ seen, ok x.1 := by
  suffices h : ∀ done : Exchange E R, (∀ x ∈ done, ok x.1) → p.Ends fun seen => ∀ x ∈ done ++ seen, ok x.1 from
    h [] fun x hx => nomatch hx
  induction p with
  | ret value =>
    intro done hdone x hx
    rw [append_nil] at hx
    exact hdone x hx
  | await e next ih =>
    intro done hdone answer
    have hnext := ih answer (hp.2 answer) (done ++ [⟨e, answer⟩]) (by
      intro x hx
      rcases mem_append.mp hx with hx | hx
      · exact hdone x hx
      · rw [mem_singleton] at hx
        subst hx
        exact hp.1)
    simpa only [append_assoc, singleton_append] using hnext

theorem Residue.ends {P : Exchange E R → Prop} {value : α} (h : Residue p seen (.ret value)) (hp : p.Ends P) :
    P seen := by
  generalize hq : Prog.ret value = q at h
  induction h generalizing P with
  | refl p =>
    subst hq
    exact hp
  | await h ih => exact ih (hp _) hq

structure Task (Op E : Type) (R : E → Type) (α : Type) where
  op : Op
  seen : Exchange E R
  prog : Prog E R α

/-- A shared state and the tasks over it. -/
structure Pool (S Op E : Type) (R : E → Type) (α : Type) where
  shared : S
  tasks : List (Task Op E R α)

/-- A task starts, a task goes on, or the state changes from outside. -/
inductive Action (Op A : Type) where
  | spawn (op : Op)
  | resume (i : Nat)
  | outside (a : A)
  deriving DecidableEq, Repr

namespace Pool

variable (program : Op → Prog E R α) (exec : (e : E) → S → R e × S) (outside : S → A → S)

variable (pool : Pool S Op E R α)

/-- The next command of a task is executed. -/
def advance (i : Nat) (task : Task Op E R α) : Pool S Op E R α :=
  match task.prog with
  | .ret _ => pool
  | .await e next =>
    { shared := (exec e pool.shared).2
      tasks := pool.tasks.set i
        { task with
          seen := task.seen ++ [⟨e, (exec e pool.shared).1⟩]
          prog := next (exec e pool.shared).1 } }

def step : Action Op A → Pool S Op E R α
  | .spawn op => { pool with tasks := pool.tasks ++ [⟨op, [], program op⟩] }
  | .resume i =>
    match pool.tasks[i]? with
    | none => pool
    | some task => advance exec pool i task
  | .outside a => { pool with shared := outside pool.shared a }

@[simp] theorem step_spawn (op : Op) :
    step program exec outside pool (.spawn op) =
      { pool with tasks := pool.tasks ++ [⟨op, [], program op⟩] } := rfl

@[simp] theorem step_outside (a : A) :
    step program exec outside pool (.outside a) = { pool with shared := outside pool.shared a } :=
  rfl

variable {task : Task Op E R α} {pool : Pool S Op E R α} {i : Nat} {e : E}

theorem step_resume_of_await {next : R e → Prog E R α}
    (htask : pool.tasks[i]? = some task) (hprog : task.prog = .await e next) :
    step program exec outside pool (.resume i) =
      { shared := (exec e pool.shared).2
        tasks := pool.tasks.set i
          ⟨task.op, task.seen ++ [⟨e, (exec e pool.shared).1⟩], next (exec e pool.shared).1⟩ } := by
  simp only [step, htask, advance, hprog]

theorem step_resume_cases (pool : Pool S Op E R α) (i : Nat) :
    step program exec outside pool (.resume i) = pool ∨
    ∃ task e next, pool.tasks[i]? = some task ∧ task.prog = .await e next ∧
      step program exec outside pool (.resume i) =
        { shared := (exec e pool.shared).2
          tasks := pool.tasks.set i
            ⟨task.op, task.seen ++ [⟨e, (exec e pool.shared).1⟩], next (exec e pool.shared).1⟩ } := by
  cases htask : pool.tasks[i]? with
  | none =>
    left
    simp only [step, htask]
  | some task =>
    cases hprog : task.prog with
    | ret value =>
      left
      simp only [step, htask, advance, hprog]
    | await e next =>
      right
      exact ⟨task, e, next, rfl, hprog, step_resume_of_await program exec outside htask hprog⟩

def next? (pool : Pool S Op E R α) (i : Nat) : Option (Op × E) :=
  pool.tasks[i]?.bind fun task => task.prog.head?.map (Prod.mk task.op)

variable {program exec outside} in
theorem next?_eq_none (h : pool.next? i = none) : step program exec outside pool (.resume i) = pool := by
  rcases step_resume_cases program exec outside pool i with hsame | ⟨task, e, next, htask, hprog, -⟩
  · exact hsame
  · simp [next?, htask, hprog, Prog.head?] at h

theorem next?_eq_some {op : Op} (h : pool.next? i = some (op, e)) :
    ∃ task next, pool.tasks[i]? = some task ∧ task.op = op ∧ task.prog = .await e next := by
  obtain ⟨task, htask, hhead⟩ := Option.bind_eq_some_iff.mp h
  obtain ⟨cmd, hcmd, heq⟩ := Option.map_eq_some_iff.mp hhead
  cases heq
  cases hprog : task.prog with
  | ret value =>
    rw [hprog] at hcmd
    cases hcmd
  | await e' next =>
    rw [hprog] at hcmd
    cases hcmd
    exact ⟨task, next, htask, rfl, hprog⟩

/-- The state stays, or a command of a task is executed, or something happens from outside. -/
theorem step_shared_cases (pool : Pool S Op E R α) (action : Action Op A) :
    (step program exec outside pool action).shared = pool.shared ∨
    (∃ i op e, action = .resume i ∧ pool.next? i = some (op, e) ∧
      (step program exec outside pool action).shared = (exec e pool.shared).2) ∨
    ∃ a, action = .outside a ∧ (step program exec outside pool action).shared = outside pool.shared a := by
  cases action with
  | spawn op => exact .inl rfl
  | resume i =>
    cases hnext : pool.next? i with
    | none =>
      left
      rw [next?_eq_none hnext]
    | some next =>
      obtain ⟨task, rest, htask, -, hprog⟩ := next?_eq_some hnext
      refine .inr (.inl ⟨i, next.1, next.2, rfl, hnext, ?_⟩)
      rw [step_resume_of_await program exec outside htask hprog]
  | outside a => exact .inr (.inr ⟨a, rfl, rfl⟩)

variable {action : Action Op A}

/-- A task was there before, has been spawned, or has had an answer. -/
theorem step_task_cases (h : (step program exec outside pool action).tasks[i]? = some task) :
    pool.tasks[i]? = some task ∨
    (∃ op, action = .spawn op ∧ i = pool.tasks.length ∧ task = ⟨op, [], program op⟩) ∨
    ∃ before e next, action = .resume i ∧ pool.tasks[i]? = some before ∧ before.prog = .await e next ∧ task =
        ⟨before.op, before.seen ++ [⟨e, (exec e pool.shared).1⟩], next (exec e pool.shared).1⟩ := by
  cases action with
  | spawn op =>
    rw [step_spawn, getElem?_append] at h
    split at h
    · exact .inl h
    · rw [getElem?_singleton] at h
      split at h
      · cases h
        exact .inr (.inl ⟨op, rfl, by omega, rfl⟩)
      · cases h
  | resume j =>
    rcases step_resume_cases program exec outside pool j with hsame | ⟨before, e, next, hbefore, hprog, hstep⟩
    · rw [hsame] at h
      exact .inl h
    · rw [hstep, getElem?_set] at h
      split_ifs at h with hij
      · subst hij
        cases h
        exact .inr (.inr ⟨before, e, next, rfl, hbefore, hprog, rfl⟩)
      · exact .inl h
  | outside a => exact .inl h

variable {program exec outside} in
theorem ne_resume_of_same
    (hbefore : pool.tasks[i]? = some task) (hafter : (step program exec outside pool action).tasks[i]? = some task)
    (he : e ∈ task.prog.head?) : action ≠ .resume i := by
  rintro rfl
  cases hprog : task.prog with
  | ret value =>
    rw [hprog] at he
    cases he
  | await e' next =>
    rw [step_resume_of_await program exec outside hbefore hprog,
      List.getElem?_set_self (List.getElem?_eq_some_iff.mp hbefore).1] at hafter
    -- it would have seen one answer more
    have hseen := congrArg (fun task => task.seen.length) (Option.some.inj hafter)
    simp at hseen

theorem countP_resume {next : R e → Prog E R α}
    (htask : pool.tasks[i]? = some task) (hprog : task.prog = .await e next) (p : Task Op E R α → Bool) :
    (step program exec outside pool (.resume i)).tasks.countP p + (if p task then 1 else 0) = pool.tasks.countP p +
        if p ⟨task.op, task.seen ++ [⟨e, (exec e pool.shared).1⟩], next (exec e pool.shared).1⟩ then 1 else 0 := by
  obtain ⟨hlt, hget⟩ := List.getElem?_eq_some_iff.mp htask
  have hcounted : (if p task then 1 else 0) ≤ pool.tasks.countP p := by
    split_ifs with hp
    · exact countP_pos_iff.mpr ⟨task, mem_of_getElem? htask, hp⟩
    · exact Nat.zero_le _
  rw [step_resume_of_await program exec outside htask hprog, countP_set hlt, hget]
  omega

/-- What is true of a task that has just been spawned, and stays true when it goes on, is true of every task. -/
theorem forall_tasks_step {P : Task Op E R α → Prop} (h : ∀ task ∈ pool.tasks, P task)
    (hspawn : ∀ op, action = .spawn op → P ⟨op, [], program op⟩)
    (hresume : ∀ task e next, task.prog = .await e next → P task →
      P ⟨task.op, task.seen ++ [⟨e, (exec e pool.shared).1⟩], next (exec e pool.shared).1⟩) :
    ∀ task ∈ (step program exec outside pool action).tasks, P task := by
  intro task htask
  obtain ⟨i, hi⟩ := getElem?_of_mem htask
  rcases step_task_cases program exec outside hi with hold | ⟨op, hop, -, rfl⟩ | ⟨before, e, next, -, hbefore, hprog, rfl⟩
  · exact h task (mem_of_getElem? hold)
  · exact hspawn op hop
  · exact hresume before e next hprog (h before (mem_of_getElem? hbefore))

def Genuine (pool : Pool S Op E R α) : Prop :=
  ∀ task ∈ pool.tasks, Residue (program task.op) task.seen task.prog

theorem genuine_step (hpool : Genuine program pool)
    (action : Action Op A) : Genuine program (step program exec outside pool action) := by
  apply forall_tasks_step program exec outside hpool
  · intro op _
    exact .refl _
  · intro task e next hprog hresidue
    rw [hprog] at hresidue
    exact hresidue.snoc _

/-- No task issues any other commands. -/
def Confined (ok : E → Prop) (pool : Pool S Op E R α) : Prop := ∀ task ∈ pool.tasks, task.prog.Only ok

variable {program exec outside} {ok : E → Prop} {pool : Pool S Op E R α}

theorem Confined.next (h : pool.Confined ok) {op : Op} (hnext : pool.next? i = some (op, e)) : ok e := by
  obtain ⟨task, next, htask, -, hprog⟩ := next?_eq_some hnext
  have honly := h task (mem_of_getElem? htask)
  rw [hprog] at honly
  exact honly.1

theorem confined_step (h : pool.Confined ok) (hspawn : ∀ op, action = .spawn op → (program op).Only ok) :
    (step program exec outside pool action).Confined ok := by
  apply forall_tasks_step program exec outside h hspawn
  intro task e next hprog honly
  rw [hprog] at honly
  exact honly.2 _

variable {good : (e : E) → R e → Prop}

/-- No task issues others, as long as the answers are good. -/
def Guarded (ok : E → Prop) (good : (e : E) → R e → Prop) (pool : Pool S Op E R α) : Prop :=
  ∀ task ∈ pool.tasks, task.prog.Safe ok good fun _ => True

theorem Guarded.next (h : pool.Guarded ok good) {op : Op} (hnext : pool.next? i = some (op, e)) : ok e := by
  obtain ⟨task, next, htask, -, hprog⟩ := next?_eq_some hnext
  have hsafe := h task (mem_of_getElem? htask)
  rw [hprog] at hsafe
  exact hsafe.1

theorem guarded_step (h : pool.Guarded ok good) (hprogram : ∀ op, (program op).Safe ok good fun _ => True)
    (hgood : ∀ e, good e (exec e pool.shared).1) (action : Action Op A) :
    (step program exec outside pool action).Guarded ok good := by
  apply forall_tasks_step program exec outside h fun op _ => hprogram op
  intro task e next hprog hsafe
  rw [hprog] at hsafe
  exact hsafe.2 _ (hgood e)

/-- The tasks count on a property of the shared state, and do nothing that takes it away. -/
structure Assured (inv : S → Prop) (ok : E → Prop) (good : (e : E) → R e → Prop) (post : Op → α → Prop)
    (pool : Pool S Op E R α) : Prop where
  shared : inv pool.shared
  tasks : ∀ task ∈ pool.tasks, task.prog.Safe ok good (post task.op)

variable {inv : S → Prop} {post : Op → α → Prop}

/-- Safe programs keep the invariant at every command. -/
theorem assured_step (h : pool.Assured inv ok good post)
    (hspawn : ∀ op, action = .spawn op → (program op).Safe ok good (post op))
    (hexec : ∀ e, good e (exec e pool.shared).1 ∧ (ok e → inv (exec e pool.shared).2))
    (houtside : ∀ a, action = .outside a → inv (outside pool.shared a)) :
    (step program exec outside pool action).Assured inv ok good post := by
  constructor
  · rcases step_shared_cases program exec outside pool action with
      hsame | ⟨i, op, e, -, hnext, hshared⟩ | ⟨a, ha, hshared⟩
    · rw [hsame]
      exact h.shared
    · obtain ⟨task, next, htask, -, hprog⟩ := next?_eq_some hnext
      have hsafe := h.tasks task (mem_of_getElem? htask)
      rw [hprog] at hsafe
      rw [hshared]
      exact (hexec e).2 hsafe.1
    · rw [hshared]
      exact houtside a ha
  · apply forall_tasks_step program exec outside h.tasks hspawn
    intro task e next hprog hsafe
    rw [hprog] at hsafe
    exact hsafe.2 _ (hexec e).1

theorem Assured.ended (h : pool.Assured inv ok good post) {value : α} (htask : task ∈ pool.tasks)
    (hended : task.prog = .ret value) : post task.op value := by
  have hsafe := h.tasks task htask
  rw [hended] at hsafe
  exact hsafe

end Pool

end Async
