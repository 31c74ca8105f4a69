import HideServer.Async.Pool

/-!
# Programs under interference

`Under exec rely guar pre p post` is a triple for a program between whose commands the state may
change as `rely` allows. If the tasks of one kind run one at a time in a pool and everything else
keeps to `rely`, what triples say about one program holds of these tasks.
-/

namespace Async

open List

variable {S G Op A E : Type} {R : E → Type} {α β : Type}

namespace Prog

variable (exec : (e : E) → S → R e × S) (rely : S → S → Prop) (guar : S → E → Prop)

/-- The program, started in this state, keeps to `guar` and ends with `post`, whatever interferes. -/
def Secure (post : α → S → Prop) : Prog E R α → S → Prop
  | .ret value, s => ∀ s', rely s s' → post value s'
  | .await e next, s => ∀ s', rely s s' → guar s' e ∧ Secure post (next (exec e s').1) (exec e s').2

def Under (pre : S → Prop) (p : Prog E R α) (post : α → S → Prop) : Prop :=
  ∀ s, pre s → Secure exec rely guar post p s

/-- No interference breaks the assertion. -/
def Stable (P : S → Prop) : Prop := ∀ s s', rely s s' → P s → P s'

variable {exec rely guar} {pre : S → Prop} {post : α → S → Prop}

theorem Stable.and {P Q : S → Prop} (hP : Stable rely P) (hQ : Stable rely Q) : Stable rely fun s => P s ∧ Q s :=
  fun s s' hrely hs => ⟨hP s s' hrely hs.1, hQ s s' hrely hs.2⟩

theorem Secure.interfere (htrans : ∀ s s' s'', rely s s' → rely s' s'' → rely s s'')
    {p : Prog E R α} {s s' : S} (hp : Secure exec rely guar post p s) (hrely : rely s s') :
    Secure exec rely guar post p s' := by
  cases p with
  | ret | await => exact fun s'' hrely' => hp s'' (htrans s s' s'' hrely hrely')

namespace Under

theorem ret {value : α} (hstable : Stable rely (post value)) (h : ∀ s, pre s → post value s) :
    Under exec rely guar pre (.ret value) post :=
  fun s hs s' hrely => hstable s s' hrely (h s hs)

theorem perform {e : E} {post : R e → S → Prop} (hpre : Stable rely pre) (hpost : ∀ answer, Stable rely (post answer))
    (h : ∀ s, pre s → guar s e ∧ post (exec e s).1 (exec e s).2) : Under exec rely guar pre (Prog.perform e) post := by
  intro s hs s' hrely
  obtain ⟨hguar, hafter⟩ := h s' (hpre s s' hrely hs)
  exact ⟨hguar, fun s'' hrely' => hpost _ _ s'' hrely' hafter⟩

theorem bind (hrefl : ∀ s, rely s s) {mid : α → S → Prop} {final : β → S → Prop} {p : Prog E R α}
    {f : α → Prog E R β} (hp : Under exec rely guar pre p mid)
    (hf : ∀ value, Under exec rely guar (mid value) (f value) final) : Under exec rely guar pre (p >>= f) final := by
  intro s hs
  replace hp := hp s hs
  clear hs
  induction p generalizing s with
  | ret value => exact hf value s (hp s (hrefl s))
  | await e next ih =>
    intro s' hrely
    obtain ⟨hguar, hnext⟩ := hp s' hrely
    exact ⟨hguar, ih _ _ hnext⟩

theorem ite {c : Prop} [Decidable c] {p q : Prog E R α} (hp : c → Under exec rely guar pre p post)
    (hq : ¬c → Under exec rely guar pre q post) : Under exec rely guar pre (if c then p else q) post := by
  split
  · exact hp ‹_›
  · exact hq ‹_›

theorem consequence {pre' : S → Prop} {p : Prog E R α} (hp : Under exec rely guar pre p post)
    (himp : ∀ s, pre' s → pre s) : Under exec rely guar pre' p post :=
  fun s hs => hp s (himp s hs)

end Under

theorem Only.under {ok : E → Prop} {inv : S → Prop} (hstable : Stable rely inv)
    (hexec : ∀ e s, ok e → inv s → guar s e ∧ inv (exec e s).2) {p : Prog E R α} (hp : Only ok p) :
    Under exec rely guar inv p fun _ => inv := by
  induction p with
  | ret value => exact .ret hstable fun _ hs => hs
  | await e next ih =>
    intro s hs s' hrely
    obtain ⟨hguar, hafter⟩ := hexec e s' hp.1 (hstable s s' hrely hs)
    exact ⟨hguar, ih _ (hp.2 _) _ hafter⟩

end Prog

/-- What an observer notes when a command is executed for an operation, and when something happens from outside. -/
structure Observer (S G Op A E : Type) where
  command : Op → E → S → G → G
  outside : A → S → G → G

structure Watched (S G Op E : Type) (R : E → Type) (α : Type) where
  pool : Pool S Op E R α
  noted : G

namespace Watched

variable (program : Op → Prog E R α) (exec : (e : E) → S → R e × S) (outside : S → A → S)
  (observer : Observer S G Op A E)

def scene (w : Watched S G Op E R α) : S × G := (w.pool.shared, w.noted)

def execute (op : Op) (e : E) (scene : S × G) : R e × (S × G) :=
  ((exec e scene.1).1, ((exec e scene.1).2, observer.command op e scene.1 scene.2))

def step (w : Watched S G Op E R α) (action : Action Op A) : Watched S G Op E R α where
  pool := Pool.step program exec outside w.pool action
  noted :=
    match action with
    | .spawn _ => w.noted
    | .resume i => (w.pool.next? i).elim w.noted fun next => observer.command next.1 next.2 w.pool.shared w.noted
    | .outside a => observer.outside a w.pool.shared w.noted

variable {program exec outside observer}

/-- Operations of one kind, of which each is secure by itself if it is started in a state that satisfies `inv` and
that it is `ready` for, and to which everything else is interference. -/
structure Discipline (program : Op → Prog E R α) (exec : (e : E) → S → R e × S) (outside : S → A → S)
    (observer : Observer S G Op A E) where
  mine : Op → Prop
  rely : S × G → S × G → Prop
  guar : Op → S × G → E → Prop
  inv : S × G → Prop
  ready : Op → S × G → Prop
  refl : ∀ scene, rely scene scene
  trans : ∀ scene scene' scene'', rely scene scene' → rely scene' scene'' → rely scene scene''
  stable : Prog.Stable rely inv
  secure : ∀ op, mine op → Prog.Under (execute exec observer op) rely (guar op)
    (fun scene => inv scene ∧ ready op scene) (program op) fun _ => inv
  others : ∀ op, ¬mine op → (program op).Only fun e => ∀ scene, rely scene (execute exec observer op e scene).2
  around : ∀ a scene, rely scene (outside scene.1 a, observer.outside a scene.1 scene.2)

namespace Discipline

variable (d : Discipline program exec outside observer) {w : Watched S G Op E R α}

/-- No task of the kind is under way. -/
def Settled (w : Watched S G Op E R α) : Prop :=
  ∀ task ∈ w.pool.tasks, d.mine task.op → task.prog.head? = none

/-- An operation of the kind is started when it is ready and no other is under way. -/
def Admits (w : Watched S G Op E R α) : Action Op A → Prop
  | .spawn op => d.mine op → d.Settled w ∧ d.ready op w.scene
  | _ => True

/-- At most one task of the kind is under way, and it is secure. -/
inductive Orderly (w : Watched S G Op E R α) : Prop where
  | settled (hsettled : d.Settled w) (hinv : d.inv w.scene)
  | busy (i : Nat) (task : Task Op E R α) (htask : w.pool.tasks[i]? = some task) (hmine : d.mine task.op)
      (hsecure : Prog.Secure (execute exec observer task.op) d.rely (d.guar task.op) (fun _ => d.inv) task.prog w.scene)
      (hothers : ∀ j other, j ≠ i → w.pool.tasks[j]? = some other → d.mine other.op → other.prog.head? = none)

variable {d}

section

variable (h : d.Orderly w)

include h

theorem Orderly.inv_of_settled (hsettled : d.Settled w) : d.inv w.scene := by
  cases h with
  | settled _ hinv => exact hinv
  | busy i task htask hmine hsecure hothers =>
    obtain ⟨value, hvalue⟩ := Prog.eq_ret_of_head? (hsettled task (mem_of_getElem? htask) hmine)
    rw [hvalue] at hsecure
    exact hsecure w.scene (d.refl w.scene)

theorem Orderly.resumed {i : Nat} {task : Task Op E R α} {e : E}
    {next : R e → Prog E R α} (htask : w.pool.tasks[i]? = some task)
    (hprog : task.prog = .await e next) (hmine : d.mine task.op) :
    Prog.Secure (execute exec observer task.op) d.rely (d.guar task.op) (fun _ => d.inv) (.await e next) w.scene ∧
      ∀ j other, j ≠ i → w.pool.tasks[j]? = some other → d.mine other.op → other.prog.head? = none := by
  cases h with
  | settled hsettled _ =>
    have hended := hsettled task (mem_of_getElem? htask) hmine
    rw [hprog] at hended
    cases hended
  | busy j busy hbusy _ hsecure hothers =>
    by_cases hij : i = j
    · subst hij
      cases htask.symm.trans hbusy
      rw [hprog] at hsecure
      exact ⟨hsecure, hothers⟩
    · have hended := hothers i task hij htask hmine
      rw [hprog] at hended
      cases hended

theorem Orderly.guar {i : Nat} {op : Op} {e : E}
    (hnext : w.pool.next? i = some (op, e)) (hmine : d.mine op) : d.guar op w.scene e := by
  obtain ⟨task, next, htask, rfl, hprog⟩ := Pool.next?_eq_some hnext
  exact ((h.resumed htask hprog hmine).1 w.scene (d.refl w.scene)).1

theorem Orderly.spawn {op : Op} (hadmits : d.Admits w (.spawn op)) :
    d.Orderly (step program exec outside observer w (.spawn op)) := by
  have htasks (j : Nat) (other : Task Op E R α) (hother : (w.pool.tasks ++ [⟨op, [], program op⟩])[j]? = some other) :
      w.pool.tasks[j]? = some other ∨ j = w.pool.tasks.length ∧ other = ⟨op, [], program op⟩ := by
    rw [getElem?_append] at hother
    split_ifs at hother with hj
    · exact .inl hother
    · rw [getElem?_singleton] at hother
      split_ifs at hother with hzero
      exact .inr ⟨by omega, (Option.some.inj hother).symm⟩
  by_cases hmine : d.mine op
  · obtain ⟨hsettled, hready⟩ := hadmits hmine
    refine .busy w.pool.tasks.length ⟨op, [], program op⟩ (by simp [step]) hmine ?_ ?_
    · exact d.secure op hmine w.scene ⟨h.inv_of_settled hsettled, hready⟩
    · intro j other hj hother
      rcases htasks j other hother with hold | ⟨hnew, -⟩
      · exact hsettled other (mem_of_getElem? hold)
      · exact absurd hnew hj
  · cases h with
    | settled hsettled hinv =>
      refine .settled (fun task htask hmine' => ?_) hinv
      rcases mem_append.mp htask with hold | hnew
      · exact hsettled task hold hmine'
      · rw [mem_singleton] at hnew
        subst hnew
        exact absurd hmine' hmine
    | busy i task htask hmine' hsecure hothers =>
      have hi := (List.getElem?_eq_some_iff.mp htask).1
      refine .busy i task ?_ hmine' hsecure fun j other hj hother hother' => ?_
      · exact (List.getElem?_append_left hi).trans htask
      · rcases htasks j other hother with hold | ⟨-, rfl⟩
        · exact hothers j other hj hold hother'
        · exact absurd hother' hmine

theorem Orderly.interfere {w' : Watched S G Op E R α} (hrely : d.rely w.scene w'.scene)
    (hsame : ∀ (j : Nat) (task : Task Op E R α), d.mine task.op → (w'.pool.tasks[j]? = some task ↔ w.pool.tasks[j]? = some task)) :
    d.Orderly w' := by
  cases h with
  | settled hsettled hinv =>
    refine .settled (fun task htask hmine => ?_) (d.stable _ _ hrely hinv)
    obtain ⟨j, hj⟩ := mem_iff_getElem?.mp htask
    exact hsettled task (mem_of_getElem? ((hsame j task hmine).mp hj)) hmine
  | busy i task htask hmine hsecure hothers =>
    refine .busy i task ((hsame i task hmine).mpr htask) hmine (hsecure.interfere d.trans hrely) ?_
    intro j other hj hother hmine'
    exact hothers j other hj ((hsame j other hmine').mp hother) hmine'

theorem Orderly.resume (hgenuine : Pool.Genuine program w.pool) (i : Nat) :
    d.Orderly (step program exec outside observer w (.resume i)) := by
  cases hnext : w.pool.next? i with
  | none =>
    have hsame : step program exec outside observer w (.resume i) = w := by
      simp only [step, Pool.next?_eq_none hnext, hnext, Option.elim_none]
    rw [hsame]
    exact h
  | some found =>
    obtain ⟨op, e⟩ := found
    obtain ⟨task, next, htask, rfl, hprog⟩ := Pool.next?_eq_some hnext
    have hstep := Pool.step_resume_of_await program exec outside htask hprog
    have hscene : (step program exec outside observer w (.resume i)).scene =
        (execute exec observer task.op e w.scene).2 := by
      simp only [scene, step, hstep, hnext, Option.elim_some, execute]
    have hi := (List.getElem?_eq_some_iff.mp htask).1
    by_cases hmine : d.mine task.op
    · obtain ⟨hsecure, hothers⟩ := h.resumed htask hprog hmine
      have hafter := (hsecure w.scene (d.refl w.scene)).2
      rw [← hscene] at hafter
      have hset : (step program exec outside observer w (.resume i)).pool.tasks[i]? = some
          ⟨task.op, task.seen ++ [⟨e, (exec e w.pool.shared).1⟩], next (exec e w.pool.shared).1⟩ := by
        simp only [step, hstep, getElem?_set_self hi]
      refine .busy i _ hset hmine hafter ?_
      intro j other hj hother
      simp only [step, hstep, getElem?_set_ne hj.symm] at hother
      exact hothers j other hj hother
    · have honly := (hgenuine task (mem_of_getElem? htask)).only (d.others task.op hmine)
      rw [hprog] at honly
      refine h.interfere (by rw [hscene]; exact honly.1 w.scene) fun j other hother => ?_
      simp only [step, hstep, getElem?_set]
      split_ifs with hij
      · subst hij
        refine iff_of_false (fun hset => ?_) fun hold => ?_
        · cases hset
          exact hmine hother
        · cases htask.symm.trans hold
          exact hmine hother
      · rfl

theorem orderly_step (hgenuine : Pool.Genuine program w.pool)
    {action : Action Op A} (hadmits : d.Admits w action) : d.Orderly (step program exec outside observer w action) := by
  cases action with
  | spawn op => exact h.spawn hadmits
  | resume i => exact h.resume hgenuine i
  | outside a => exact h.interfere (d.around a w.scene) fun _ _ _ => Iff.rfl

end

/-- What a task of the kind does next is admitted. -/
def Guaranteed (d : Discipline program exec outside observer) (w : Watched S G Op E R α) : Action Op A → Prop
  | .resume i => ∀ op e, w.pool.next? i = some (op, e) → d.mine op → d.guar op w.scene e
  | _ => True

/-- Where operations of the kind are started one at a time, all of them keep to `guar`. -/
theorem guaranteed_of_admitted {s : S} {noted : G} (hinv : d.inv (s, noted)) {actions : List (Action Op A)}
    (hadmits : Trace.Along (step program exec outside observer) d.Admits ⟨⟨s, []⟩, noted⟩ actions) :
    Trace.Along (step program exec outside observer) d.Guaranteed ⟨⟨s, []⟩, noted⟩ actions := by
  have hstep (w : Watched S G Op E R α) (action : Action Op A) :
      d.Orderly w ∧ Pool.Genuine program w.pool → d.Admits w action →
        d.Orderly (step program exec outside observer w action) ∧
          Pool.Genuine program (step program exec outside observer w action).pool :=
    fun hw hadmits => ⟨orderly_step hw.1 hw.2 hadmits, Pool.genuine_step program exec outside hw.2 action⟩
  refine Trace.along_of_invariant hstep (fun w action hw _ => ?_) ⟨.settled nofun hinv, nofun⟩ hadmits
  cases action with
  | resume i => exact fun op e hnext hmine => hw.1.guar hnext hmine
  | spawn _ | outside _ => trivial

end Discipline

end Watched

end Async
