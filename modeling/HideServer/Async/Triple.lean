import HideServer.Async.Prog

/-!
# Pre- and postconditions of programs that run alone

`Triple exec pre p post`: a run of `p` from a state that satisfies `pre` ends in `post`. The rules
follow the constructors of a program.
-/

namespace Async.Prog

variable {E : Type} {R : E → Type} {S α β : Type} {exec : (e : E) → S → R e × S}

variable {p : Prog E R α}

/-- Every run from `pre` ends in `post`. -/
def Triple (exec : (e : E) → S → R e × S) (pre : S → Prop) (p : Prog E R α) (post : α → S → Prop) : Prop :=
  ∀ s, pre s → post (run exec p s).1 (run exec p s).2

namespace Triple

variable {pre : S → Prop} {post : α → S → Prop}

theorem bind {mid : α → S → Prop} {final : β → S → Prop} {f : α → Prog E R β} (hp : Triple exec pre p mid)
    (hf : ∀ value, Triple exec (mid value) (f value) final) : Triple exec pre (p >>= f) final := by
  intro s hs
  rw [run_bind]
  exact hf _ _ (hp s hs)

theorem perform {e : E} {post : R e → S → Prop} (h : ∀ s, pre s → post (exec e s).1 (exec e s).2) :
    Triple exec pre (perform e) post := h

theorem ite {c : Prop} [Decidable c] {q : Prog E R α} (hp : c → Triple exec pre p post)
    (hq : ¬c → Triple exec pre q post) : Triple exec pre (if c then p else q) post := by
  split
  · exact hp ‹_›
  · exact hq ‹_›

theorem ite_of_not {c : Prop} [Decidable c] {q : Prog E R α} (hc : ∀ s, pre s → ¬c) (hq : Triple exec pre q post) :
    Triple exec pre (if c then p else q) post :=
  ite (fun hpos s hs => absurd hpos (hc s hs)) fun _ => hq

theorem strengthen {pre' : S → Prop} (hp : Triple exec pre p post) (hpre : ∀ s, pre' s → pre s) :
    Triple exec pre' p post :=
  fun s hs => hp s (hpre s hs)

theorem each {inv : S → Prop} {ι : Type} (xs : List ι) {f : ι → Prog E R Unit}
    (hf : ∀ x ∈ xs, Triple exec inv (f x) fun _ => inv) : Triple exec inv (Prog.each xs f) fun _ => inv := by
  induction xs with
  | nil => exact fun _ hs => hs
  | cons x xs ih =>
    obtain ⟨hx, hxs⟩ := List.forall_mem_cons.mp hf
    exact hx.bind fun _ => ih hxs

end Triple

variable {inv : S → Prop} {ok : E → Prop}

/-- A program keeps what its commands keep. -/
theorem Only.triple (hexec : ∀ e s, ok e → inv s → inv (exec e s).2) (hp : Only ok p) :
    Triple exec inv p fun _ => inv := by
  induction p with
  | ret value => exact fun _ hs => hs
  | await e next ih => exact fun s hs => ih _ (hp.2 _) _ (hexec e s hp.1 hs)

theorem Only.calls_inv (hexec : ∀ e s, ok e → inv s → inv (exec e s).2)
    (hp : Only ok p) {s : S} (hs : inv s) : ∀ call ∈ calls exec p s, inv call.1 := by
  induction p generalizing s with
  | ret value => simp
  | await e next ih =>
    intro call hcall
    rcases List.mem_cons.mp hcall with rfl | hcall
    · exact hs
    · exact ih _ (hp.2 _) (hexec e s hp.1 hs) call hcall

theorem Safe.keeps {good : (e : E) → R e → Prop} {post : α → Prop}
    (hexec : ∀ e s, ok e → inv s → inv (exec e s).2) (hgood : ∀ e s, inv s → good e (exec e s).1)
    (hp : Safe ok good post p) {s : S} (hs : inv s) : inv (run exec p s).2 ∧ ∀ call ∈ calls exec p s, ok call.2 := by
  induction p generalizing s with
  | ret value => exact ⟨hs, by simp⟩
  | await e next ih =>
    obtain ⟨hend, hcalls⟩ := ih _ (hp.2 _ (hgood e s hs)) (hexec e s hp.1 hs)
    exact ⟨hend, List.forall_mem_cons.mpr ⟨hp.1, hcalls⟩⟩

theorem forall_calls_bind {Q : S × E → Prop} {f : α → Prog E R β} {s : S} :
    (∀ call ∈ calls exec (p >>= f) s, Q call) ↔ (∀ call ∈ calls exec p s, Q call) ∧
        ∀ call ∈ calls exec (f (run exec p s).1) (run exec p s).2, Q call := by
  rw [calls_bind, List.forall_mem_append]

/-- From a state that satisfies `inv` the program ends in such a state, and `rel` holds of the state before, the
commands and the state after. -/
def Spans (exec : (e : E) → S → R e × S) (inv : S → Prop) (rel : S → List (S × E) → S → Prop) (p : Prog E R α) : Prop :=
  ∀ s, inv s → inv (run exec p s).2 ∧ rel s (calls exec p s) (run exec p s).2

/-- Nothing happened, and one thing after the other. -/
structure Composes (rel : S → List (S × E) → S → Prop) : Prop where
  nil : ∀ s, rel s [] s
  append : ∀ {s t u left right}, rel s left t → rel t right u → rel s (left ++ right) u

section

variable {inv : S → Prop} {rel : S → List (S × E) → S → Prop}

section

variable (hrel : Composes rel)

include hrel

theorem Spans.ret (value : α) : Spans exec inv rel (.ret value : Prog E R α) :=
  fun s hs => ⟨hs, hrel.nil s⟩

theorem Spans.perform_bind {e : E} {f : R e → Prog E R β}
    (he : ∀ s, inv s → inv (exec e s).2 ∧ rel s [(s, e)] (exec e s).2)
    (hf : ∀ s, inv s → Spans exec inv rel (f (exec e s).1)) : Spans exec inv rel (perform e >>= f) := by
  intro s hs
  obtain ⟨hmid, hfirst⟩ := he s hs
  obtain ⟨hend, hrest⟩ := hf s hs _ hmid
  exact ⟨hend, hrel.append hfirst hrest⟩

theorem Spans.bind {f : α → Prog E R β} (hp : Spans exec inv rel p)
    (hf : ∀ value, Spans exec inv rel (f value)) : Spans exec inv rel (p >>= f) := by
  intro s hs
  obtain ⟨hmid, hfirst⟩ := hp s hs
  obtain ⟨hend, hrest⟩ := hf _ _ hmid
  rw [run_bind, calls_bind]
  exact ⟨hend, hrel.append hfirst hrest⟩

theorem Only.spans {ok : E → Prop}
    (hok : ∀ e s, ok e → inv s → inv (exec e s).2 ∧ rel s [(s, e)] (exec e s).2) (hp : Only ok p) :
    Spans exec inv rel p := by
  induction p with
  | ret value => exact .ret hrel value
  | await e next ih => exact .perform_bind hrel (fun s => hok e s hp.1) fun s _ => ih _ (hp.2 _)

end

end

end Async.Prog
