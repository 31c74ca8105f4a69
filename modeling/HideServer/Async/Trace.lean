import Mathlib.Data.List.Basic

/-!
# Runs of a step function

A system is a function `step : S → A → S` whose labels carry every choice of the environment, so a
run is a list of labels. `Along P` says that `P` holds at every step of a run, of the state before it
and its label.
-/

namespace Trace

variable {S A : Type} (step : S → A → S)

variable {s : S} {labels : List A} {inv : S → Prop}

/-- The state after a list of labels. -/
def run (s : S) (labels : List A) : S := labels.foldl step s

@[simp] theorem run_nil (s : S) : run step s [] = s := rfl

@[simp] theorem run_cons (s : S) (label : A) (labels : List A) :
    run step s (label :: labels) = run step (step s label) labels := rfl

theorem run_append (s : S) (left right : List A) : run step s (left ++ right) = run step (run step s left) right :=
  List.foldl_append

/-- `P` holds of the state before each step of a run and the label of that step. -/
def Along (P : S → A → Prop) : S → List A → Prop
  | _, [] => True
  | s, label :: labels => P s label ∧ Along P (step s label) labels

instance decidableAlong (P : S → A → Prop) [∀ s label, Decidable (P s label)] :
    ∀ (s : S) (labels : List A), Decidable (Along step P s labels)
  | _, [] => .isTrue trivial
  | s, label :: labels =>
    haveI := decidableAlong P (step s label) labels
    inferInstanceAs (Decidable (P s label ∧ Along step P (step s label) labels))

@[simp] theorem along_nil (P : S → A → Prop) (s : S) : Along step P s [] := trivial

@[simp] theorem along_cons (P : S → A → Prop) (s : S) (label : A) (labels : List A) :
    Along step P s (label :: labels) ↔ P s label ∧ Along step P (step s label) labels := Iff.rfl

theorem along_append (P : S → A → Prop) (s : S) (left right : List A) :
    Along step P s (left ++ right) ↔ Along step P s left ∧ Along step P (run step s left) right := by
  induction left generalizing s with
  | nil => simp
  | cons label left ih => simp [ih, and_assoc]

variable {step}

theorem Along.mono {P Q : S → A → Prop} (himp : ∀ s label, P s label → Q s label) (h : Along step P s labels) :
    Along step Q s labels := by
  induction labels generalizing s with
  | nil => trivial
  | cons label labels ih => exact ⟨himp s label h.1, ih h.2⟩

theorem along_of_forall {P : S → A → Prop} (h : ∀ s label, P s label) : Along step P s labels := by
  induction labels generalizing s with
  | nil => trivial
  | cons label labels ih => exact ⟨h s label, ih⟩

theorem Along.and {P Q : S → A → Prop} (hP : Along step P s labels) (hQ : Along step Q s labels) :
    Along step (fun s label => P s label ∧ Q s label) s labels := by
  induction labels generalizing s with
  | nil => trivial
  | cons label labels ih => exact ⟨⟨hP.1, hQ.1⟩, ih hP.2 hQ.2⟩

theorem along_forall {ι : Type} {P : ι → S → A → Prop} (h : ∀ i, Along step (P i) s labels) :
    Along step (fun s label => ∀ i, P i s label) s labels := by
  induction labels generalizing s with
  | nil => trivial
  | cons label labels ih => exact ⟨fun i => (h i).1, ih fun i => (h i).2⟩

theorem run_preserves (hstep : ∀ s label, inv s → inv (step s label)) (hinv : inv s) (labels : List A) :
    inv (run step s labels) := by
  induction labels generalizing s with
  | nil => exact hinv
  | cons label labels ih => exact ih (hstep s label hinv)

theorem run_invariant {C : S → A → Prop} (hstep : ∀ s label, inv s → C s label → inv (step s label)) (hinv : inv s)
    (hC : Along step C s labels) : inv (run step s labels) := by
  induction labels generalizing s with
  | nil => exact hinv
  | cons label labels ih => exact ih (hstep s label hinv hC.1) hC.2

/-- From a step lemma: what the invariant gives at each step holds along the run. -/
theorem along_of_invariant {C Q : S → A → Prop} (hstep : ∀ s label, inv s → C s label → inv (step s label))
    (hQ : ∀ s label, inv s → C s label → Q s label) (hinv : inv s) (hC : Along step C s labels) :
    Along step Q s labels := by
  induction labels generalizing s with
  | nil => trivial
  | cons label labels ih => exact ⟨hQ s label hinv hC.1, ih (hstep s label hinv hC.1) hC.2⟩

/-- Two conditions that agree under the invariant agree along the run. -/
theorem along_iff_of_invariant {C Q : S → A → Prop} (hstep : ∀ s label, inv s → C s label → inv (step s label))
    (hiff : ∀ s label, inv s → (Q s label ↔ C s label)) (hinv : inv s) :
    Along step Q s labels ↔ Along step C s labels := by
  refine ⟨fun hQ => ?_, along_of_invariant hstep (fun s label hs hC => (hiff s label hs).mpr hC) hinv⟩
  induction labels generalizing s with
  | nil => trivial
  | cons label labels ih =>
    have hC := (hiff s label hinv).mp hQ.1
    exact ⟨hC, ih (hstep s label hinv hC) hQ.2⟩

/-- `P` holds of every state the run goes through, the first and the last included. -/
def Always (step : S → A → S) (P : S → Prop) (s : S) (labels : List A) : Prop :=
  ∀ done, done <+: labels → P (run step s done)

variable {P : S → Prop}

theorem Always.final (h : Always step P s labels) : P (run step s labels) :=
  h labels (List.prefix_refl labels)

theorem Always.along (h : Always step P s labels) : Along step (fun s _ => P s) s labels := by
  induction labels generalizing s with
  | nil => trivial
  | cons label labels ih =>
    refine ⟨h [] List.nil_prefix, ih fun done hdone => ?_⟩
    exact h (label :: done) ((List.prefix_cons_inj label).mpr hdone)

theorem always_iff : Always step P s labels ↔ P s ∧ Along step (fun s label => P (step s label)) s labels := by
  induction labels generalizing s with
  | nil => simp [Always]
  | cons label labels ih =>
    rw [along_cons, ← ih]
    constructor
    · intro h
      refine ⟨h [] List.nil_prefix, fun done hdone => ?_⟩
      exact h (label :: done) ((List.prefix_cons_inj label).mpr hdone)
    · rintro ⟨hs, h⟩ done hdone
      cases done with
      | nil => exact hs
      | cons first done =>
        obtain ⟨rfl, hrest⟩ := List.cons_prefix_cons.mp hdone
        exact h done hrest

/-- From a step lemma: what the invariant implies holds throughout. -/
theorem always_of_invariant {C : S → A → Prop}
    (hstep : ∀ s label, inv s → C s label → inv (step s label)) (hP : ∀ s, inv s → P s) (hinv : inv s)
    (hC : Along step C s labels) : Always step P s labels := by
  rintro done ⟨rest, rfl⟩
  exact hP _ (run_invariant hstep hinv ((along_append step C s done rest).mp hC).1)

end Trace
