import Mathlib.Data.Nat.Find
import Mathlib.Data.List.SplitBy

/-!
# The run at the end of a list

The elements at the end of a list, as many as are related each to the one before it, and the division
of a list into its maximal runs.
-/

namespace Runs

open List

variable {α : Type} (R : α → α → Prop) [DecidableRel R]

/-- The last `n` elements. -/
def recent (n : Nat) (l : List α) : List α := l.drop (l.length - n)

/-- The number of elements in the longest run that the list ends with. -/
def longest (l : List α) : Nat := Nat.findGreatest (fun n => (recent n l).IsChain R) l.length

variable {R} {l : List α} {a : α} {n : Nat}

omit [DecidableRel R] in
theorem recent_succ_concat : recent (n + 1) (l ++ [a]) = recent n l ++ [a] := by
  unfold recent
  rw [length_append, length_singleton, Nat.add_sub_add_right, drop_append_of_le_length (Nat.sub_le ..)]

theorem isChain_longest (l : List α) : (recent (longest R l) l).IsChain R := by
  by_cases hzero : longest R l = 0
  · rw [hzero, recent, Nat.sub_zero, drop_length]
    exact .nil
  · exact Nat.findGreatest_of_ne_zero rfl hzero

theorem longest_le_length (l : List α) : longest R l ≤ l.length := Nat.findGreatest_le l.length

theorem le_longest (hn : n ≤ l.length) (hchain : (recent n l).IsChain R) : n ≤ longest R l :=
  Nat.le_findGreatest hn hchain

omit [DecidableRel R] in
theorem isChain_recent_concat (hlength : n ≤ l.length) :
    (recent (n + 1) (l ++ [a])).IsChain R ↔ (recent n l).IsChain R ∧ (n = 0 ∨ ∀ last ∈ l.getLast?, R last a) := by
  have hlast : (recent n l).getLast? = if n = 0 then none else l.getLast? := by
    unfold recent
    rw [getLast?_drop]
    split_ifs with hdropped hzero hzero
    · rfl
    · have hnil : l = [] := eq_nil_of_length_eq_zero (by omega)
      rw [hnil, getLast?_nil]
    · omega
    · rfl
  rw [recent_succ_concat, isChain_append, hlast]
  by_cases hzero : n = 0
  · simp [hzero]
  · simp [hzero]

theorem longest_concat (l : List α) (a : α) :
    longest R (l ++ [a]) = if ∀ last ∈ l.getLast?, R last a then longest R l + 1 else 1 := by
  have hlength : (l ++ [a]).length = l.length + 1 := length_append
  have hnew : 1 ≤ longest R (l ++ [a]) := by
    refine le_longest (by omega) ((isChain_recent_concat (Nat.zero_le _)).mpr ⟨?_, .inl rfl⟩)
    rw [recent, Nat.sub_zero, drop_length]
    exact .nil
  -- the run ends with the new element, so it is one longer than a run of the list
  obtain ⟨n, hn⟩ : ∃ n, longest R (l ++ [a]) = n + 1 := ⟨longest R (l ++ [a]) - 1, by omega⟩
  have hle : n ≤ l.length := by
    have hbound := longest_le_length (R := R) (l ++ [a])
    omega
  have hchain := isChain_longest (R := R) (l ++ [a])
  rw [hn, isChain_recent_concat hle] at hchain
  split_ifs with hnext
  · have hfits : longest R l + 1 ≤ longest R (l ++ [a]) := by
      have hbound := longest_le_length (R := R) l
      exact le_longest (by omega) ((isChain_recent_concat hbound).mpr ⟨isChain_longest l, .inr hnext⟩)
    have hcontinued := le_longest hle hchain.1
    omega
  · have hzero := hchain.2.resolve_right hnext
    omega

section

variable {r : α → α → Bool} {b : α}

theorem splitBy_cons_of_rel (h : r a b = true) (l : List α) :
    ∃ run rest, (b :: l).splitBy r = (b :: run) :: rest ∧ (a :: b :: l).splitBy r = (a :: b :: run) :: rest := by
  cases hsplit : (b :: l).splitBy r with
  | nil => simp at hsplit
  | cons first rest =>
    obtain ⟨hflatten, hnil, hchain, hapart⟩ := splitBy_eq_iff.mp hsplit
    cases first with
    | nil => simp at hnil
    | cons head run =>
      obtain rfl : b = head := by simpa using congrArg head? hflatten
      refine ⟨run, rest, rfl, splitBy_eq_iff.mpr ⟨by rw [hflatten]; rfl, by simpa using hnil, ?_, ?_⟩⟩
      · rw [forall_mem_cons] at hchain ⊢
        exact ⟨hchain.1.cons_cons h, hchain.2⟩
      · rw [isChain_cons] at hapart ⊢
        refine ⟨fun next hnext => ?_, hapart.2⟩
        obtain ⟨_, hne, hbreak⟩ := hapart.1 next hnext
        exact ⟨cons_ne_nil _ _, hne, by simpa using hbreak⟩

theorem splitBy_cons_of_not_rel (h : r a b = false) (l : List α) :
    (a :: b :: l).splitBy r = [a] :: (b :: l).splitBy r := by
  have happart : ∀ x ∈ [a].getLast?, r x b = false := by simpa using h
  exact splitBy_append_cons l happart

end

end Runs
