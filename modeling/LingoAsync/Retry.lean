import Mathlib.Data.List.Basic

/-!
# Bounded retries

A task is tried until an attempt comes out in a way not to be tried again, and at most
`N` times. Given how every attempt would come out, the number of attempts made is
`attempts`: the position of the first that settles the matter, or `N` if none does.

`attempts_succ` is the loop that does it, read off the definition. Every attempt that is
followed by another was to be tried again (`again_of_lt`).
-/

namespace LingoAsync.Retry

variable {α : Type} (again : α → Bool)

/-- How many attempts are made, of at most `N`. -/
def attempts (out : Nat → α) (N : Nat) : Nat :=
  ((List.range N).find? fun i => !again (out i)).elim N (· + 1)

/-- One attempt, and the others if it is to be tried again. -/
theorem attempts_succ (out : Nat → α) (N : Nat) :
    attempts again out (N + 1) =
      if again (out 0) then attempts again (fun i => out (i + 1)) N + 1 else 1 := by
  unfold attempts
  rw [List.range_succ_eq_map, List.find?_cons, List.find?_map]
  cases again (out 0) with
  | false => rfl
  | true =>
    show Option.elim (((List.range N).find? fun i => !again (out (i + 1))).map Nat.succ) _ _ = _
    cases (List.range N).find? fun i => !again (out (i + 1)) <;> rfl

variable {again}

theorem attempts_pos (out : Nat → α) (N : Nat) : 0 < attempts again out (N + 1) := by
  rw [attempts_succ]
  split <;> omega

theorem attempts_le (out : Nat → α) (N : Nat) : attempts again out N ≤ N := by
  induction N generalizing out with
  | zero => exact Nat.le_refl 0
  | succ N ih =>
    rw [attempts_succ]
    split
    · exact Nat.succ_le_succ (ih _)
    · exact Nat.succ_le_succ (Nat.zero_le N)

/-- Every attempt but the last was to be tried again. -/
theorem again_of_lt (out : Nat → α) {N i : Nat} (h : i + 1 < attempts again out N) :
    again (out i) = true := by
  induction N generalizing out i with
  | zero => cases h
  | succ N ih =>
    rw [attempts_succ] at h
    split at h
    · rename_i hagain
      cases i with
      | zero => exact hagain
      | succ i => exact ih (fun i => out (i + 1)) (Nat.lt_of_succ_lt_succ h)
    · omega

end LingoAsync.Retry
