import Chip8.Session
import Mathlib.Data.Fintype.Pigeonhole
import Mathlib.Logic.Function.Iterate

/-!
# Making up for ticks

The times at which the timers tick are found one from the other, by adding the
interval between them (`Session.tickTime`). Before an instruction the timers
make up for all ticks that are due, in a loop that ends with the first one that
is not. It never ends if all of them are due: since there are finitely many
doubles, times that go on for longer than there are doubles have come back to
where they were before (`exists_iterate_le`), so that they stay due for ever.

* `exists_of_catchUp_eq_some`: the loop ticks up to the first tick that is not
  due;
* `forall_of_catchUp_eq_none`: if it gives up, all ticks are due.
-/

namespace Chip8.Session

variable {now : Float} {s s' : Session}

/-- The time of the tick `n` ticks after the one at the time `first`. -/
def tickTime (first : Float) (n : Nat) : Float :=
  (· + tickInterval)^[n] first

theorem tickTime_add (first : Float) (m n : Nat) :
    tickTime (tickTime first m) n = tickTime first (n + m) :=
  (Function.iterate_add_apply _ n m first).symm

/-- The bits of a double as a number. -/
def bitsOf (x : Float) : Fin UInt64.size := x.toBits.toFin

theorem bitsOf_injective : Function.Injective bitsOf := by
  rintro ⟨⟨a, ha⟩⟩ ⟨⟨b, hb⟩⟩ h
  obtain rfl : a = b := UInt64.toFin_inj.1 h
  rfl

/-- A sequence of doubles, each found from the one before, has no value that it
    has not had among the first ones. -/
theorem exists_iterate_le (f : Float → Float) (x : Float) (n : Nat) :
    ∃ k ≤ UInt64.size, f^[n] x = f^[k] x := by
  have hcard : Fintype.card (Fin UInt64.size) < Fintype.card (Fin (UInt64.size + 1)) := by
    rw [Fintype.card_fin, Fintype.card_fin]
    exact Nat.lt_succ_self _
  obtain ⟨a, b, hne, heq⟩ := Fintype.exists_ne_map_eq_of_card_lt
    (fun k : Fin (UInt64.size + 1) => bitsOf (f^[k.val] x)) hcard
  -- The sequence repeats itself from the earlier of two equal values on.
  obtain ⟨i, j, hij, hj, hrep⟩ : ∃ i j, i < j ∧ j ≤ UInt64.size ∧ f^[i] x = f^[j] x := by
    have heq := bitsOf_injective heq
    rcases Nat.lt_or_gt_of_ne (Fin.val_ne_of_ne hne) with h | h
    · exact ⟨a, b, h, Nat.le_of_lt_succ b.isLt, heq⟩
    · exact ⟨b, a, h, Nat.le_of_lt_succ a.isLt, heq.symm⟩
  induction n using Nat.strongRecOn with
  | ind n ih =>
    by_cases hn : n ≤ UInt64.size
    · exact ⟨n, hn, rfl⟩
    · obtain ⟨k, hk, hval⟩ := ih (n - j + i) (by omega)
      refine ⟨k, hk, ?_⟩
      rw [← hval, ← Nat.sub_add_cancel (show j ≤ n by omega), Function.iterate_add_apply, ← hrep,
        ← Function.iterate_add_apply, Nat.add_sub_cancel]

/-- The loop ticks up to the first tick that is not due. -/
theorem exists_of_catchUp_eq_some {fuel : Nat} (h : catchUp now fuel s = some s') :
    ∃ n, (∀ k < n, tickTime s.nextTick k ≤ now) ∧ ¬tickTime s.nextTick n ≤ now ∧
      s' = tick^[n] s := by
  induction fuel generalizing s with
  | zero => cases h
  | succ fuel ih =>
    unfold catchUp at h
    split at h <;> rename_i hdue
    · split at h
      · cases h
      · obtain ⟨n, hall, hlast, rfl⟩ := ih h
        refine ⟨n + 1, fun k hk => ?_, hlast, rfl⟩
        cases k with
        | zero => exact hdue
        | succ k => exact hall k (Nat.lt_of_succ_lt_succ hk)
    · cases h
      exact ⟨0, fun k hk => absurd hk (Nat.not_lt_zero k), hdue, rfl⟩

/-- If the loop gives up, a tick comes back to its own time, or so many ticks
    are due as it was to make at most. -/
theorem due_of_catchUp_eq_none {fuel : Nat} (h : catchUp now fuel s = none) :
    (∀ k < fuel, tickTime s.nextTick k ≤ now) ∨ ∀ k, tickTime s.nextTick k ≤ now := by
  induction fuel generalizing s with
  | zero => exact .inl fun k hk => absurd hk (Nat.not_lt_zero k)
  | succ fuel ih =>
    unfold catchUp at h
    split at h <;> rename_i hdue
    · split at h <;> rename_i hsame
      · refine .inr fun k => ?_
        rw [tickTime, Function.iterate_fixed hsame]
        exact hdue
      · -- The first tick is due, and so are those after it.
        rcases ih h with hall | hall
        · refine .inl fun k hk => ?_
          cases k with
          | zero => exact hdue
          | succ k => exact hall k (Nat.lt_of_succ_lt_succ hk)
        · refine .inr fun k => ?_
          cases k with
          | zero => exact hdue
          | succ k => exact hall k
    · cases h

/-- If the loop gives up, all ticks are due. -/
theorem forall_of_catchUp_eq_none (h : catchUp now tickBound s = none) (n : Nat) :
    tickTime s.nextTick n ≤ now := by
  rcases due_of_catchUp_eq_none h with hall | hall
  · obtain ⟨k, hk, hval⟩ := exists_iterate_le (· + tickInterval) s.nextTick n
    rw [tickTime, hval]
    exact hall k (Nat.lt_succ_of_le hk)
  · exact hall n

end Chip8.Session
