import PeekLock.Demo.Wait

/-! # Work up to a stop

`Works` says that one gets from one state to another by a number of steps, and that none of the
states in between is a place to stop at.  Whoever goes on until there is a place to stop gets there,
and needs so many steps more: a broker that settles (`Works.settle`), and a wait that runs
(`Works.run`).
-/

namespace PeekLock

/-- By so many steps one gets somewhere, and does not stop before. -/
inductive Works {σ : Type} (stops : σ → Bool) (step : σ → σ) : Nat → σ → σ → Prop where
  | refl (s : σ) : Works stops step 0 s s
  | step {n : Nat} {s s' : σ} :
      stops s = false → Works stops step n (step s) s' → Works stops step (n + 1) s s'

namespace Works

section

variable {σ : Type} {stops : σ → Bool} {step : σ → σ} {n m : Nat} {s s' s'' : σ}

theorem trans (first : Works stops step n s s') (second : Works stops step m s' s'') :
    Works stops step (n + m) s s'' := by
  induction first with
  | refl s => rwa [Nat.zero_add]
  | step on _ ih =>
    rw [Nat.add_right_comm]
    exact .step on (ih second)

theorem next (on : stops s = false) (leads : step s = s') (works : Works stops step n s' s'') :
    Works stops step (n + 1) s s'' :=
  .step on (leads ▸ works)

end

theorem settle {n : Nat} {b b' : Broker} (works : Works Broker.isBlocked Broker.tick n b b')
    (fuel : Nat) : Broker.settle (fuel + n) b = Broker.settle fuel b' := by
  induction works with
  | refl b => rfl
  | step busy _ ih =>
    rw [← ih, ← Nat.add_assoc, Broker.settle, busy]
    rfl

theorem run {n : Nat} {w w' : Demo.Wait} (works : Works Demo.Wait.isOver Demo.Wait.next n w w')
    (fuel : Nat) : Demo.Wait.run (fuel + n) w = Demo.Wait.run fuel w' := by
  induction works with
  | refl w => rfl
  | step on _ ih =>
    rw [← ih, ← Nat.add_assoc, Demo.Wait.run, on]
    rfl

end Works

/-! ## Where nothing goes on -/

theorem Broker.settle_of_isBlocked {b : Broker} (blocked : b.isBlocked) (fuel : Nat) :
    settle fuel b = b := by
  cases fuel with
  | zero => rfl
  | succ fuel => rw [settle, if_pos blocked]

theorem Demo.Wait.run_of_isOver {w : Demo.Wait} (ended : w.isOver) (fuel : Nat) :
    run fuel w = w := by
  cases fuel with
  | zero => rfl
  | succ fuel => rw [run, if_pos ended]

end PeekLock
