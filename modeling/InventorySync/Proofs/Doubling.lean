import InventorySync.Backoff
import InventorySync.Proofs.Commands
import Mathlib.Algebra.Order.Ring.Nat
import Mathlib.Data.List.DropRight

/-!
# Delays that double

A backoff doubles its delay with every one that is taken, and keeps it below a limit all the way;
the doubling itself stops at the largest duration. In nanoseconds the delay is the initial one
times a power of two, up to the limit.

## Key results

- `Backoff.Grown.next`, `Backoff.Grown.reset`: the delay after so many were taken
- `Backoff.grown_run`: any calls, from a new backoff
- `Backoff.delays_of_calls`: what all the calls return
-/

namespace InventorySync

/-! ## The delay -/

/-- A backoff from which `n` delays were taken since it began or started again. -/
structure Backoff.Grown (initial limit : Duration) (n : Nat) (b : Backoff) : Prop where
  initial_eq : b.initial = initial
  limit_eq : b.limit = limit
  toNanos_current : b.current.toNanos = min (initial.toNanos * 2 ^ n) limit.toNanos

namespace Backoff

variable {initial limit : Duration} {n : Nat} {b : Backoff}

theorem grown_new (initial limit : Duration) : Grown initial limit 0 (.new initial limit) where
  initial_eq := rfl
  limit_eq := rfl
  toNanos_current := by rw [new, Duration.toNanos_min, Nat.pow_zero, Nat.mul_one]

theorem Grown.reset (h : Grown initial limit n b) : Grown initial limit 0 b.reset := by
  rw [Backoff.reset]
  refine ⟨h.initial_eq, h.limit_eq, ?_⟩
  rw [Duration.toNanos_min, h.initial_eq, h.limit_eq, Nat.pow_zero, Nat.mul_one]

theorem next_eq (b : Backoff) :
    b.next = (b.current, { b with current := min b.current.double b.limit }) := rfl

/-- `next` takes one more delay. The largest duration is no limit to the doubling, because `limit`
is a duration itself. -/
theorem Grown.next (h : Grown initial limit n b) : Grown initial limit (n + 1) b.next.2 := by
  have hlimit := limit.toNanos_lt
  rw [next_eq]
  dsimp only
  refine ⟨h.initial_eq, h.limit_eq, ?_⟩
  rw [Duration.toNanos_min, Duration.toNanos_double, h.toNanos_current, h.limit_eq, Nat.pow_succ,
    ← Nat.mul_assoc]
  generalize UInt64.size * 1000000000 = top at hlimit ⊢
  generalize initial.toNanos * 2 ^ n = delay
  omega

end Backoff

/-! ## Calls -/

/-- What a backoff is asked for, as `Backoff.answer` gives it. -/
inductive BackoffCall where
  | next
  | reset
deriving DecidableEq, Repr

namespace Backoff

variable {initial limit : Duration}

/-- The backoff answers a call: with the delay to wait, or with nothing to a reset. -/
def answer (b : Backoff) : BackoffCall → Option Duration × Backoff
  | .next => b.next.map some fun b => b
  | .reset => (none, b.reset)

/-- How many delays were taken since the last reset, or since the beginning. -/
def taken (calls : List BackoffCall) : Nat := (calls.rtakeWhile (· = .next)).length

theorem taken_next (calls : List BackoffCall) : taken (calls ++ [.next]) = taken calls + 1 := by
  simp [taken, List.rtakeWhile_concat_pos]

theorem taken_reset (calls : List BackoffCall) : taken (calls ++ [.reset]) = 0 := by
  simp [taken, List.rtakeWhile_concat_neg]

/-- `taken` counts every later call that is no `.reset`. -/
theorem taken_append {later : List BackoffCall} (h : .reset ∉ later) (calls : List BackoffCall) :
    taken (calls ++ later) = taken calls + later.length := by
  induction later using List.reverseRecOn with
  | nil => rw [List.append_nil, List.length_nil, Nat.add_zero]
  | append_singleton later c ih =>
    rw [List.mem_append, List.mem_singleton, not_or] at h
    cases c with
    | next =>
      rw [← List.append_assoc, taken_next, ih h.1, List.length_append, List.length_singleton,
        Nat.add_assoc]
    | reset => exact absurd rfl h.2

/-- After `runAll` of any calls on a new backoff it is `Grown` by the delays that were `taken`. -/
theorem grown_run (initial limit : Duration) (calls : List BackoffCall) :
    Grown initial limit (taken calls) (runAll answer (.new initial limit) calls).2 := by
  induction calls using List.reverseRecOn with
  | nil => exact grown_new initial limit
  | append_singleton calls c ih =>
    rw [runAll_concat]
    cases c with
    | next =>
      rw [taken_next]
      exact ih.next
    | reset =>
      rw [taken_reset]
      exact ih.reset

/-- What `runAll` returns in a place is a delay exactly if the call was `.next`, and then the one
for the delays that were `taken` before. -/
theorem returned_iff (initial limit : Duration) (calls : List BackoffCall) (i : Nat)
    (d : Duration) :
    (runAll answer (.new initial limit) calls).1[i]? = some (some d) ↔
      calls[i]? = some .next ∧
        d.toNanos = min (initial.toNanos * 2 ^ taken (calls.take i)) limit.toNanos := by
  -- The answer to the call is that of the backoff to which the calls before it have led.
  have hgrown := (grown_run initial limit (calls.take i)).toNanos_current
  rw [getElem?_runAll, ← hgrown]
  cases calls[i]? with
  | none => simp
  | some c =>
    cases c with
    | next =>
      have hcurrent : ∀ b : Backoff, (b.answer .next).1 = some b.current := fun _ => rfl
      simp only [Option.map_some, hcurrent, Option.some.injEq, true_and]
      exact ⟨fun h => congrArg _ h.symm, fun h => Duration.toNanos_inj h.symm⟩
    | reset => simp [answer]

section Returned

variable {calls : List BackoffCall} {i k : Nat} {d e : Duration}

theorem le_limit_of_returned
    (h : (runAll answer (.new initial limit) calls).1[i]? = some (some d)) :
    d.toNanos ≤ limit.toNanos := by
  rw [((returned_iff initial limit calls i d).mp h).2]
  exact Nat.min_le_right _ _

/-- To double a delay that is at the `limit` already changes nothing. -/
theorem min_pow_add (x limit n k : Nat) :
    min (x * 2 ^ (n + k)) limit = min (min (x * 2 ^ n) limit * 2 ^ k) limit := by
  have hlimit : limit ≤ limit * 2 ^ k := Nat.le_mul_of_pos_right limit (Nat.two_pow_pos k)
  rw [← Nat.mul_min_mul_right, Nat.min_assoc, Nat.min_eq_right hlimit, Nat.pow_add, Nat.mul_assoc]

/-- From one delay that `runAll` returns to another with no `.reset` in between, the doubling goes
on. -/
theorem doubled_of_returned
    (hd : (runAll answer (.new initial limit) calls).1[i]? = some (some d))
    (he : (runAll answer (.new initial limit) calls).1[i + k]? = some (some e))
    (hkept : .reset ∉ (calls.drop i).take k) :
    e.toNanos = min (d.toNanos * 2 ^ k) limit.toNanos := by
  obtain ⟨-, hdelay⟩ := (returned_iff initial limit calls i d).mp hd
  obtain ⟨hnext, hlater⟩ := (returned_iff initial limit calls (i + k) e).mp he
  -- The later call is there, so there are `k` calls from the one to the other.
  have hlength : ((calls.drop i).take k).length = k := by
    obtain ⟨hlt, -⟩ := List.getElem?_eq_some_iff.mp hnext
    rw [List.length_take, List.length_drop]
    omega
  rw [hlater, List.take_add, taken_append hkept, hlength, min_pow_add, ← hdelay]

end Returned

/-- Whatever a new backoff is asked for, it returns a delay exactly to every `next`: in nanoseconds,
the initial delay doubled once for each delay taken since the last reset, up to the limit, as if the
doubling had no end. So no delay is above the limit, and from one delay to another with no reset in
between it never decreases, but doubles each time up to the limit. -/
theorem delays_of_calls (initial limit : Duration) (calls : List BackoffCall) :
    let returned := (runAll Backoff.answer (.new initial limit) calls).1
    returned.length = calls.length ∧
    (∀ i : Nat, calls[i]? = some .next → ∃ d, returned[i]? = some (some d) ∧
      d.toNanos = min (initial.toNanos * 2 ^ taken (calls.take i)) limit.toNanos) ∧
    (∀ i : Nat, calls[i]? = some .reset → returned[i]? = some none) ∧
    (∀ d, some d ∈ returned → d.toNanos ≤ limit.toNanos) ∧
    (∀ i k d e, returned[i]? = some (some d) → returned[i + k]? = some (some e) →
      BackoffCall.reset ∉ (calls.drop i).take k →
      d.toNanos ≤ e.toNanos ∧ e.toNanos = min (d.toNanos * 2 ^ k) limit.toNanos) := by
  intro returned
  refine ⟨length_runAll calls, fun i hnext => ?_, fun i hreset => ?_, fun d hd => ?_,
    fun i k d e hd he hkept => ?_⟩
  · refine ⟨(runAll answer (.new initial limit) (calls.take i)).2.current, ?_, ?_⟩
    · exact (getElem?_runAll calls i).trans (by rw [hnext]; rfl)
    · exact (grown_run initial limit (calls.take i)).toNanos_current
  · exact (getElem?_runAll calls i).trans (by rw [hreset]; rfl)
  · obtain ⟨i, hi⟩ := List.getElem?_of_mem hd
    exact le_limit_of_returned hi
  · have hdoubled := doubled_of_returned hd he hkept
    have hgrows : d.toNanos ≤ d.toNanos * 2 ^ k :=
      Nat.le_mul_of_pos_right _ (Nat.two_pow_pos k)
    refine ⟨?_, hdoubled⟩
    rw [hdoubled]
    exact Nat.le_min.mpr ⟨hgrows, le_limit_of_returned hd⟩

/-- The doubling stops at the largest duration, where the limit is at the latest. -/
example :
    (runAll answer (.new (.ofSeconds (2 ^ 63)) .largest) [.next, .next, .next, .reset, .next]).1 =
      [some (.ofSeconds (2 ^ 63)), some .largest, some .largest, none,
        some (.ofSeconds (2 ^ 63))] := by
  decide

end Backoff
end InventorySync
