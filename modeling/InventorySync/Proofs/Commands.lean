import Mathlib.Data.List.Basic

/-!
# Commands, one after another

Something that has a state and answers commands. What two of them have in common after every
command, they have in common after every sequence of commands; and two commands that can be
exchanged where they stand can be exchanged within a longer sequence.

## Key results

- `runAll_append`: a sequence of commands in two parts
- `getElem?_runAll`: the answer in a place
- `runAll_simulates`: what every command keeps between two states, a sequence of commands keeps
- `runAll_filter`: commands that go on as if the others were left out
- `runAll_exchange`: neighbours that can be exchanged
-/

namespace InventorySync

variable {σ τ κ α : Type}

/-- Commands are carried out one after another: the answers in their order, and the last state. -/
def runAll (step : σ → κ → α × σ) (s : σ) : List κ → List α × σ
  | [] => ([], s)
  | c :: cs =>
    let (a, s) := step s c
    let (rest, s) := runAll step s cs
    (a :: rest, s)

variable {step : σ → κ → α × σ} {s : σ}

theorem runAll_cons (c : κ) (cs : List κ) :
    runAll step s (c :: cs) =
      ((step s c).1 :: (runAll step (step s c).2 cs).1, (runAll step (step s c).2 cs).2) := rfl

theorem runAll_append (cs ds : List κ) :
    runAll step s (cs ++ ds) =
      ((runAll step s cs).1 ++ (runAll step (runAll step s cs).2 ds).1,
        (runAll step (runAll step s cs).2 ds).2) := by
  induction cs generalizing s with
  | nil => rfl
  | cons c cs ih => simp only [List.cons_append, runAll_cons, ih]

theorem runAll_concat (cs : List κ) (c : κ) :
    (runAll step s (cs ++ [c])).2 = (step (runAll step s cs).2 c).2 := by
  rw [runAll_append]
  rfl

theorem length_runAll (cs : List κ) : (runAll step s cs).1.length = cs.length := by
  induction cs generalizing s with
  | nil => rfl
  | cons c cs ih => simp [runAll_cons, ih]

/-- The answer in a place of `runAll` is that of the state to which the commands before it have led.
-/
theorem getElem?_runAll (cs : List κ) (i : Nat) :
    (runAll step s cs).1[i]? = cs[i]?.map fun c => (step (runAll step s (cs.take i)).2 c).1 := by
  induction cs generalizing s i with
  | nil => rfl
  | cons c cs ih =>
    cases i with
    | zero => rfl
    | succ i =>
      rw [runAll_cons, List.getElem?_cons_succ, List.getElem?_cons_succ, List.take_succ_cons,
        runAll_cons]
      exact ih i

/-- Two states that `R` relates answer `runAll` of the same commands alike, if `R` lets them answer
every single one alike and is kept. -/
theorem runAll_simulates {step' : τ → κ → α × τ} {R : σ → τ → Prop}
    (simulates : ∀ {s t} c, R s t → (step s c).1 = (step' t c).1 ∧ R (step s c).2 (step' t c).2)
    {s : σ} {t : τ} (h : R s t) (cs : List κ) :
    (runAll step s cs).1 = (runAll step' t cs).1 ∧
      R (runAll step s cs).2 (runAll step' t cs).2 := by
  induction cs generalizing s t with
  | nil => exact ⟨rfl, h⟩
  | cons c cs ih =>
    obtain ⟨hanswer, hnext⟩ := simulates c h
    obtain ⟨hrest, hend⟩ := ih hnext
    simp only [runAll_cons]
    exact ⟨by rw [hanswer, hrest], hend⟩

/-- What every command keeps, `runAll` keeps. -/
theorem runAll_preserves (step : σ → κ → α × σ) {P : σ → Prop} {s : σ} {cs : List κ}
    (keeps : ∀ {s} c, c ∈ cs → P s → P (step s c).2) (h : P s) : P (runAll step s cs).2 := by
  induction cs generalizing s with
  | nil => exact h
  | cons c cs ih =>
    rw [runAll_cons]
    exact ih (fun d hd => keeps d (List.mem_cons_of_mem _ hd)) (keeps c List.mem_cons_self h)

/-- Commands of one kind are answered in `runAll` as if the others were left out, when each of them
is answered alike in two states and keeps what relates the two, and the others keep it on the one
side. -/
theorem runAll_filter (step : σ → κ → α × σ) (own : κ → Bool) {R : σ → σ → Prop}
    (simulates : ∀ {s t} c, own c = true → R s t →
      (step s c).1 = (step t c).1 ∧ R (step s c).2 (step t c).2)
    (stutters : ∀ {s t} c, own c = false → R s t → R (step s c).2 t)
    {s t : σ} (h : R s t) (cs : List κ) :
    ((cs.zip (runAll step s cs).1).filter fun x => own x.1).map (·.2) =
        (runAll step t (cs.filter own)).1 ∧
      R (runAll step s cs).2 (runAll step t (cs.filter own)).2 := by
  induction cs generalizing s t with
  | nil => exact ⟨rfl, h⟩
  | cons c cs ih =>
    cases hown : own c with
    | true =>
      obtain ⟨hanswer, hnext⟩ := simulates c hown h
      obtain ⟨hrest, hend⟩ := ih hnext
      simp only [runAll_cons, List.zip_cons_cons, List.filter_cons, hown, if_true, List.map_cons]
      exact ⟨by rw [hanswer, hrest], hend⟩
    | false =>
      simp only [runAll_cons, List.zip_cons_cons, List.filter_cons, hown, Bool.false_eq_true,
        if_false]
      exact ih (stutters c hown h)

/-- Neighbours in `runAll` that can be exchanged in every state: each has the same answer, and
everything before and after them is as it was. -/
theorem runAll_exchange {c d : κ}
    (exchange : ∀ s, (step s c).1 = (step (step s d).2 c).1 ∧
      (step s d).1 = (step (step s c).2 d).1 ∧
      (step (step s c).2 d).2 = (step (step s d).2 c).2) (before after : List κ) :
    ∃ first a b last final, first.length = before.length ∧
      runAll step s (before ++ c :: d :: after) = (first ++ a :: b :: last, final) ∧
      runAll step s (before ++ d :: c :: after) = (first ++ b :: a :: last, final) := by
  let here := (runAll step s before).2
  obtain ⟨hc, hd, hstate⟩ := exchange here
  let there := (step (step here c).2 d).2
  refine ⟨(runAll step s before).1, (step here c).1, (step here d).1, (runAll step there after).1,
    (runAll step there after).2, length_runAll before, ?_, ?_⟩
  · rw [runAll_append, runAll_cons, runAll_cons, ← hd]
  · rw [runAll_append, runAll_cons, runAll_cons, ← hc, ← hstate]

end InventorySync
