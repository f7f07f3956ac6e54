import InventorySync.Proofs.World

/-!
# Whether cache and inventory agree

The cache is what the confirmed requests leave, the inventory what the requests that were carried
out leave. For an identifier with nothing in flight these are the same requests, but their last
ones need not be: a sweep sends without asking the gate, so its deletion and a live send of the
same identifier can be carried out in one order and be answered in the other.

## Key results

- `Ledger`, `ledger_step`: cache and inventory as histories of requests
- `Balanced`, `balanced_step`: without two requests for an identifier in flight, cache and
  inventory differ at it by the one that has been carried out and not yet answered, if by any
-/

namespace InventorySync.World

/-- The request of activity `i` has been carried out and is not yet answered. -/
def Landed (w : World) (i : Nat) (c : Call) : Prop :=
  ∃ a, w.tasks[i]? = some ⟨a, true⟩ ∧ a.request? = some c

theorem Landed.request {w : World} {i : Nat} {c : Call} (h : w.Landed i c) :
    w.request? i = some c := by
  obtain ⟨a, htask, hc⟩ := h
  exact (w.request?_eq_some_iff i c).mpr ⟨a, activity?_of_task htask, hc⟩

/-- After `turn`, a request that has `Landed` is one of another activity than `i`. -/
theorem landed_turn_iff (w : World) (i : Nat) (t : Turn Activity) (j : Nat) (c : Call) :
    (w.turn i t).Landed j c ↔ j ≠ i ∧ w.Landed j c := by
  unfold Landed
  simp only [tasks_turn]
  by_cases hij : i = j
  · simp [hij]
  · simp [hij, Ne.symm hij]

theorem landed_land_iff (w : World) {i : Nat} {a : Activity} {c : Call} (hc : a.request? = some c)
    (j : Nat) (d : Call) :
    (w.land i a c).Landed j d ↔ (j = i ∧ d = c) ∨ (j ≠ i ∧ w.Landed j d) := by
  unfold Landed
  simp only [tasks_land]
  by_cases hij : i = j
  · simp [hij, hc, eq_comm]
  · simp [hij, Ne.symm hij]

/-- No request has `Landed` for an activity that has no `request?` or whose request is still under
way. -/
theorem not_landed {w : World} {i : Nat} {a : Activity} {landed : Bool}
    (h : w.tasks[i]? = some ⟨a, landed⟩) (ha : landed = false ∨ a.request? = none) (c : Call) :
    ¬ w.Landed i c := by
  rintro ⟨b, hb, hc⟩
  obtain ⟨rfl, rfl⟩ := Task.mk.inj (Option.some.inj (hb.symm.trans h))
  rcases ha with h' | h'
  · cases h'
  · cases h'.symm.trans hc

theorem not_landed_of_free {w : World} {i : Nat} (h : w.tasks[i]? = none) (c : Call) :
    ¬ w.Landed i c := by
  rintro ⟨b, hb, -⟩
  cases h.symm.trans hb

/-- A request for this identifier has been carried out and is not yet answered. -/
def Owes (w : World) (id : String) : Prop := ∃ i c, w.Landed i c ∧ c.uid = id

theorem owes_turn_iff {w : World} {i : Nat} {id : String} (t : Turn Activity)
    (h : ∀ c, w.Landed i c → c.uid ≠ id) : (w.turn i t).Owes id ↔ w.Owes id := by
  constructor
  · rintro ⟨j, c, hj, hid⟩
    exact ⟨j, c, ((landed_turn_iff w i t j c).mp hj).2, hid⟩
  · rintro ⟨j, c, hj, hid⟩
    refine ⟨j, c, (landed_turn_iff w i t j c).mpr ⟨?_, hj⟩, hid⟩
    rintro rfl
    exact h c hj hid

theorem owes_land_iff {w : World} {i : Nat} {a : Activity} {c : Call}
    (task : w.tasks[i]? = some ⟨a, false⟩) (sent : a.request? = some c) (id : String) :
    (w.land i a c).Owes id ↔ c.uid = id ∨ w.Owes id := by
  constructor
  · rintro ⟨j, d, hj, hid⟩
    rcases (landed_land_iff w sent j d).mp hj with ⟨-, rfl⟩ | ⟨-, hj⟩
    · exact Or.inl hid
    · exact Or.inr ⟨j, d, hj, hid⟩
  · rintro (hid | ⟨j, d, hj, hid⟩)
    · exact ⟨i, c, (landed_land_iff w sent i c).mpr (Or.inl ⟨rfl, rfl⟩), hid⟩
    · refine ⟨j, d, (landed_land_iff w sent j d).mpr (Or.inr ⟨?_, hj⟩), hid⟩
      rintro rfl
      exact not_landed task (Or.inl rfl) d hj

/-- `Owes` holds of no `Quiet` identifier. -/
theorem Quiet.not_owes {w : World} {id : String} (h : w.Quiet id) : ¬ w.Owes id := by
  rintro ⟨i, c, hc, hid⟩
  exact h i c hc.request hid

/-! ## Histories -/

/-- `answer` with a reply that `isOk` gives the identifier of the request its `outcome` as `hash?`;
nothing else changes a hash. -/
theorem hash?_answer {w : World} (hw : w.Orderly) {i : Nat} {a : Activity} {c : Call} {r : Reply}
    (task : w.tasks[i]? = some ⟨a, r.isOk⟩) (sent : a.request? = some c) (id : String) :
    (w.answer i a c r).pipeline.cache.hash? id =
      if r.isOk ∧ c.uid = id then c.outcome else w.pipeline.cache.hash? id :=
  Activity.hash?_replied r sent (hw.queued (activity?_of_task task)) id

/-- The cache is what the `confirmed` requests leave, the inventory what the `effects` leave, and a
request among the `effects` is confirmed or has `Landed` and waits for its reply. -/
structure Ledger (held₀ : Holdings) (w : World) : Prop where
  cache : ∀ id, w.pipeline.cache.hash? id = held₀.left w.confirmed id
  held : ∀ id, w.held[id]? = held₀.left w.effects id
  both : ∀ id, (Holdings.lastFor w.effects id).isSome ↔
    (Holdings.lastFor w.confirmed id).isSome ∨ w.Owes id

theorem ledger_start {p : Pipeline} {held : Holdings} (h : ∀ id, p.cache.AgreesAt held id) :
    Ledger held (start p held) where
  cache id := (p.cache.agreesAt_iff held id).mp (h id)
  held id := rfl
  both id := by simp [start, Owes, Landed, Holdings.lastFor]

/-- `turn` keeps the `Ledger` if no request of `i` has `Landed` and no `hash?` changes. -/
theorem Ledger.turn {held₀ : Holdings} {w : World} (hw : Ledger held₀ w) {i : Nat}
    {t : Turn Activity} (hnone : ∀ c, ¬ w.Landed i c)
    (hcache : ∀ id, t.pipeline.cache.hash? id = w.pipeline.cache.hash? id) :
    Ledger held₀ (w.turn i t) where
  cache id := (hcache id).trans (hw.cache id)
  held id := hw.held id
  both id := (hw.both id).trans
    (or_congr_right (owes_turn_iff t fun c hc => absurd hc (hnone c)).symm)

theorem ledger_step {held₀ : Holdings} {w w' : World} {m : Move} (horder : w.Orderly)
    (hw : Ledger held₀ w) (h : Step w m w') : Ledger held₀ w' := by
  cases h with
  | event i action doc free =>
    exact hw.turn (not_landed_of_free free) (Activity.hash?_beginForward _ _ _ _)
  | flush i free => exact hw.turn (not_landed_of_free free) (Activity.hash?_beginFlush _ _)
  | sweep i owner free => exact hw.turn (not_landed_of_free free) (Activity.hash?_beginSweep _ _)
  | pass i a landed v task waits free =>
    have hnone := not_landed task (Or.inr (Activity.request?_of_gate waits))
    obtain ⟨hcache, hheld, hboth⟩ := hw.turn hnone (Activity.hash?_admitted w.pipeline a)
    exact ⟨hcache, hheld, hboth⟩
  | land i a c task sent =>
    -- The request becomes the newest of those carried out, and is owed an answer.
    refine ⟨hw.cache, fun id => ?_, fun id => ?_⟩
    · show (w.held.carryOut c)[id]? = held₀.left (c :: w.effects) id
      rw [Holdings.getElem?_carryOut, Holdings.left_cons, hw.held]
    · show (Holdings.lastFor (c :: w.effects) id).isSome ↔ _
      rw [Holdings.lastFor_cons, owes_land_iff task sent]
      by_cases hid : c.uid = id
      · simp [hid]
      · simp [hid, hw.both id, land]
  | reply i a c r task sent =>
    -- A success becomes the newest of those confirmed, and is owed nothing any more.
    refine ⟨fun id => ?_, hw.held, fun id => ?_⟩
    · rw [hash?_answer horder task sent, hw.cache]
      show _ = held₀.left (if r.isOk then c :: w.confirmed else w.confirmed) id
      by_cases hok : r.isOk = true
      · simp only [hok, if_true, true_and, Holdings.left_cons]
      · simp only [hok, Bool.false_eq_true, if_false, false_and]
    · show (Holdings.lastFor w.effects id).isSome ↔
        (Holdings.lastFor (if r.isOk then c :: w.confirmed else w.confirmed) id).isSome ∨
          (w.turn i (a.replied w.pipeline r)).Owes id
      by_cases hok : r.isOk = true
      · have hlanded : w.Landed i c := ⟨a, hok ▸ task, sent⟩
        rw [if_pos hok, Holdings.lastFor_cons, hw.both]
        by_cases hid : c.uid = id
        · simp only [hid, if_true, Option.isSome_some, true_or, iff_true]
          exact Or.inr ⟨i, c, hlanded, hid⟩
        · -- What was owed to another identifier still is.
          rw [if_neg hid, owes_turn_iff]
          intro d hd
          obtain rfl := Option.some.inj (hlanded.request.symm.trans hd.request)
          exact hid
      · have hnone := not_landed task (Or.inl (Bool.eq_false_iff.mpr hok))
        rw [if_neg hok, hw.both, owes_turn_iff _ fun d hd => absurd hd (hnone d)]

theorem ledger_run {held₀ : Holdings} {w w' : World} {moves : List Move} (horder : w.Orderly)
    (hw : Ledger held₀ w) (h : w.run? moves = some w') : Ledger held₀ w' := by
  have hboth : w'.Orderly ∧ Ledger held₀ w' :=
    run?_preserves (P := fun v => v.Orderly ∧ Ledger held₀ v) (K := fun _ => True)
      (fun _ hv hstep => ⟨orderly_step hv.1 hstep, ledger_step hv.1 hv.2 hstep⟩)
      (fun _ _ => trivial) ⟨horder, hw⟩ h
  exact hboth.2

/-- At a `Quiet` identifier, the cache `AgreesAt` it with the inventory exactly when the last of the
`effects` for it and the last `confirmed` request have the same `outcome`. -/
theorem Ledger.agreesAt_iff {held₀ : Holdings} {w : World} (hw : Ledger held₀ w) {id : String}
    (hquiet : w.Quiet id) :
    w.pipeline.cache.AgreesAt w.held id ↔
      (Holdings.lastFor w.effects id).map Call.outcome =
        (Holdings.lastFor w.confirmed id).map Call.outcome := by
  -- With nothing owed, the histories both have a request for the identifier, or neither has.
  have hboth : (Holdings.lastFor w.effects id).isSome =
      (Holdings.lastFor w.confirmed id).isSome := by
    rw [Bool.eq_iff_iff, hw.both, or_iff_left hquiet.not_owes]
  rw [ChangeCache.agreesAt_iff, hw.cache, hw.held, ← Holdings.left_eq_left_iff hboth, eq_comm]

/-! ## Without crossing requests -/

/-- The inventory is as the cache says, but for a request that has `Landed` and is not yet answered.
-/
structure Balanced (w : World) (id : String) : Prop where
  owed : ∀ {i c}, w.Landed i c → c.uid = id → w.held[id]? = c.outcome
  settled : ¬ w.Owes id → w.pipeline.cache.hash? id = w.held[id]?

theorem balanced_start {p : Pipeline} {held : Holdings} {id : String}
    (h : p.cache.AgreesAt held id) : (start p held).Balanced id where
  owed := by simp [start, Landed]
  settled _ := (p.cache.agreesAt_iff held id).mp h

theorem Balanced.turn {w : World} {id : String} (hw : w.Balanced id) {i : Nat}
    {t : Turn Activity} (hnone : ∀ c, w.Landed i c → c.uid ≠ id)
    (hcache : t.pipeline.cache.hash? id = w.pipeline.cache.hash? id) :
    (w.turn i t).Balanced id where
  owed hc hid := hw.owed ((landed_turn_iff w i t _ _).mp hc).2 hid
  settled h := hcache.trans (hw.settled fun howes => h ((owes_turn_iff t hnone).mpr howes))

theorem balanced_step {w w' : World} {m : Move} {id : String} (horder : w.Orderly)
    (halone : ¬ w.Crossing id) (hw : w.Balanced id) (h : Step w m w') : w'.Balanced id := by
  cases h with
  | event i action doc free =>
    exact hw.turn (fun c hc => absurd hc (not_landed_of_free free c))
      (Activity.hash?_beginForward _ _ _ _ _)
  | flush i free =>
    exact hw.turn (fun c hc => absurd hc (not_landed_of_free free c))
      (Activity.hash?_beginFlush _ _ _)
  | sweep i owner free =>
    exact hw.turn (fun c hc => absurd hc (not_landed_of_free free c))
      (Activity.hash?_beginSweep _ _ _)
  | pass i a landed v task waits free =>
    have hnone := not_landed task (Or.inr (Activity.request?_of_gate waits))
    obtain ⟨howed, hsettled⟩ := hw.turn (fun c hc => absurd hc (hnone c))
      (Activity.hash?_admitted w.pipeline a id)
    exact ⟨howed, hsettled⟩
  | land i a c task sent =>
    have hreq := (w.request?_eq_some_iff i c).mpr ⟨a, activity?_of_task task, sent⟩
    refine ⟨fun {j d} hd hid => ?_, fun h => ?_⟩
    · show (w.held.carryOut c)[id]? = d.outcome
      rw [Holdings.getElem?_carryOut]
      rcases (landed_land_iff w sent j d).mp hd with ⟨-, rfl⟩ | ⟨hj, hd⟩
      · rw [if_pos hid]
      · rw [if_neg]
        · exact hw.owed hd hid
        · -- Two requests for the identifier would be in flight.
          exact fun hcid => halone ⟨j, i, hj, ⟨d, hd.request, hid⟩, c, hreq, hcid⟩
    · rw [owes_land_iff task sent, not_or] at h
      show _ = (w.held.carryOut c)[id]?
      rw [Holdings.getElem?_carryOut, if_neg h.1]
      exact hw.settled h.2
  | reply i a c r task sent =>
    have hreq := (w.request?_eq_some_iff i c).mpr ⟨a, activity?_of_task task, sent⟩
    -- A success for the identifier makes up the difference; any other answer changes nothing at it.
    by_cases hc : r.isOk = true ∧ c.uid = id
    · have hlanded : w.Landed i c := ⟨a, hc.1 ▸ task, sent⟩
      refine ⟨fun {j d} hd hid => ?_, fun _ => ?_⟩
      · -- Somebody else's request for the identifier would cross this one.
        obtain ⟨hj, hd⟩ := (landed_turn_iff w i _ j d).mp hd
        exact absurd ⟨j, i, hj, ⟨d, hd.request, hid⟩, c, hreq, hc.2⟩ halone
      · rw [hash?_answer horder task sent, if_pos hc]
        exact (hw.owed hlanded hc.2).symm
    · have hcache := hash?_answer horder task sent id
      rw [if_neg hc] at hcache
      have hnone : ∀ d, w.Landed i d → d.uid ≠ id := by
        intro d hd hid
        obtain rfl := Option.some.inj (hreq.symm.trans hd.request)
        by_cases hok : r.isOk = true
        · exact hc ⟨hok, hid⟩
        · exact not_landed task (Or.inl (Bool.eq_false_iff.mpr hok)) c hd
      obtain ⟨howed, hsettled⟩ := hw.turn hnone hcache
      exact ⟨howed, hsettled⟩

/-- A run keeps `Balanced` at an identifier at which no two requests are ever `Crossing`. -/
theorem balanced_run {w w' : World} {moves : List Move} {id : String} (horder : w.Orderly)
    (hw : w.Balanced id) (h : w.run? moves = some w')
    (halone : ∀ before v, before <+: moves → w.run? before = some v → ¬ v.Crossing id) :
    w'.Balanced id := by
  induction moves generalizing w with
  | nil =>
    obtain rfl := Option.some.inj h
    exact hw
  | cons m moves ih =>
    obtain ⟨v, hv, h⟩ := run?_cons h
    have hstep := step_of_next? hv
    have hnow : ¬ w.Crossing id := halone [] w List.nil_prefix rfl
    -- What comes before a world of the rest of the run comes, with this step, before it in the run.
    refine ih (orderly_step horder hstep) (balanced_step horder hnow hw hstep) h ?_
    intro before u hbefore hu
    refine halone (m :: before) u (List.cons_prefix_cons.mpr ⟨rfl, hbefore⟩) ?_
    exact Option.bind_eq_some_iff.mpr ⟨v, hv, hu⟩

/-- At a `Quiet` identifier that is `Balanced`, the cache `AgreesAt` it with the inventory. -/
theorem Balanced.agreesAt {w : World} {id : String} (hw : w.Balanced id) (h : w.Quiet id) :
    w.pipeline.cache.AgreesAt w.held id :=
  (w.pipeline.cache.agreesAt_iff w.held id).mpr (hw.settled h.not_owes)

end InventorySync.World
