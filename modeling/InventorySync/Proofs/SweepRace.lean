import InventorySync.Proofs.Agreement

/-!
# Sweeps beside live sends

A sweep deletes what it found unseen when it began, and does not ask the gate. An object that
comes back in the meantime is created and deleted at once: if the creation is carried out first
and answered last, the inventory lacks the object while the cache claims it, and every later event
with the same content is taken for unchanged.

## Key results

- `agreesAt_iff_last_requests`: where nothing is in flight, cache and inventory agree exactly when
  the last request carried out and the last one confirmed ask for the same, which is so as long
  as no sweep's deletion crosses another request for the identifier
- `sweep_race`: a run in which they cross and the cache is left with an object that is gone
-/

namespace InventorySync.World

/-- Two objects that were not seen in the open window. -/
def raceStart : World :=
  fresh ⟨.cluster "c", .passthrough⟩ ChangeCache.empty.openWindow 0
    (.ofList [("a", "h"), ("b", "old")] compare)

/-- Events, flushes and sweeps in any interleaving, from a start in which the cache `AgreesAt` every
identifier. When an identifier is `Quiet`, they agree at it exactly if the last of the `effects` for
it and the last `confirmed` request have the same `outcome`. They do if no two requests for it were
ever `Crossing`, and wherever two are, one is a sweep's deletion. -/
theorem agreesAt_iff_last_requests {p : Pipeline} {held : Holdings} (gate : p.gate = .empty)
    (agree : ∀ id, p.cache.AgreesAt held id) {moves : List Move} {w : World}
    (run : (start p held).run? moves = some w) {id : String} (quiet : w.Quiet id) :
    (w.pipeline.cache.AgreesAt w.held id ↔
      (Holdings.lastFor w.effects id).map Call.outcome =
        (Holdings.lastFor w.confirmed id).map Call.outcome) ∧
    ((∀ before v, before <+: moves → (start p held).run? before = some v → ¬ v.Crossing id) →
      w.pipeline.cache.AgreesAt w.held id) ∧
    ∀ before v, before <+: moves → (start p held).run? before = some v → v.Crossing id →
      ∃ i owner rest report, v.activity? i = some (.sweep (.sending owner id rest report)) := by
  have hstart : (start p held).Orderly := orderly_start held gate
  refine ⟨?_, ?_, ?_⟩
  · exact (ledger_run hstart (ledger_start agree) run).agreesAt_iff quiet
  · intro halone
    exact (balanced_run hstart (balanced_start (agree id)) run halone).agreesAt quiet
  · intro before v hbefore hv hcross
    -- The gate keeps all but sweeps apart.
    obtain ⟨i, a, c, ha, hs, hc, hid⟩ := sweep_of_crossing (orderly_run hstart hv) hcross
    match a with
    | .sweep (.sending owner id' rest report) =>
      obtain rfl := Option.some.inj hc
      exact ⟨i, owner, rest, report, hid ▸ ha⟩
    | .sweep (.done _) | .forward _ | .flush _ => cases hs

/-- One after the other, the sweep deletes both objects and an event creates one again. -/
def orderlyMoves : List Move :=
  [.sweep 0 (.cluster "c"), .land 0, .reply 0 (.status 200), .land 0, .reply 0 (.status 200),
    .event 1 .create (sampleDoc "b" "new"), .pass 1, .land 1, .reply 1 (.status 200)]

theorem agreesAt_after_orderlyMoves : raceStart.pipeline.gate = .empty ∧
    (∀ id, raceStart.pipeline.cache.AgreesAt raceStart.held id) ∧
    ∃ w, raceStart.run? orderlyMoves = some w ∧ w.Quiet "b" ∧
      w.pipeline.cache.AgreesAt w.held "b" := by
  have hrun : ((raceStart.run? orderlyMoves).map fun w =>
      (w.tasks.toList.all fun t => t.2.activity.request? == none,
        decide ((Holdings.lastFor w.effects "b").map Call.outcome =
          (Holdings.lastFor w.confirmed "b").map Call.outcome))) =
      some (true, true) := by decide +kernel
  obtain ⟨w, hw, hend⟩ := Option.map_eq_some_iff.mp hrun
  simp only [Prod.mk.injEq, List.all_eq_true, beq_iff_eq, decide_eq_true_iff] at hend
  have hquiet := quiet_of_forall_tasks hend.1 "b"
  exact ⟨rfl, ChangeCache.agreesAt_init _ _, w, hw, hquiet,
    (agreesAt_iff_last_requests rfl (ChangeCache.agreesAt_init _ _) hw hquiet).1.mpr hend.2⟩

/-! ## When they do not -/

/-- While the sweep waits for its first answer, the second object comes back and is created. The
creation is carried out before the sweep's deletion and answered after it; then the object is seen
once more. -/
def raceMoves : List Move :=
  [.sweep 0 (.cluster "c"), .event 1 .create (sampleDoc "b" "new"), .pass 1, .land 1, .land 0,
    .reply 0 (.status 200), .land 0, .reply 0 (.status 200), .reply 1 (.status 200),
    .event 2 .create (sampleDoc "b" "new"), .pass 2]

/-- One sweep beside one live creation: after `raceMoves` the cache claims an object that the
inventory has deleted, and the next event with its content is `.unchanged`. -/
theorem sweep_race : (∀ id, raceStart.pipeline.cache.AgreesAt raceStart.held id) ∧
    ∃ w, raceStart.run? raceMoves = some w ∧ (∀ id, w.Quiet id) ∧
      (∃ hash, w.pipeline.cache.hash? "b" = some hash) ∧ w.held["b"]? = none ∧
      w.activity? 2 = some (.forward (.done .unchanged)) := by
  have hrun : ((raceStart.run? raceMoves).map fun w =>
      (w.tasks.toList.all fun t => t.2.activity.request? == none,
        (w.pipeline.cache.hash? "b").isSome, w.held["b"]?, w.activity? 2)) =
      some (true, true, none, some (.forward (.done .unchanged))) := by decide +kernel
  obtain ⟨w, hw, hend⟩ := Option.map_eq_some_iff.mp hrun
  simp only [Prod.mk.injEq, List.all_eq_true, beq_iff_eq] at hend
  obtain ⟨hquiet, hhash, hheld, htask⟩ := hend
  exact ⟨ChangeCache.agreesAt_init _ _, w, hw, quiet_of_forall_tasks hquiet,
    Option.isSome_iff_exists.mp hhash, hheld, htask⟩

end InventorySync.World
