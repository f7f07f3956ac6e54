import InventorySync.Proofs.Lists
import InventorySync.Watch.Supervisor

/-!
# What a supervisor watches

A start checks every schema and asks the cluster before the first watcher is spawned, so a start
that fails spawns none. One that succeeds spawns a watcher for each entry of the configuration that
the cluster serves. Entries are not compared with each other: a schema that stands in the
configuration twice is watched twice.

## Key results

- `run_startInPlace`: the start, step by step on the supervisor's state
- `servedBy?_isSome_iff`: what it means that the cluster serves a schema
- `watched_as_configured`: who is watched after a start, and how often
- `two_watchers_for_one_schema`: two spellings of one schema
-/

namespace InventorySync

/-! ## What the cluster serves -/

/-- The groups of a cluster that names each `ServedGroup`, and each version of a group, once. -/
structure WellListed (groups : List ServedGroup) : Prop where
  names : (groups.map ServedGroup.name).Nodup
  versions : ∀ g ∈ groups, (g.versions.map ServedVersion.version).Nodup

/-- The cluster lists a resource of the schema's name in the schema's version of its group. -/
def Schema.ServedIn (s : Schema) (groups : List ServedGroup) : Prop :=
  ∃ g ∈ groups, g.name = s.group ∧ ∃ v ∈ g.versions, v.version = s.version ∧
    ∃ r ∈ v.resources, r.plural = s.resource

theorem Schema.servedBy?_isSome_iff {groups : List ServedGroup} (hlisted : WellListed groups)
    (s : Schema) : (s.servedBy? groups).isSome = true ↔ s.ServedIn groups := by
  unfold servedBy?
  -- As the names are distinct, each search finds the entry that has the name.
  rw [find?_key_reverse hlisted.names]
  constructor
  · intro h
    obtain ⟨r, hr⟩ := Option.isSome_iff_exists.mp h
    obtain ⟨g, hg, hr⟩ := Option.bind_eq_some_iff.mp hr
    obtain ⟨v, hv, hr⟩ := Option.bind_eq_some_iff.mp hr
    obtain ⟨hgmem, hgname⟩ := (find?_key_eq_some_iff hlisted.names _ _).mp hg
    obtain ⟨hvmem, hvname⟩ := (find?_key_eq_some_iff (hlisted.versions g hgmem) _ _).mp hv
    exact ⟨g, hgmem, hgname, v, hvmem, hvname, r, List.mem_of_find?_eq_some hr,
      by simpa using List.find?_some hr⟩
  · intro ⟨g, hgmem, hgname, v, hvmem, hvname, r, hrmem, hrname⟩
    have hg := (find?_key_eq_some_iff hlisted.names _ _).mpr ⟨hgmem, hgname⟩
    have hv := (find?_key_eq_some_iff (hlisted.versions g hgmem) _ _).mpr ⟨hvmem, hvname⟩
    simp only [hg, hv, Option.bind_eq_bind, Option.bind_some]
    rw [List.find?_isSome]
    exact ⟨r, hrmem, by simpa using hrname⟩

/-! ## A start on the supervisor's state -/

namespace Supervisor

/-- What a start does to the supervisor, in its order: the schemas are checked, what the cluster was
found to serve is looked at, and watchers are spawned one at a time. Gives their number. -/
def startInPlace (schemas : List Schema) (found : Except BootstrapError (List ServedGroup)) :
    ExceptT BootstrapError (StateM Supervisor) Nat := do
  liftExcept (check schemas)
  let groups ← liftExcept found
  (servedSchemas schemas groups).forM fun e => modify (·.spawn e.1)
  return (← get).size

/-- `run` of a bind after a success goes on from the state that the success has left. -/
theorem run_bind_of_ok {ε σ α β : Type} {x : ExceptT ε (StateM σ) α} {s s' : σ} {a : α}
    (h : x.run s = (.ok a, s')) (f : α → ExceptT ε (StateM σ) β) :
    (x >>= f).run s = (f a).run s' := by
  rw [ExceptT.run_bind]
  show StateT.bind x.run _ s = _
  unfold StateT.bind
  rw [h]
  rfl

theorem run_forM_spawn (served : List (Schema × ServedResource)) (s : Supervisor) :
    (served.forM fun e => modify (·.spawn e.1) :
        ExceptT BootstrapError (StateM Supervisor) Unit).run s =
      (.ok (), served.foldl (fun s e => s.spawn e.1) s) := by
  induction served generalizing s with
  | nil => rfl
  | cons e served ih => exact ih (s.spawn e.1)

/-- `startInPlace` leaves the supervisor as it was where `start` fails, as nothing can fail any more
once the first watcher is spawned. -/
theorem run_startInPlace (s : Supervisor) (schemas : List Schema)
    (found : Except BootstrapError (List ServedGroup)) :
    (startInPlace schemas found).run s =
      match s.start schemas found with
      | .ok (s', _) => (.ok s'.size, s')
      | .error e => (.error e, s) := by
  unfold startInPlace start
  -- Both look at the schemas first, then at what was found, and only then at the supervisor.
  cases check schemas with
  | error e => rfl
  | ok _ =>
    cases found with
    | error e => rfl
    | ok groups =>
      have hspawned := run_forM_spawn (servedSchemas schemas groups) s
      exact run_bind_of_ok hspawned _

/-! ## Checks -/

theorem check_eq_ok_iff (schemas : List Schema) :
    check schemas = .ok () ↔ ∀ schema ∈ schemas, schema.validate = .ok () := by
  induction schemas with
  | nil => simp [check, pure, Except.pure]
  | cons schema schemas ih =>
    have hcons : check (schema :: schemas) =
        (schema.validate.mapError BootstrapError.schema >>= fun _ => check schemas) := by
      simp only [check, List.forM_eq_forM, List.forM_cons]
    rw [hcons, List.forall_mem_cons, ← ih]
    cases schema.validate with
    | error e => simp [Except.mapError, bind, Except.bind]
    | ok _ => simp [Except.mapError, bind, Except.bind]

theorem exists_invalid_of_check {schemas : List Schema} {e : BootstrapError}
    (h : check schemas = .error e) : ∃ schema ∈ schemas, ∃ e, schema.validate = .error e := by
  by_contra hnone
  have hvalid : ∀ schema ∈ schemas, schema.validate = .ok () := by
    intro schema hmem
    cases hresult : schema.validate with
    | error e => exact absurd ⟨schema, hmem, e, hresult⟩ hnone
    | ok _ => rfl
  rw [(check_eq_ok_iff schemas).mpr hvalid] at h
  cases h

/-! ## Who is watched -/

theorem watched_foldl_spawn (served : List (Schema × ServedResource)) (s : Supervisor) :
    (served.foldl (fun s e => s.spawn e.1) s).watched = s.watched ++ served.map Prod.fst := by
  induction served generalizing s with
  | nil => simp
  | cons e served ih =>
    rw [List.foldl_cons, ih]
    simp [spawn]

theorem map_fst_servedSchemas (schemas : List Schema) (groups : List ServedGroup) :
    (servedSchemas schemas groups).map Prod.fst =
      schemas.filter fun schema => (schema.servedBy? groups).isSome := by
  unfold servedSchemas
  induction schemas with
  | nil => rfl
  | cons schema schemas ih =>
    rw [List.filterMap_cons, List.filter_cons]
    cases schema.servedBy? groups with
    | none => simpa using ih
    | some r => simpa using ih

/-- `start` with schemas that `validate`, in a cluster that could be asked, adds to `watched` the
entries that are served, in their order. -/
theorem start_of_valid (s : Supervisor) {schemas : List Schema}
    (hvalid : ∀ schema ∈ schemas, schema.validate = .ok ()) (groups : List ServedGroup) :
    ∃ s' served, s.start schemas (.ok groups) = .ok (s', served) ∧
      s'.watched = s.watched ++ schemas.filter fun schema => (schema.servedBy? groups).isSome := by
  let served := servedSchemas schemas groups
  refine ⟨served.foldl (fun s e => s.spawn e.1) s, served, ?_, ?_⟩
  · rw [start, (check_eq_ok_iff schemas).mpr hvalid]
    rfl
  · rw [watched_foldl_spawn, map_fst_servedSchemas]

/-- `startInPlace` on a new supervisor. One that fails, for a schema that does not `validate` or
because the cluster could not be asked, leaves nothing `watched`. One that succeeds watches what is
configured and `ServedIn` the groups, each as often as it is configured; so no two watchers have one
schema exactly if nothing that is served is configured twice. -/
theorem watched_as_configured (schemas : List Schema)
    (found : Except BootstrapError (List ServedGroup))
    (hlisted : ∀ groups, found = .ok groups → WellListed groups) :
    let (result, s) := (startInPlace schemas found).run {}
    match result with
    | .error _ =>
      s.watched = [] ∧
      ((∃ schema ∈ schemas, ∃ e, schema.validate = .error e) ∨ ∃ e, found = .error e)
    | .ok count =>
      count = s.watched.length ∧
      (∀ schema ∈ schemas, schema.validate = .ok ()) ∧
      ∃ groups, found = .ok groups ∧
        (∀ schema, schema ∈ s.watched ↔ schema ∈ schemas ∧ schema.ServedIn groups) ∧
        (∀ schema, schema.ServedIn groups → s.watched.count schema = schemas.count schema) ∧
        (s.watched.Nodup ↔ ∀ schema, schema.ServedIn groups → schemas.count schema ≤ 1) := by
  rw [run_startInPlace]
  cases hcheck : check schemas with
  -- A schema that is not valid stops everything, before anything is watched.
  | error e =>
    have hstart : ({} : Supervisor).start schemas found = .error e := by rw [start, hcheck]; rfl
    rw [hstart]
    exact ⟨rfl, .inl (exists_invalid_of_check hcheck)⟩
  | ok _ =>
    cases found with
    -- So does a server that does not say what it serves.
    | error e =>
      have hstart : ({} : Supervisor).start schemas (.error e) = .error e := by
        rw [start, hcheck]
        rfl
      rw [hstart]
      exact ⟨rfl, .inr ⟨e, rfl⟩⟩
    -- Otherwise one watcher is spawned for each entry that is served.
    | ok groups =>
      have hvalid := (check_eq_ok_iff schemas).mp hcheck
      obtain ⟨s', served, hstart, hwatched⟩ := start_of_valid {} hvalid groups
      have hserved : ∀ schema : Schema, (schema.servedBy? groups).isSome = true ↔
          schema.ServedIn groups := fun schema => schema.servedBy?_isSome_iff (hlisted groups rfl)
      have hfilter : s'.watched = schemas.filter fun schema => (schema.servedBy? groups).isSome :=
        hwatched
      rw [hstart]
      refine ⟨rfl, hvalid, groups, rfl, ?_, ?_, ?_⟩
      · intro schema
        rw [hfilter, List.mem_filter, hserved]
      · intro schema hin
        rw [hfilter]
        exact List.count_filter ((hserved schema).mpr hin)
      · rw [hfilter, nodup_filter_iff]
        simp only [hserved]

/-- The schema of pods. -/
def podSchema : Schema := ⟨"", "v1", "pods"⟩

/-- A cluster that serves nothing but pods. -/
def podCluster : List ServedGroup := [⟨"", [⟨"v1", [.ofParts "" "v1" "Pod" "pods"]⟩]⟩]

theorem wellListed_podCluster : WellListed podCluster where
  names := List.nodup_singleton _
  versions g hmem := by
    rw [List.mem_singleton.mp hmem]
    exact List.nodup_singleton _

/-- In `podCluster`, of pods and deployments that are configured only the pods are served, and
`watched`. -/
theorem watched_in_podCluster :
    let schemas : List Schema := [podSchema, ⟨"apps", "v1", "deployments"⟩]
    let found : Except BootstrapError (List ServedGroup) := .ok podCluster
    (∀ groups, found = .ok groups → WellListed groups) ∧
    (startInPlace schemas found).run {} = (.ok 1, { watched := [podSchema] }) ∧
    ([podSchema].Nodup ↔
      ∀ schema : Schema, schema.ServedIn podCluster → schemas.count schema ≤ 1) := by
  intro schemas found
  have hlisted : ∀ groups, found = .ok groups → WellListed groups := by
    intro groups h
    rw [← Except.ok.inj h]
    exact wellListed_podCluster
  obtain ⟨-, -, groups, hgroups, -, -, hnodup⟩ := watched_as_configured schemas found hlisted
  rw [← Except.ok.inj hgroups] at hnodup
  exact ⟨hlisted, rfl, hnodup⟩

/-- `Schema.parse` reads two spellings of a schema as one, and `startInPlace` gives it two watchers.
-/
theorem two_watchers_for_one_schema :
    ["v1/pods", "/v1/pods"].mapM Schema.parse = .ok [podSchema, podSchema] ∧
    WellListed podCluster ∧
    ∃ s, (startInPlace [podSchema, podSchema] (.ok podCluster)).run {} = (.ok 2, s) ∧
      s.watched = [podSchema, podSchema] ∧ ¬ s.watched.Nodup := by
  refine ⟨by decide, wellListed_podCluster, { watched := [podSchema, podSchema] }, rfl, rfl, ?_⟩
  decide

end Supervisor
end InventorySync
