import InventorySync.Proofs.Strides
import InventorySync.Watch.Script

/-!
# What a watcher hands over

A paged watcher in front of a scripted source, with nobody who signals. The replies of the source
are due in an order that its script alone decides: pages up to the last one of a list or a failure,
then attempts at a stream, and after a stream a list again. What the watcher hands over is what
these replies say, read one after the other.

## Key results

- `Accounts.turn`: what was handed over and what is still at hand is what the replies say
- `Errand.exists_poised`: a watcher comes to ask again, unless a stream stays open
- `Errand.hands_over_source`: a watcher hands over the objects of its source, in order
-/

namespace InventorySync

/-! ## What replies say -/

/-- Something that comes at once, with no signals. -/
def Scripted.plain {α : Type} (value : α) : Scripted α := ⟨{}, value⟩

/-- What the events of a stream say, up to the first after which nothing follows. -/
def streamChanges (events : List StreamEvent) : List (Action × Json) :=
  (events.takeWhile (!·.isLast)).filterMap (·.change?)

/-- The events that come from a stream. -/
def StreamScript.brings (script : StreamScript) : List StreamEvent :=
  script.events.filterMap (·.value) ++ if script.closes then [.closed] else []

/-- A reply of a source: a page or a stream, of which `none` is a failure. -/
inductive SourceReply where
  | page (reply : Option ListPage)
  | stream (reply : Option StreamScript)
deriving DecidableEq, Repr, Inhabited

namespace SourceReply

def answer : SourceReply → Answer
  | .page listed => .page listed
  | .stream opened => .opened opened.isSome

/-- The events that follow a reply. -/
def events : SourceReply → List StreamEvent
  | .page _ | .stream none => []
  | .stream (some script) => script.brings

/-- What a reply says: the objects of a page are there, and those of a stream change. -/
def changes : SourceReply → List (Action × Json)
  | .page none | .stream none => []
  | .page (some listed) => listed.items.map ((.create, ·))
  | .stream (some script) => streamChanges script.brings

/-- What is due after a reply, when a page was due or a stream from a version. -/
def due (before : Option String) : SourceReply → Option String
  | .page none => none
  | .page (some listed) => if listed.next.isSome then none else some listed.resourceVersion
  | .stream none => before.filter (· ≠ "")
  | .stream (some _) => none

/-- Whether something follows a reply: a stream may stay open and silent. -/
def ends (reply : SourceReply) : Bool :=
  match reply with
  | .stream (some script) => script.brings.any (·.isLast)
  | .page _ | .stream none => true

end SourceReply

namespace SourceScript

/-- The reply to what is due: a page, or a stream from a version. -/
def next? (s : SourceScript) : Option String → Option (SourceReply × SourceScript)
  | none => s.nextList.1.map fun reply => (.page reply.value, s.nextList.2)
  | some _ => s.nextWatch.1.map fun reply => (.stream reply.value, s.nextWatch.2)

/-- The first replies of a source, in the order in which they are due; fewer when it falls
silent. -/
def replies (s : SourceScript) : Nat → Option String → List SourceReply
  | 0, _ => []
  | n + 1, due =>
    match s.next? due with
    | some (reply, rest) => reply :: rest.replies n (reply.due due)
    | none => []

theorem replies_zero (s : SourceScript) (due : Option String) : s.replies 0 due = [] := rfl

theorem replies_succ_of_next? {s rest : SourceScript} {due : Option String} {reply : SourceReply}
    (h : s.next? due = some (reply, rest)) (n : Nat) :
    s.replies (n + 1) due = reply :: rest.replies n (reply.due due) := by
  rw [replies, h]

theorem replies_of_silent {s : SourceScript} {due : Option String} (h : s.next? due = none)
    (n : Nat) : s.replies n due = [] := by
  cases n with
  | zero => rfl
  | succ n => rw [replies, h]

/-- `replies` has one more reply for one more `n`, or the source has fallen silent. -/
theorem replies_succ (s : SourceScript) (n : Nat) (due : Option String) :
    s.replies (n + 1) due = s.replies n due ∨
      (s.replies n due).length = n ∧
        ∃ reply, s.replies (n + 1) due = s.replies n due ++ [reply] := by
  induction n generalizing s due with
  | zero =>
    cases hnext : s.next? due with
    | none => exact Or.inl (replies_of_silent hnext 1)
    | some next => exact Or.inr ⟨rfl, next.1, replies_succ_of_next? hnext 0⟩
  | succ n ih =>
    cases hnext : s.next? due with
    | none => rw [replies_of_silent hnext, replies_of_silent hnext]; exact Or.inl rfl
    | some next =>
      obtain ⟨reply, rest⟩ := next
      rw [replies_succ_of_next? hnext (n + 1), replies_succ_of_next? hnext n]
      rcases ih rest (reply.due due) with hsame | ⟨hlength, last, hlast⟩
      · exact Or.inl (by rw [hsame])
      · refine Or.inr ⟨by rw [List.length_cons, hlength], last, ?_⟩
        rw [hlast, List.cons_append]

/-- `replies` of its own length are all of them: a source that has fallen silent stays so. -/
theorem replies_length (s : SourceScript) (n : Nat) (due : Option String) :
    s.replies (s.replies n due).length due = s.replies n due := by
  induction n with
  | zero => rfl
  | succ n ih =>
    rcases s.replies_succ n due with hsame | ⟨hlength, reply, hreply⟩
    · rw [hsame, ih]
    · rw [hreply, List.length_append, hlength, List.length_singleton, hreply]

end SourceScript

/-! ## Watchers that nobody signals -/

/-- What a watcher is handing over. -/
def PagedStage.call? : PagedStage → Option (Action × Json)
  | .storing object _ _ => some (.create, object)
  | .delivering action object => some (action, object)
  | .idle | .asking _ | .opening | .listening | .resting _ => none

/-- What a watcher has at hand to hand over next: the rest of a page, or of an open stream. -/
def PagedStage.atHand (stream : List StreamEvent) : PagedStage → List (Action × Json)
  | .storing _ rest _ => rest.map ((.create, ·))
  | .listening | .delivering .. => streamChanges stream
  | .idle | .asking _ | .opening | .resting _ => []

namespace PagedWatcher

/-- Signals that bring no news. -/
def quiet (w : PagedWatcher) : Signals := { resyncs := w.seen.getD 0 }

/-- What a watcher will ask for: none is a page of a list, otherwise a stream from a version. -/
def due (w : PagedWatcher) : Option String :=
  match w.stage with
  | .asking _ | .listening | .delivering .. => none
  | .storing _ _ page => if page.next.isSome then none else some page.resourceVersion
  | .opening => some w.cursor
  | .idle | .resting _ =>
    match w.phase with
    | .init | .listing | .stopped => none
    | .watching => some w.cursor
    | .backoff _ => (some w.cursor).filter (· ≠ "")

theorem resyncDue_quiet (w : PagedWatcher) : w.quiet.resyncDue w.seen = false := by
  cases hseen : w.seen with
  | none => rfl
  | some n => simp [Signals.resyncDue, quiet, hseen]

theorem listen_quiet {w u : PagedWatcher} (h : u.seen = w.seen) :
    u.listen w.quiet = { u with stage := .listening } := by
  rcases u.listen_cases w.quiet with ⟨hcancelled, -⟩ | ⟨-, hdue, -⟩ | ⟨-, -, hu⟩
  · cases hcancelled
  · rw [h, w.resyncDue_quiet] at hdue
    cases hdue
  · exact hu

/-- After `store`, the next page is `due`, or a stream from where the list has ended. -/
theorem due_store {w u : PagedWatcher} (page : ListPage) (rest : List Json) :
    (u.store w.quiet page rest).due =
      if page.next.isSome then none else some page.resourceVersion := by
  rcases u.store_cases w.quiet page rest with ⟨object, later, -, h⟩ | ⟨-, token, -, hcancelled, -⟩ |
    ⟨-, token, hnext, -, h⟩ | ⟨-, hnext, h⟩
  · rw [h]
    rfl
  · cases hcancelled
  · rw [h, hnext]
    rfl
  · rw [h, hnext]
    rfl

/-- A `Stride` without a reply leaves alone what is `due`. -/
theorem due_of_stride {w w' : PagedWatcher} {x : Option Answer} (hw : w.Paced)
    (hx : ∀ reply : SourceReply, x ≠ some reply.answer) (h : Stride w.quiet w x w') :
    w'.due = w.due := by
  cases h with
  -- A phase after another leads to the same request in the end.
  | stop idle ending =>
    rcases ending with hcancelled | hphase
    · cases hcancelled
    · simp [due, idle, hphase, PagedWatcher.stop, settle]
  | init idle phase => simp [due, idle, phase, relist, settle]
  | list idle phase => simp [due, idle, phase]
  | connect idle phase => simp [due, idle, phase]
  | pause delay idle phase => simp [due, idle, phase]
  -- Replies of the source are not meant here.
  | unlisted token stage => exact absurd rfl (hx (.page none))
  | paged token page stage => exact absurd rfl (hx (.page (some page)))
  | opened stage => exact absurd rfl (hx (.stream (some ⟨[], true⟩)))
  | unopened stage => exact absurd rfl (hx (.stream none))
  -- Neither the handler nor an event changes what is asked for next.
  | stored object rest page stage =>
    rw [due_store]
    simp [due, stage]
  | changed event action object stage =>
    obtain ⟨cursor, hcursor⟩ := w.exists_advance (objectVersion object)
    simp [due, stage, deliver]
  | marked version stage =>
    obtain ⟨cursor, hcursor⟩ := w.exists_advance version
    rw [listen_quiet (by rw [hcursor])]
    simp [due, stage]
  | ended event stage => simp [due, stage, relist, settle]
  | delivered action object stage =>
    rw [listen_quiet rfl]
    simp [due, stage]
  -- After a rest the cursor decides between a list and a stream, as it did before.
  | rested delay stage =>
    have hphase : w.phase = .backoff delay := hw _ (by rw [stage]; rfl)
    by_cases hcursor : w.cursor = ""
    · simp [due, stage, hphase, settle, hcursor, Option.filter_some]
    · simp [due, stage, hphase, settle, hcursor, Option.filter_some]

/-- A `Stride` with a reply makes `due` what the reply decides. -/
theorem due_of_reply {w w' : PagedWatcher} {reply : SourceReply}
    (h : Stride w.quiet w (some reply.answer) w') : w'.due = reply.due w.due := by
  cases reply with
  | page listed =>
    cases h with
    | unlisted token stage =>
      rw [rest_eq]
      simp [due, SourceReply.due]
    | paged token page stage => exact due_store (w := w) page page.items
  | stream opened =>
    cases opened with
    | none =>
      cases h with
      | unopened stage =>
        rw [rest_eq]
        simp [due, SourceReply.due, stage]
    | some script =>
      cases h with
      | opened stage =>
        rw [listen_quiet (w := w) (u := { w with backoff := w.backoff.reset }) rfl]
        simp [due, SourceReply.due]

end PagedWatcher

/-! ## Errands -/

/-- A `PagedWatcher` with its `SourceScript`, and what it has handed over. -/
structure Errand where
  watcher : PagedWatcher
  /-- What is left of the source. -/
  source : SourceScript
  /-- What is left of the latest stream. -/
  stream : List StreamEvent
  /-- How many replies have come. -/
  count : Nat
  /-- What was handed over so far. -/
  calls : List (Action × Json)
deriving DecidableEq, Repr

namespace Errand

def start (pageSize : Nat) (backoff : Backoff) (seen : Option Nat) (source : SourceScript) :
    Errand :=
  ⟨.new pageSize backoff seen, source, [], 0, []⟩

/-- The watcher goes on, and what it hands over then is noted. -/
def goOn (e : Errand) (w : PagedWatcher) : Errand :=
  { e with watcher := w, calls := e.calls ++ w.stage.call?.toList }

/-- The source replies to what is due, unless it is silent. -/
def ask (e : Errand) (due : Option String) : Errand :=
  match e.source.next? due with
  | some (reply, source) =>
    ({ e with source, stream := reply.events, count := e.count + 1 } : Errand).goOn
      (e.watcher.answered e.watcher.quiet reply.answer)
  | none => e

/-- The watcher goes on as soon as it can, and nobody signals. -/
def turn (e : Errand) : Errand :=
  match e.watcher.wait with
  | none => e.goOn (e.watcher.begin e.watcher.quiet)
  | some (.page _ _) => e.ask none
  | some (.watch version) => e.ask (some version)
  | some (.handle _ _) => e.goOn (e.watcher.answered e.watcher.quiet .handled)
  | some (.sleep _) => e.goOn (e.watcher.answered e.watcher.quiet .rested)
  | some .event =>
    match e.stream with
    | event :: stream =>
      ({ e with stream } : Errand).goOn (e.watcher.answered e.watcher.quiet (.event event))
    | [] => e

/-- So many turns. -/
def run (e : Errand) : Nat → Errand
  | 0 => e
  | n + 1 => (e.run n).turn

/-- What is still at hand. -/
def pending (e : Errand) : List (Action × Json) := e.watcher.stage.atHand e.stream

/-- The watcher asks its source. -/
def Poised (e : Errand) : Prop :=
  (∃ token, e.watcher.stage = .asking token) ∨ e.watcher.stage = .opening

/-- What a `turn` is: the watcher goes on by itself, an event of the stream comes, the source
replies, or nothing comes. -/
inductive Turn (e : Errand) : Errand → Prop
  | own {x w} (own : ∀ a, x = some a → a = .handled ∨ a = .rested)
    (stride : e.watcher.Stride e.watcher.quiet x w) : Turn e (e.goOn w)
  | event {event stream w} (left : e.stream = event :: stream)
    (stride : e.watcher.Stride e.watcher.quiet (some (.event event)) w) :
    Turn e (({ e with stream } : Errand).goOn w)
  | reply {reply source w} (next : e.source.next? e.watcher.due = some (reply, source))
    (stride : e.watcher.Stride e.watcher.quiet (some reply.answer) w) :
    Turn e
      (({ e with source, stream := reply.events, count := e.count + 1 } : Errand).goOn w)
  | silent (asks : e.Poised) (next : e.source.next? e.watcher.due = none) : Turn e e
  | open (waits : e.watcher.stage = .listening) (left : e.stream = []) : Turn e e

/-- The `turn` of a watcher that is `Poised` is to `ask` for what is `due`. -/
theorem turn_of_poised {e : Errand} (h : e.Poised) : e.turn = e.ask e.watcher.due := by
  rcases h with ⟨token, hstage⟩ | hstage
  · simp only [turn, PagedWatcher.wait, PagedWatcher.due, hstage]
  · simp only [turn, PagedWatcher.wait, PagedWatcher.due, hstage]

theorem stride_of_next? {e : Errand} {reply : SourceReply} {source : SourceScript}
    (h : e.Poised) (hnext : e.source.next? e.watcher.due = some (reply, source)) :
    e.watcher.Stride e.watcher.quiet (some reply.answer)
      (e.watcher.answered e.watcher.quiet reply.answer) := by
  rcases h with ⟨token, hstage⟩ | hstage
  · rw [PagedWatcher.due, hstage] at hnext
    obtain ⟨listed, -, hreply⟩ := Option.map_eq_some_iff.mp hnext
    obtain ⟨rfl, -⟩ := Prod.mk.inj hreply
    have hwait : e.watcher.wait = some (.page e.watcher.pageSize token) := by
      rw [PagedWatcher.wait, hstage]
    exact PagedWatcher.stride_answered _ hwait rfl
  · rw [PagedWatcher.due, hstage] at hnext
    obtain ⟨opened, -, hreply⟩ := Option.map_eq_some_iff.mp hnext
    obtain ⟨rfl, -⟩ := Prod.mk.inj hreply
    have hwait : e.watcher.wait = some (.watch e.watcher.cursor) := by
      rw [PagedWatcher.wait, hstage]
    exact PagedWatcher.stride_answered _ hwait rfl

theorem turn_cases (e : Errand) : Turn e e.turn := by
  have hasks : e.Poised → Turn e e.turn := by
    intro hpoised
    rw [turn_of_poised hpoised, ask]
    cases hnext : e.source.next? e.watcher.due with
    | none => exact .silent hpoised hnext
    | some next => exact .reply hnext (stride_of_next? hpoised hnext)
  cases hstage : e.watcher.stage with
  -- The source is asked for a page or a stream.
  | asking token => exact hasks (Or.inl ⟨token, hstage⟩)
  | opening => exact hasks (Or.inr hstage)
  -- The watcher goes on by itself, its handler is done with an object, or its rest is over.
  | idle =>
    have hwait : e.watcher.wait = none := by rw [PagedWatcher.wait, hstage]
    rw [turn, hwait]
    exact .own (x := none) (fun a h => by cases h) (PagedWatcher.stride_begin _ hwait)
  | storing object rest page =>
    have hwait : e.watcher.wait = some (.handle .create object) := by
      rw [PagedWatcher.wait, hstage]
    rw [turn, hwait]
    exact .own (fun a h => Or.inl (Option.some.inj h).symm)
      (PagedWatcher.stride_answered _ hwait rfl)
  | delivering action object =>
    have hwait : e.watcher.wait = some (.handle action object) := by
      rw [PagedWatcher.wait, hstage]
    rw [turn, hwait]
    exact .own (fun a h => Or.inl (Option.some.inj h).symm)
      (PagedWatcher.stride_answered _ hwait rfl)
  | resting delay =>
    have hwait : e.watcher.wait = some (.sleep delay) := by rw [PagedWatcher.wait, hstage]
    rw [turn, hwait]
    exact .own (fun a h => Or.inr (Option.some.inj h).symm)
      (PagedWatcher.stride_answered _ hwait rfl)
  -- The stream brings its next event, unless it has none and stays open.
  | listening =>
    have hwait : e.watcher.wait = some .event := by rw [PagedWatcher.wait, hstage]
    rw [turn, hwait]
    cases hstream : e.stream with
    | nil => exact .open hstage hstream
    | cons event stream =>
      exact .event hstream (PagedWatcher.stride_answered _ hwait rfl)

/-! ## What was handed over -/

/-- After `store`, the objects of the page are in the call and `atHand`. -/
theorem atHand_store (u : PagedWatcher) (s : Signals) (page : ListPage) (rest : List Json)
    (stream : List StreamEvent) :
    (u.store s page rest).stage.call?.toList ++ (u.store s page rest).stage.atHand stream =
      rest.map ((.create, ·)) := by
  rcases u.store_cases s page rest with ⟨object, later, rfl, h⟩ | ⟨rfl, token, -, -, h⟩ |
    ⟨rfl, token, -, -, h⟩ | ⟨rfl, -, h⟩
  · rw [h]
    rfl
  · rw [h]
    rfl
  · rw [h]
    rfl
  · rw [h]
    rfl

/-- A `Stride` by the watcher itself hands over what was `atHand`. -/
theorem atHand_of_own {w w' : PagedWatcher} {x : Option Answer} (stream : List StreamEvent)
    (own : ∀ a, x = some a → a = .handled ∨ a = .rested) (h : w.Stride w.quiet x w') :
    w'.stage.call?.toList ++ w'.stage.atHand stream = w.stage.atHand stream := by
  cases h with
  | stop idle | init idle | list idle | connect idle | pause delay idle =>
    rw [idle]
    rfl
  | unlisted | paged | opened | unopened | changed | marked | ended => simpa using own _ rfl
  | stored object rest page stage =>
    rw [atHand_store, stage]
    rfl
  | delivered action object stage =>
    rw [PagedWatcher.listen_quiet rfl, stage]
    rfl
  | rested delay stage =>
    rw [stage]
    rfl

/-- A `Stride` with an `.event` hands over what the event says. -/
theorem atHand_of_event {w w' : PagedWatcher} {event : StreamEvent} (stream : List StreamEvent)
    (h : w.Stride w.quiet (some (.event event)) w') :
    w'.stage.call?.toList ++ w'.stage.atHand stream = w.stage.atHand (event :: stream) := by
  cases h with
  | changed _ action object stage change =>
    rw [stage]
    cases event with
    | added | modified | deleted =>
      obtain ⟨rfl, rfl⟩ := Prod.mk.inj (Option.some.inj change)
      rfl
    | bookmark | refused | failed | closed => cases change
  | marked version stage =>
    obtain ⟨cursor, hcursor⟩ := w.exists_advance version
    rw [PagedWatcher.listen_quiet (by rw [hcursor]), stage]
    rfl
  | ended _ stage last =>
    rw [stage]
    show [] = streamChanges (event :: stream)
    simp [streamChanges, last]

/-- A `Stride` with a reply hands over its `changes`, or has them `atHand`; nothing else was. -/
theorem atHand_of_reply {w w' : PagedWatcher} {reply : SourceReply} (stream : List StreamEvent)
    (h : w.Stride w.quiet (some reply.answer) w') :
    w.stage.atHand stream = [] ∧
      w'.stage.call?.toList ++ w'.stage.atHand reply.events = reply.changes := by
  -- A reply is read in the stage that waits for it, in which no change is at hand yet.
  cases reply with
  | page listed =>
    cases h with
    | unlisted token stage =>
      rw [stage, PagedWatcher.rest_eq]
      exact ⟨rfl, rfl⟩
    | paged token page stage =>
      rw [stage, atHand_store]
      exact ⟨rfl, rfl⟩
  | stream opened =>
    cases opened with
    | none =>
      cases h with
      | unopened stage =>
        rw [stage, PagedWatcher.rest_eq]
        exact ⟨rfl, rfl⟩
    | some script =>
      cases h with
      | opened stage =>
        rw [PagedWatcher.listen_quiet (w := w) (u := { w with backoff := w.backoff.reset }) rfl,
          stage]
        exact ⟨rfl, rfl⟩

/-- The calls and what is still `atHand` are what the `replies` say, and the replies that are still
to come are those that follow. -/
structure Accounts (source : SourceScript) (e : Errand) : Prop where
  paced : e.watcher.Paced
  calls : e.calls ++ e.pending = (source.replies e.count none).flatMap (·.changes)
  replies : ∀ n, source.replies (e.count + n) none =
    source.replies e.count none ++ e.source.replies n e.watcher.due

theorem accounts_start (pageSize : Nat) (backoff : Backoff) (seen : Option Nat)
    (source : SourceScript) : Accounts source (start pageSize backoff seen source) := by
  refine ⟨.of_idle rfl, rfl, fun n => ?_⟩
  show source.replies (0 + n) none = [] ++ source.replies n none
  rw [Nat.zero_add, List.nil_append]

/-- A `Turn` keeps `Accounts`. -/
theorem Accounts.turn {source : SourceScript} {e e' : Errand} (h : Accounts source e)
    (hturn : Turn e e') : Accounts source e' := by
  cases hturn with
  | @own x w own stride =>
    -- No reply is used up, and what is due stays due.
    have hreply : ∀ reply : SourceReply, x ≠ some reply.answer := by
      intro reply hx
      cases reply with
      | page | stream => simpa [SourceReply.answer] using own _ hx
    refine ⟨h.paced.stride stride, ?_, ?_⟩
    · refine Eq.trans ?_ h.calls
      rw [pending, goOn, List.append_assoc, atHand_of_own _ own stride]
      rfl
    · show ∀ n, source.replies (e.count + n) none = _ ++ e.source.replies n w.due
      rw [PagedWatcher.due_of_stride h.paced hreply stride]
      exact h.replies
  | @event event stream w left stride =>
    refine ⟨h.paced.stride stride, ?_, ?_⟩
    · refine Eq.trans ?_ h.calls
      rw [pending, goOn, List.append_assoc, atHand_of_event _ stride, ← left]
      rfl
    · have hreply : ∀ reply : SourceReply, some (Answer.event event) ≠ some reply.answer := by
        intro reply hx
        cases reply <;> cases hx
      show ∀ n, source.replies (e.count + n) none = _ ++ e.source.replies n w.due
      rw [PagedWatcher.due_of_stride h.paced hreply stride]
      exact h.replies
  | @reply reply rest w next stride =>
    obtain ⟨hnone, hsays⟩ := atHand_of_reply e.stream stride
    -- The reply is the one that follows in the script.
    have hone : source.replies (e.count + 1) none = source.replies e.count none ++ [reply] := by
      rw [h.replies 1, SourceScript.replies_succ_of_next? next, SourceScript.replies_zero]
    refine ⟨h.paced.stride stride, ?_, fun n => ?_⟩
    · have hcalls : e.calls = (source.replies e.count none).flatMap (·.changes) := by
        rw [← h.calls, pending, hnone, List.append_nil]
      show e.calls ++ w.stage.call?.toList ++ w.stage.atHand reply.events =
        (source.replies (e.count + 1) none).flatMap (·.changes)
      rw [hone, List.append_assoc, hsays, List.flatMap_append, ← hcalls, List.flatMap_singleton]
    · show source.replies (e.count + 1 + n) none =
        source.replies (e.count + 1) none ++ rest.replies n w.due
      rw [hone, Nat.add_assoc, Nat.add_comm 1 n, h.replies (n + 1),
        SourceScript.replies_succ_of_next? next, PagedWatcher.due_of_reply stride,
        List.append_assoc, List.singleton_append]
  | silent | «open» => exact h

theorem Accounts.run {source : SourceScript} {e : Errand} (h : Accounts source e) (n : Nat) :
    Accounts source (e.run n) := by
  induction n with
  | zero => exact h
  | succ n ih => exact ih.turn (turn_cases _)

theorem run_add (e : Errand) (m n : Nat) : (e.run m).run n = e.run (m + n) := by
  induction n with
  | zero => rfl
  | succ n ih =>
    show ((e.run m).run n).turn = (e.run (m + n)).turn
    rw [ih]

/-! ## Getting on -/

/-- The watcher is not `.stopped`, and an open stream will end. -/
structure Live (e : Errand) : Prop where
  goes : e.watcher.phase ≠ .stopped
  ends : e.watcher.stage = .listening ∨
      (∃ action object, e.watcher.stage = .delivering action object) →
    e.stream.any (·.isLast) = true

/-- A watcher without an open stream is `Live` if it is not `.stopped`. -/
theorem Live.of_unopened {e : Errand} (hphase : e.watcher.phase ≠ .stopped)
    (hlistening : e.watcher.stage ≠ .listening)
    (hdelivering : ∀ action object, e.watcher.stage ≠ .delivering action object) : e.Live := by
  refine ⟨hphase, ?_⟩
  rintro (h | ⟨action, object, h⟩)
  · exact absurd h hlistening
  · exact absurd h (hdelivering action object)

/-- How many turns a watcher takes at most until it asks again. -/
def turnsToAsk (e : Errand) : Nat :=
  match e.watcher.stage with
  | .asking _ | .opening => 0
  | .idle =>
    match e.watcher.phase with
    | .init => 2
    | .listing | .watching | .stopped => 1
    | .backoff _ => 3
  | .resting _ => 2
  | .storing _ rest _ => rest.length + 2
  | .listening => 2 * e.stream.length + 2
  | .delivering .. => 2 * e.stream.length + 3

/-- After `store` a watcher is `Live`, and the objects of the page bound `turnsToAsk`. -/
theorem turnsToAsk_store (e : Errand) {w u : PagedWatcher} (page : ListPage) (rest : List Json)
    (hphase : u.phase ≠ .stopped) :
    (e.goOn (u.store w.quiet page rest)).Live ∧
      (e.goOn (u.store w.quiet page rest)).turnsToAsk < rest.length + 2 := by
  rcases u.store_cases w.quiet page rest with ⟨object, later, rfl, h⟩ |
    ⟨-, token, -, hcancelled, -⟩ | ⟨rfl, token, -, -, h⟩ | ⟨rfl, -, h⟩
  · rw [h]
    exact ⟨.of_unopened hphase nofun nofun, Nat.lt_succ_self _⟩
  · cases hcancelled
  · rw [h]
    exact ⟨.of_unopened hphase nofun nofun, by simp [turnsToAsk, goOn]⟩
  · rw [h]
    exact ⟨.of_unopened nofun nofun nofun, by simp [turnsToAsk, goOn, PagedWatcher.settle]⟩

theorem turnsToAsk_of_own {e : Errand} {x : Option Answer} {w : PagedWatcher}
    (hpaced : e.watcher.Paced) (hlive : e.Live)
    (own : ∀ a, x = some a → a = .handled ∨ a = .rested)
    (h : e.watcher.Stride e.watcher.quiet x w) :
    (e.goOn w).Live ∧ (e.goOn w).turnsToAsk < e.turnsToAsk := by
  cases h with
  -- Nobody cancels, and a watcher that goes on comes from phase to phase closer to its request.
  | stop idle ending =>
    rcases ending with hcancelled | hphase
    · cases hcancelled
    · exact absurd hphase hlive.goes
  | init idle phase =>
    exact ⟨.of_unopened nofun nofun nofun, by
      simp [turnsToAsk, idle, phase, goOn, PagedWatcher.relist, PagedWatcher.settle]⟩
  | list idle phase =>
    exact ⟨.of_unopened hlive.goes nofun nofun, by simp [turnsToAsk, idle, phase, goOn]⟩
  | connect idle phase =>
    exact ⟨.of_unopened hlive.goes nofun nofun, by simp [turnsToAsk, idle, phase, goOn]⟩
  | pause delay idle phase =>
    exact ⟨.of_unopened hlive.goes nofun nofun, by simp [turnsToAsk, idle, phase, goOn]⟩
  | unlisted | paged | opened | unopened | changed | marked | ended => simpa using own _ rfl
  -- One object less is at hand, or the stream that ends is waited for.
  | stored object rest page stage =>
    obtain ⟨hstored, hlt⟩ := turnsToAsk_store e (w := e.watcher) page rest hlive.goes
    exact ⟨hstored, by rwa [turnsToAsk.eq_def e, stage]⟩
  | delivered action object stage =>
    have hends := hlive.ends (Or.inr ⟨action, object, stage⟩)
    rw [PagedWatcher.listen_quiet rfl]
    exact ⟨⟨hlive.goes, fun _ => hends⟩, by simp [turnsToAsk, stage, goOn]⟩
  -- A list or a stream is the next thing to ask for, whichever the cursor says.
  | rested delay stage =>
    have hphase : e.watcher.phase = .backoff delay := hpaced _ (by rw [stage]; rfl)
    by_cases hcursor : e.watcher.cursor = ""
    · rw [if_pos hcursor]
      exact ⟨.of_unopened nofun nofun nofun, by
        simp [turnsToAsk, stage, goOn, PagedWatcher.settle]⟩
    · rw [if_neg hcursor]
      exact ⟨.of_unopened nofun nofun nofun, by
        simp [turnsToAsk, stage, goOn, PagedWatcher.settle]⟩

theorem turnsToAsk_of_event {e : Errand} {event : StreamEvent} {stream : List StreamEvent}
    {w : PagedWatcher} (hlive : e.Live) (left : e.stream = event :: stream)
    (h : e.watcher.Stride e.watcher.quiet (some (.event event)) w) :
    (({ e with stream } : Errand).goOn w).Live ∧
      (({ e with stream } : Errand).goOn w).turnsToAsk < e.turnsToAsk := by
  have hstage := h.stage_of_event
  have hends := hlive.ends (Or.inl hstage)
  rw [left, List.any_cons] at hends
  have hbefore : e.turnsToAsk = 2 * stream.length + 4 := by
    rw [turnsToAsk, hstage, left, List.length_cons]
    rfl
  rw [hbefore]
  -- A stream that goes on has one event less and still ends; one that has ended leads to a list.
  cases h with
  | changed _ action object stage change =>
    have hlast : event.isLast = false := by
      cases event with
      | added | modified | deleted => rfl
      | bookmark | refused | failed | closed => cases change
    rw [hlast, Bool.false_or] at hends
    obtain ⟨cursor, hcursor⟩ := e.watcher.exists_advance (objectVersion object)
    have hphase : (e.watcher.deliver action object).phase ≠ .stopped := by
      simpa only [PagedWatcher.deliver, hcursor] using hlive.goes
    exact ⟨⟨hphase, fun _ => hends⟩, by simp [turnsToAsk, goOn, PagedWatcher.deliver]⟩
  | marked version stage =>
    obtain ⟨cursor, hcursor⟩ := e.watcher.exists_advance version
    rw [PagedWatcher.listen_quiet (by rw [hcursor]), hcursor]
    exact ⟨⟨hlive.goes, fun _ => hends⟩, by simp [turnsToAsk, goOn]⟩
  | ended _ stage last =>
    refine ⟨.of_unopened ?_ ?_ ?_, by
      simp [turnsToAsk, goOn, PagedWatcher.relist, PagedWatcher.settle]⟩
    · intro hphase
      cases hphase
    · intro hlistening
      cases hlistening
    · intro action object hdelivering
      cases hdelivering

theorem live_listen {w u : PagedWatcher} (e : Errand) (hphase : u.phase ≠ .stopped)
    (hseen : u.seen = w.seen) (hends : e.stream.any (·.isLast) = true) :
    (e.goOn (u.listen w.quiet)).Live := by
  rw [PagedWatcher.listen_quiet hseen]
  exact ⟨hphase, fun _ => hends⟩

/-- A `Stride` with a reply that `ends` keeps the watcher `Live`. -/
theorem live_of_reply {e : Errand} {reply : SourceReply} {source : SourceScript} {w : PagedWatcher}
    (hlive : e.Live) (hends : reply.ends = true)
    (h : e.watcher.Stride e.watcher.quiet (some reply.answer) w) :
    (({ e with source, stream := reply.events, count := e.count + 1 } : Errand).goOn w).Live := by
  cases reply with
  | page listed =>
    cases h with
    | unlisted token stage =>
      rw [PagedWatcher.rest_eq]
      exact .of_unopened nofun nofun nofun
    | paged token page stage =>
      exact (turnsToAsk_store _ (w := e.watcher)
        (u := { e.watcher with backoff := e.watcher.backoff.reset }) page page.items hlive.goes).1
  | stream opened =>
    cases opened with
    | none =>
      cases h with
      | unopened stage =>
        rw [PagedWatcher.rest_eq]
        exact .of_unopened nofun nofun nofun
    | some script =>
      cases h with
      | opened stage =>
        exact live_listen _ hlive.goes rfl hends

/-- A reply comes to a watcher that is `Poised`. -/
theorem poised_of_reply {e : Errand} {reply : SourceReply} {s : Signals} {w : PagedWatcher}
    (h : e.watcher.Stride s (some reply.answer) w) : e.Poised := by
  cases reply with
  | page listed =>
    cases h with
    | unlisted token stage => exact Or.inl ⟨token, stage⟩
    | paged token page stage => exact Or.inl ⟨token, stage⟩
  | stream opened =>
    cases opened with
    | none =>
      cases h with
      | unopened stage => exact Or.inr stage
    | some script =>
      cases h with
      | opened stage => exact Or.inr stage

/-- Until the watcher is `Poised`, every `Turn` keeps it `Live` and takes from `turnsToAsk`. -/
theorem turnsToAsk_of_turn {e e' : Errand} (hpaced : e.watcher.Paced) (hlive : e.Live)
    (hasks : ¬e.Poised) (hturn : Turn e e') :
    e'.Live ∧ e'.turnsToAsk < e.turnsToAsk ∧ e'.count = e.count := by
  cases hturn with
  | own own stride =>
    obtain ⟨hlive', hlt⟩ := turnsToAsk_of_own hpaced hlive own stride
    exact ⟨hlive', hlt, rfl⟩
  | event left stride =>
    obtain ⟨hlive', hlt⟩ := turnsToAsk_of_event hlive left stride
    exact ⟨hlive', hlt, rfl⟩
  | reply next stride => exact absurd (poised_of_reply stride) hasks
  | silent asks => exact absurd asks hasks
  | «open» waits left =>
    have hends := hlive.ends (Or.inl waits)
    rw [left] at hends
    cases hends

/-- A watcher that is `Live` comes to be `Poised` in some `run`, with no reply before that. -/
theorem exists_poised {source : SourceScript} {e : Errand} (h : Accounts source e)
    (hlive : e.Live) : ∃ n, (e.run n).Poised ∧ (e.run n).Live ∧ (e.run n).count = e.count := by
  -- Each turn that does not ask brings the watcher nearer to asking.
  induction hturns : e.turnsToAsk using Nat.strongRecOn generalizing e with
  | ind turns ih =>
    by_cases hasks : e.Poised
    · exact ⟨0, hasks, hlive, rfl⟩
    · obtain ⟨hlive', hlt, hcount⟩ := turnsToAsk_of_turn h.paced hlive hasks (turn_cases e)
      obtain ⟨n, hpoised, hgoes, hsame⟩ := ih _ (hturns ▸ hlt) (h.turn (turn_cases e)) hlive' rfl
      have hrun : e.turn.run n = e.run (1 + n) := run_add e 1 n
      rw [hrun] at hpoised hgoes hsame
      exact ⟨1 + n, hpoised, hgoes, hsame.trans hcount⟩

/-- The `turn` of a watcher that is `Poised` reads the reply that the source has. -/
theorem live_of_next? {e : Errand} {reply : SourceReply} {rest : SourceScript} (hlive : e.Live)
    (hpoised : e.Poised) (hnext : e.source.next? e.watcher.due = some (reply, rest))
    (hends : reply.ends = true) : e.turn.Live ∧ e.turn.count = e.count + 1 := by
  rw [turn_of_poised hpoised, ask, hnext]
  exact ⟨live_of_reply hlive hends (stride_of_next? hpoised hnext), rfl⟩

/-- Some `run` reads as many replies as `replies` has, if each of them `ends`. -/
theorem exists_count {source : SourceScript} {e : Errand} (h : Accounts source e) (hlive : e.Live)
    (hcount : e.count = 0) (k : Nat)
    (hends : ∀ reply ∈ source.replies k none, reply.ends = true) :
    ∃ n, (e.run n).Poised ∧ (e.run n).Live ∧
      (e.run n).count = (source.replies k none).length := by
  -- Each reply of the script is taken in turn: the watcher gets to ask, and is answered.
  induction k with
  | zero =>
    obtain ⟨n, hpoised, hgoes, hn⟩ := exists_poised h hlive
    exact ⟨n, hpoised, hgoes, hn.trans hcount⟩
  | succ k ih =>
    rcases source.replies_succ k none with hsame | ⟨hlength, reply, hreply⟩
    · rw [hsame] at hends ⊢
      exact ih hends
    · rw [hreply] at hends
      obtain ⟨n, hpoised, hgoes, hn⟩ := ih fun r hr => hends r (List.mem_append_left _ hr)
      have haccounts := h.run n
      -- The watcher asks for what the script has next.
      have hone : (e.run n).source.replies 1 (e.run n).watcher.due = [reply] := by
        have hsplit := haccounts.replies 1
        rw [hn, hlength, hreply] at hsplit
        exact (List.append_cancel_left hsplit).symm
      obtain ⟨rest, hnext⟩ : ∃ rest,
          (e.run n).source.next? (e.run n).watcher.due = some (reply, rest) := by
        cases hnext : (e.run n).source.next? (e.run n).watcher.due with
        | none =>
          rw [SourceScript.replies_of_silent hnext] at hone
          cases hone
        | some next =>
          rw [SourceScript.replies_succ_of_next? hnext] at hone
          obtain ⟨rfl, -⟩ := List.cons.inj hone
          exact ⟨next.2, rfl⟩
      -- Answered, it goes on until it asks again.
      obtain ⟨hgoes, hcount⟩ := live_of_next? hgoes hpoised hnext
        (hends reply (List.mem_append_right _ List.mem_cons_self))
      obtain ⟨m, hpoised, hgoes, hm⟩ := exists_poised (haccounts.turn (turn_cases _)) hgoes
      have hrun : (e.run n).turn.run m = e.run (n + 1 + m) := run_add e (n + 1) m
      rw [hrun] at hpoised hgoes hm
      refine ⟨n + 1 + m, hpoised, hgoes, ?_⟩
      rw [hm, hcount, hn, hreply, List.length_append, List.length_singleton]

/-- Some `run` reads as many replies as `replies` has and hands over their `changes`, if each of
them `ends`. -/
theorem exists_calls (pageSize : Nat) (backoff : Backoff) (seen : Option Nat)
    (source : SourceScript) (k : Nat) (hends : ∀ reply ∈ source.replies k none, reply.ends = true) :
    ∃ n, ((start pageSize backoff seen source).run n).count = (source.replies k none).length ∧
      ((start pageSize backoff seen source).run n).calls =
        (source.replies k none).flatMap (·.changes) := by
  have haccounts := accounts_start pageSize backoff seen source
  have hlive : (start pageSize backoff seen source).Live := .of_unopened nofun nofun nofun
  obtain ⟨n, hpoised, -, hn⟩ := exists_count haccounts hlive rfl k hends
  refine ⟨n, hn, ?_⟩
  have hcalls := (haccounts.run n).calls
  have hpending : ((start pageSize backoff seen source).run n).pending = [] := by
    rcases hpoised with ⟨token, hstage⟩ | hstage
    · rw [pending, hstage]
      rfl
    · rw [pending, hstage]
      rfl
  rwa [hpending, List.append_nil, hn, SourceScript.replies_length] at hcalls

/-- The `run` of a watcher that nobody signals hands over the objects of its source, each once, in
order and with its own action. After any number of turns `calls` has the `changes` of the replies
that have come, up to what is still `atHand` in the middle of a step, and no reply goes unread while
each of them `ends`. -/
theorem hands_over_source (pageSize : Nat) (backoff : Backoff) (seen : Option Nat)
    (source : SourceScript) :
    (∀ n, let e := (start pageSize backoff seen source).run n
      e.calls ++ e.pending = (source.replies e.count none).flatMap (·.changes) ∧
        (e.watcher.wait = none → e.pending = [])) ∧
    (∀ k, (∀ reply ∈ source.replies k none, reply.ends = true) →
      ∃ n, ((start pageSize backoff seen source).run n).count = (source.replies k none).length ∧
        ((start pageSize backoff seen source).run n).calls =
          (source.replies k none).flatMap (·.changes)) := by
  refine ⟨fun n => ⟨((accounts_start pageSize backoff seen source).run n).calls, fun hwait => ?_⟩,
    exists_calls pageSize backoff seen source⟩
  rw [pending, (PagedWatcher.stage_eq_idle_iff _).mp hwait]
  rfl

/-- A list that fails at its second page, a full one, a stream that fails to open, and one that
gives up between two changes. -/
def troubledSource : SourceScript :=
  { lists := [.plain (some ⟨[.bool true], "1", some "next"⟩), .plain none,
      .plain (some ⟨[.null], "2", none⟩)]
    watches := [.plain none, .plain (some ⟨[.plain (some (.modified .null)),
      .plain (some (.bookmark "3")), .plain (some (.refused 410 "gone")),
      .plain (some (.deleted .null))], true⟩)]
    laterList := none
    laterWatch := none
    isRemote := false }

theorem hands_over_source_troubled : ∃ n,
    ((start 1 (.new (.ofSeconds 1) (.ofSeconds 30)) none troubledSource).run n).calls =
      [(.create, .bool true), (.create, .null), (.update, .null)] := by
  obtain ⟨-, hreads⟩ :=
    hands_over_source 1 (.new (.ofSeconds 1) (.ofSeconds 30)) none troubledSource
  obtain ⟨n, -, hcalls⟩ := hreads 5 (by decide +kernel)
  exact ⟨n, hcalls.trans (by decide +kernel)⟩

end Errand
end InventorySync
