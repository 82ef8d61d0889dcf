import Mathlib.Logic.Relation
import Mathlib.Tactic.SplitIfs
import SealedLog.Ledger.Clock

/-!
# No event is lost unaccounted

Callers offer events to a publisher, and its task takes them one by one and hands them to a sink, in
any interleaving. What was offered is dropped, queued, pending or counted, and goes to the sink in
the order of the calls.

* `Channel`: a publisher with its clones, and what happened so far;
* `Conduct`, `Conduct.memory`: what a sink may do about an event;
* `Channel.Step`: what may happen next, as long as nobody ends the task;
* `Channel.Books`, `Channel.Books.step`: the invariant, and that every step keeps it;
* `Channel.conserves`: the accounts and the order, at every time;
* `Channel.Works`, `Works.progress`: the running task takes such steps.
-/

namespace SealedLog

/-- What a sink may do about an event: with which verdict, from one state to another. -/
abbrev Conduct := Sink → LedgerEvent → Verdict → Sink → Prop

/-- A sink in memory answers at once, or it leaves the event alone until the wait is over. -/
def Conduct.memory : Conduct := fun s event verdict s' =>
  s.answer event = some (verdict, s') ∨ verdict = .timedOut ∧ s' = s

/-- A sink in memory keeps the events that it accepts, in their order, and no others. -/
theorem Conduct.events_of_memory {s s' : Sink} {event : LedgerEvent} {verdict : Verdict}
    (h : memory s event verdict s') :
    s'.events = if verdict = .accepted then s.events ++ [event] else s.events := by
  obtain answered | ⟨rfl, rfl⟩ := h
  · unfold Sink.answer Sink.submit at answered
    split_ifs at answered
    · cases answered
      rfl
    · cases answered
      rfl
  · rfl

/-- A publisher with the number of its clones, and what happened so far. -/
structure Channel where
  publisher : Publisher
  clones : Nat := 1
  /-- The events that were offered, each with whether it was kept. -/
  calls : List (LedgerEvent × Bool) := []
  /-- The events that were handed to the sink. -/
  handed : List LedgerEvent := []
  /-- The events whose fate is known. -/
  verdicts : List (LedgerEvent × Verdict) := []

namespace Channel

/-- Whether the publisher keeps what it is offered: its task goes on, and there is room. -/
def keeps (c : Channel) : Bool :=
  !(c.publisher.ended || decide (c.publisher.room ≤ c.publisher.queue.length))

/-- The events that were offered and not dropped. -/
def kept (c : Channel) : List LedgerEvent := (c.calls.filter Prod.snd).map Prod.fst

/-- The events that the sink accepted. -/
def accepted (c : Channel) : List LedgerEvent :=
  (c.verdicts.filter fun v => v.2 == .accepted).map Prod.fst

/-- Somebody offers an event. -/
def call (c : Channel) (event : LedgerEvent) : Channel :=
  { c with publisher := c.publisher.offer event, calls := c.calls ++ [(event, c.keeps)] }

/-- The task takes an event and hands it to the sink. -/
def hand (c : Channel) (event : LedgerEvent) : Channel :=
  { c with publisher := c.publisher.receive, handed := c.handed ++ [event] }

/-- The fate of an event is known, and the sink has got into this state. -/
def judge (c : Channel) (event : LedgerEvent) (verdict : Verdict) (sink : Sink) : Channel :=
  { c with
    publisher := { c.publisher with sink := sink }.settle verdict
    verdicts := c.verdicts ++ [(event, verdict)] }

/-- What may happen next, in any order: a clone offers an event, is cloned or goes; the task takes
an event, learns the fate of one, or ends as nothing can come any more; time passes; and the sink is
switched to another behaviour. -/
inductive Step (conduct : Conduct) : Channel → Channel → Prop
  | call {c : Channel} (held : 0 < c.clones) (event : LedgerEvent) : Step conduct c (c.call event)
  | hand {c : Channel} {event : LedgerEvent} {rest : List LedgerEvent}
      (idle : c.publisher.pending = none) (next : c.publisher.queue = event :: rest) :
      Step conduct c (c.hand event)
  | judge {c : Channel} {pending : Pending} {verdict : Verdict} {sink : Sink}
      (waits : c.publisher.pending = some pending)
      (conducted : conduct c.publisher.sink pending.event verdict sink) :
      Step conduct c (c.judge pending.event verdict sink)
  | elapse {c : Channel} (time : Nat) :
      Step conduct c { c with publisher := c.publisher.elapse time }
  | switch {c : Channel} (isFailing isStalled : Bool) :
      Step conduct c { c with publisher := { c.publisher with
        sink := { c.publisher.sink with isFailing := isFailing, isStalled := isStalled } } }
  | clone {c : Channel} (held : 0 < c.clones) : Step conduct c { c with clones := c.clones + 1 }
  | drop {c : Channel} (held : 0 < c.clones) : Step conduct c { c with clones := c.clones - 1 }
  | finish {c : Channel} (released : c.clones = 0) (idle : c.publisher.isIdle = true) :
      Step conduct c { c with publisher := { c.publisher with ended := true } }

variable {conduct : Conduct} {config : PublisherConfig} {c c' : Channel}

theorem Step.mono {conduct' : Conduct} (sub : ∀ s e v s', conduct s e v s' → conduct' s e v s')
    (step : Step conduct c c') : Step conduct' c c' := by
  cases step with
  | call held event => exact .call held event
  | hand idle next => exact .hand idle next
  | judge waits conducted => exact .judge waits (sub _ _ _ _ conducted)
  | elapse time => exact .elapse time
  | switch isFailing isStalled => exact .switch isFailing isStalled
  | clone held => exact .clone held
  | drop held => exact .drop held
  | finish released idle => exact .finish released idle

/-! ### The books -/

/-- What has happened and what the publisher keeps and counts go together. -/
structure Books (config : PublisherConfig) (c : Channel) : Prop where
  configured : c.publisher.config = config
  room : c.publisher.queue.length ≤ max config.capacity 1
  /-- What was kept was handed to the sink or is queued. -/
  order : c.handed ++ c.publisher.queue = c.kept
  /-- What was handed to the sink has its verdict or is pending. -/
  judged : c.verdicts.map Prod.fst ++ c.publisher.pending.toList.map Pending.event = c.handed
  dropped : c.calls.length = c.kept.length + c.publisher.counts.dropped
  published : c.accepted.length = c.publisher.counts.published
  counted : c.verdicts.length = c.publisher.counts.published + c.publisher.counts.failed
  /-- The task ends only once all clones are gone and nothing is left to deal with. -/
  ended : c.publisher.ended = true → c.clones = 0 ∧ c.publisher.isIdle = true

theorem Books.start {canRun : Bool} {p : Publisher}
    (started : Publisher.start canRun config = .ok p) : Books config { publisher := p } := by
  unfold Publisher.start at started
  split_ifs at started
  cases started
  exact ⟨rfl, Nat.zero_le _, rfl, rfl, rfl, rfl, rfl, fun h => nomatch h⟩

/-! ### What the publisher does -/

section

variable {p : Publisher} {event : LedgerEvent}

theorem offer_of_room (live : p.ended = false) (room : p.queue.length < p.room)
    (event : LedgerEvent) : p.offer event = { p with queue := p.queue ++ [event] } := by
  unfold Publisher.offer
  rw [live, decide_eq_false (Nat.not_le.2 room)]
  rfl

theorem offer_of_full (full : p.room ≤ p.queue.length) (event : LedgerEvent) :
    p.offer event = { p with counts := { p.counts with dropped := p.counts.dropped + 1 } } := by
  unfold Publisher.offer
  rw [decide_eq_true full, Bool.or_true]
  rfl

theorem receive_of_cons {rest : List LedgerEvent} (idle : p.pending = none)
    (next : p.queue = event :: rest) :
    p.receive = { p with queue := rest, pending := some ⟨event, p.config.timeout⟩ } := by
  unfold Publisher.receive
  rw [idle, next]

theorem settle_of_some {pending : Pending} (waits : p.pending = some pending) (verdict : Verdict) :
    p.settle verdict = { p with pending := none, counts := p.counts.add verdict } := by
  unfold Publisher.settle
  rw [waits]

theorem isIdle_iff : p.isIdle = true ↔ p.queue = [] ∧ p.pending = none := by
  unfold Publisher.isIdle Publisher.outstanding
  cases p.pending <;> simp

end

/-! ### Steps -/

namespace Books

variable {event : LedgerEvent}

theorem room_eq (books : Books config c) : c.publisher.room = max config.capacity 1 := by
  rw [Publisher.room, books.configured]

theorem live (books : Books config c) (held : 0 < c.clones) : c.publisher.ended = false := by
  cases h : c.publisher.ended with
  | false => rfl
  | true => exact absurd (books.ended h).1 (Nat.ne_of_gt held)

/-- As long as there is a clone, an event is dropped just when the queue is full. -/
theorem keeps_eq (books : Books config c) (held : 0 < c.clones) :
    c.keeps = decide (c.publisher.queue.length < c.publisher.room) := by
  rw [keeps, books.live held, Bool.false_or, ← decide_not]
  exact decide_eq_decide.2 Nat.not_le

theorem call_of_room (books : Books config c) (held : 0 < c.clones)
    (room : c.publisher.queue.length < c.publisher.room) :
    c.call event = { c with
      publisher := { c.publisher with queue := c.publisher.queue ++ [event] }
      calls := c.calls ++ [(event, true)] } := by
  unfold Channel.call
  rw [books.keeps_eq held, decide_eq_true room, offer_of_room (books.live held) room]

theorem call_of_full (books : Books config c) (held : 0 < c.clones)
    (full : ¬ c.publisher.queue.length < c.publisher.room) :
    c.call event = { c with
      publisher := { c.publisher with
        counts := { c.publisher.counts with dropped := c.publisher.counts.dropped + 1 } }
      calls := c.calls ++ [(event, false)] } := by
  unfold Channel.call
  rw [books.keeps_eq held, decide_eq_false full, offer_of_full (Nat.not_lt.1 full)]

theorem call (books : Books config c) (held : 0 < c.clones) (event : LedgerEvent) :
    Books config (c.call event) := by
  have live := books.live held
  have dropped := books.dropped
  by_cases room : c.publisher.queue.length < c.publisher.room
  · rw [books.call_of_room held room]
    rw [books.room_eq] at room
    refine { books with room := ?_, order := ?_, dropped := ?_, ended := ?_ }
    · rw [List.length_append]
      exact room
    · rw [← List.append_assoc, books.order]
      simp [kept]
    · simp [kept] at dropped ⊢
      omega
    · simp [live]
  · rw [books.call_of_full held room]
    refine { books with order := ?_, dropped := ?_, ended := ?_ }
    · simpa [kept] using books.order
    · simp [kept] at dropped ⊢
      omega
    · simp [live]

theorem hand {rest : List LedgerEvent} (books : Books config c)
    (idle : c.publisher.pending = none) (next : c.publisher.queue = event :: rest) :
    Books config (c.hand event) := by
  have room := books.room
  have order := books.order
  have judged := books.judged
  rw [next] at room order
  rw [idle] at judged
  unfold Channel.hand
  rw [receive_of_cons idle next]
  refine { books with room := ?_, order := ?_, judged := ?_, ended := ?_ }
  · exact Nat.le_of_succ_le room
  · simpa [kept] using order
  · simpa using judged
  · intro ended
    -- a task that has ended has no queue to take from
    have empty := (isIdle_iff.1 (books.ended ended).2).1
    rw [next] at empty
    cases empty

theorem judge {pending : Pending} (books : Books config c)
    (waits : c.publisher.pending = some pending) (verdict : Verdict) (sink : Sink) :
    Books config (c.judge pending.event verdict sink) := by
  have judged := books.judged
  have published := books.published
  have counted := books.counted
  rw [waits] at judged
  unfold Channel.judge
  rw [settle_of_some (p := { c.publisher with sink := sink }) waits]
  refine { books with judged := ?_, dropped := ?_, published := ?_, counted := ?_, ended := ?_ }
  · simpa using judged
  · cases verdict <;> exact books.dropped
  · cases verdict <;> simpa [accepted, PublisherCounts.add] using published
  · cases verdict <;> simp [PublisherCounts.add, counted] <;> omega
  · intro ended
    have none := (isIdle_iff.1 (books.ended ended).2).2
    rw [waits] at none
    cases none

theorem elapse (books : Books config c) (time : Nat) :
    Books config { c with publisher := c.publisher.elapse time } := by
  refine { books with judged := ?_, ended := ?_ }
  · rw [← books.judged]
    cases waits : c.publisher.pending <;> simp [Publisher.elapse, waits]
  · intro ended
    obtain ⟨released, idle⟩ := books.ended ended
    obtain ⟨empty, unused⟩ := isIdle_iff.1 idle
    have stillUnused : (c.publisher.elapse time).pending = none := by
      simp [Publisher.elapse, unused]
    exact ⟨released, isIdle_iff.2 ⟨empty, stillUnused⟩⟩

/-- Every step keeps the books. -/
theorem step (books : Books config c) (step : Step conduct c c') : Books config c' := by
  cases step with
  | call held event => exact books.call held event
  | hand idle next => exact books.hand idle next
  | judge waits _ => exact books.judge waits _ _
  | elapse time => exact books.elapse time
  | switch => exact { books with }
  | clone held =>
    refine { books with ended := fun ended => ?_ }
    exact absurd (books.ended ended).1 (Nat.ne_of_gt held)
  | drop held =>
    refine { books with ended := fun ended => ?_ }
    exact absurd (books.ended ended).1 (Nat.ne_of_gt held)
  | finish released idle => exact { books with ended := fun _ => ⟨released, idle⟩ }

/-- So does every run. -/
theorem run (books : Books config c) (run : Relation.ReflTransGen (Step conduct) c c') :
    Books config c' := by
  induction run with
  | refl => exact books
  | tail _ step ih => exact ih.step step

end Books

/-- What a run leaves: how the counts, the queue and the pending event add up to the calls, when
events are dropped, and in which order the sink gets them. -/
structure Balances (config : PublisherConfig) (c : Channel) : Prop where
  calls : c.calls.length = c.publisher.counts.published + c.publisher.counts.failed +
    c.publisher.counts.dropped + c.publisher.queue.length + c.publisher.pending.toList.length
  /-- At most one event is received and not yet counted. -/
  pending : c.publisher.pending.toList.length ≤ 1
  room : c.publisher.queue.length ≤ max config.capacity 1
  /-- A call is dropped just when the queue is full, and is then counted. -/
  drops : 0 < c.clones → ∀ event,
    (c.keeps = false ↔ c.publisher.queue.length = max config.capacity 1) ∧
      (c.publisher.offer event).counts.dropped =
        c.publisher.counts.dropped + if c.keeps then 0 else 1
  /-- The sink gets the events that were not dropped, in the order of the calls, less the queued. -/
  order : c.handed ++ c.publisher.queue = c.kept
  final : c.clones = 0 → c.publisher.ended = true →
    c.publisher.counts.published + c.publisher.counts.failed + c.publisher.counts.dropped =
      c.calls.length

theorem Books.balances (books : Books config c) : Balances config c := by
  have dropped := books.dropped
  have counted := books.counted
  have order := congrArg List.length books.order
  have judged := congrArg List.length books.judged
  simp only [List.length_append, List.length_map] at order judged
  have calls : c.calls.length = c.publisher.counts.published + c.publisher.counts.failed +
      c.publisher.counts.dropped + c.publisher.queue.length +
      c.publisher.pending.toList.length := by omega
  refine ⟨calls, ?_, books.room, fun held event => ?_, books.order, fun _ ended => ?_⟩
  · cases c.publisher.pending <;> simp
  · have room := books.room
    refine ⟨?_, ?_⟩
    · rw [books.keeps_eq held, books.room_eq, decide_eq_false_iff_not]
      omega
    · rw [Publisher.offer, keeps]
      cases c.publisher.ended || decide (c.publisher.room ≤ c.publisher.queue.length) <;> rfl
  · obtain ⟨empty, none⟩ := isIdle_iff.1 (books.ended ended).2
    rw [calls, empty, none]
    rfl

/-! ### Sinks in memory -/

/-- What a sink in memory keeps is what it has accepted. -/
theorem Step.events (step : Step Conduct.memory c c')
    (events : c.publisher.sink.events = c.accepted) :
    c'.publisher.sink.events = c'.accepted := by
  cases step with
  | call held event =>
    unfold Channel.call Publisher.offer
    split_ifs <;> exact events
  | hand idle next =>
    unfold Channel.hand
    rw [receive_of_cons idle next]
    exact events
  | @judge pending verdict sink waits conducted =>
    unfold Channel.judge
    rw [settle_of_some (p := { c.publisher with sink := sink }) waits]
    show sink.events = _
    rw [Conduct.events_of_memory conducted, events]
    cases verdict <;> simp [accepted]
  | elapse | switch | clone | drop | finish => exact events

/-- What the sink accepted was offered, in that order. -/
theorem Books.accepted_sublist (books : Books config c) :
    c.accepted.Sublist (c.calls.map Prod.fst) := by
  have ofVerdicts : c.accepted.Sublist (c.verdicts.map Prod.fst) := List.filter_sublist.map _
  have ofHanded : (c.verdicts.map Prod.fst).Sublist c.handed := by
    rw [← books.judged]
    exact List.sublist_append_left ..
  have ofKept : c.handed.Sublist c.kept := by
    rw [← books.order]
    exact List.sublist_append_left ..
  have ofCalls : c.kept.Sublist (c.calls.map Prod.fst) := List.filter_sublist.map _
  exact ofVerdicts.trans (ofHanded.trans (ofKept.trans ofCalls))

/-- **No event is lost unaccounted**, whatever the capacity, the sink and the interleaving of calls
with the task: the accounts balance at every time. And a sink in memory keeps the events that are
counted as published, in the order of the calls. -/
theorem conserves {canRun : Bool} {p : Publisher}
    (started : Publisher.start canRun config = .ok p)
    (run : Relation.ReflTransGen (Step conduct) { publisher := p } c) :
    Balances config c ∧ ((∀ s e v s', conduct s e v s' → Conduct.memory s e v s') →
      c.publisher.sink.events = c.accepted ∧
      c.accepted.length = c.publisher.counts.published ∧
      c.accepted.Sublist (c.calls.map Prod.fst)) := by
  have books := (Books.start started).run run
  refine ⟨books.balances, fun memory => ⟨?_, books.published, books.accepted_sublist⟩⟩
  have empty : p.sink.events = [] := by
    unfold Publisher.start at started
    split_ifs at started
    cases started
    rfl
  clear books started
  induction run with
  | refl => exact empty
  | tail _ step ih => exact (step.mono memory).events ih

/-- A publisher that queues one event is offered two; the sink accepts the one that was kept, the
only clone goes, and the task ends. -/
theorem conserves_of_full_queue :
    let config : PublisherConfig := { capacity := 0 }
    let event (time : Int64) : LedgerEvent :=
      .checkpoint ⟨default, Nonce.fill 1, ⟨"trades", time, [1, 2]⟩⟩
    let c₀ : Channel := { publisher := { config := config } }
    let c₁ := ((c₀.call (event 1)).call (event 2)).hand (event 1)
    let c₂ := c₁.judge (event 1) .accepted { events := [event 1] }
    let c₃ := { c₂ with clones := 0, publisher := { c₂.publisher with ended := true } }
    Publisher.start true config = .ok c₀.publisher ∧
      Relation.ReflTransGen (Step Conduct.memory) c₀ c₃ ∧
      c₃.calls = [(event 1, true), (event 2, false)] ∧ c₃.accepted = [event 1] ∧
      Balances config c₃ ∧ c₃.publisher.sink.events = c₃.accepted ∧
      c₃.accepted.length = c₃.publisher.counts.published := by
  intro config event c₀ c₁ c₂ c₃
  have started : Publisher.start true config = .ok c₀.publisher := rfl
  have offered : Relation.ReflTransGen (Step Conduct.memory) c₀ c₁ :=
    ((Relation.ReflTransGen.refl.tail (.call Nat.one_pos (event 1))).tail
      (.call Nat.one_pos (event 2))).tail (.hand rfl rfl)
  have run : Relation.ReflTransGen (Step Conduct.memory) c₀ c₃ :=
    ((offered.tail (.judge rfl (.inl rfl))).tail (.drop Nat.one_pos)).tail (.finish rfl rfl)
  obtain ⟨balances, memory⟩ := conserves started run
  obtain ⟨events, published, -⟩ := memory fun _ _ _ _ h => h
  exact ⟨started, run, rfl, rfl, balances, events, published⟩

/-! ### The running tasks -/

/-- The task and its sink in memory get a publisher from one state to another by such steps, with
nobody offering an event. -/
def Works (p p' : Publisher) : Prop :=
  ∀ c : Channel, c.publisher = p → ∃ c', Relation.ReflTransGen (Step Conduct.memory) c c' ∧
    c'.publisher = p' ∧ c'.clones = c.clones ∧ c'.calls = c.calls

namespace Works

variable {p p' p'' : Publisher}

theorem refl (p : Publisher) : Works p p := fun c same => ⟨c, .refl, same, rfl, rfl⟩

theorem trans (first : Works p p') (second : Works p' p'') : Works p p'' := by
  intro c same
  obtain ⟨c', run, same', clones, calls⟩ := first c same
  obtain ⟨c'', run', same'', clones', calls'⟩ := second c' same'
  exact ⟨c'', run.trans run', same'', clones'.trans clones, calls'.trans calls⟩

theorem elapse (p : Publisher) (time : Nat) : Works p (p.elapse time) := by
  rintro c rfl
  exact ⟨_, .single (.elapse time), rfl, rfl, rfl⟩

theorem settle {pending : Pending} {verdict : Verdict} {sink : Sink}
    (waits : p.pending = some pending)
    (conducted : Conduct.memory p.sink pending.event verdict sink) :
    Works p ({ p with sink := sink }.settle verdict) := by
  rintro c rfl
  exact ⟨_, .single (.judge waits conducted), rfl, rfl, rfl⟩

theorem receive {event : LedgerEvent} {rest : List LedgerEvent} (idle : p.pending = none)
    (next : p.queue = event :: rest) : Works p p.receive := by
  rintro c rfl
  exact ⟨_, .single (.hand idle next), rfl, rfl, rfl⟩

theorem expire (p : Publisher) : Works p p.expire := by
  unfold Publisher.expire
  split
  · rename_i waits
    exact settle waits (.inr ⟨rfl, rfl⟩)
  · exact refl p

theorem handNext (p : Publisher) : Works p p.handNext := by
  unfold Publisher.handNext
  cases idle : p.pending with
  | some _ => exact refl p
  | none =>
    cases next : p.queue with
    | nil =>
      have nothing : p.receive = p := by
        unfold Publisher.receive
        rw [idle, next]
      dsimp only
      rw [nothing, idle]
      exact refl p
    | cons event rest =>
      have taken := receive idle next
      have received := receive_of_cons idle next
      dsimp only
      split
      · rename_i verdict sink answered
        rw [received] at taken answered ⊢
        exact taken.trans (settle rfl (.inl answered))
      · exact taken

theorem proceed (n : Nat) (p : Publisher) : Works p (p.proceed n) := by
  induction n generalizing p with
  | zero => exact expire p
  | succ n ih => exact (expire p).trans ((handNext p.expire).trans (ih p.expire.handNext))

theorem progress (p : Publisher) : Works p p.progress := proceed p.queue.length p

end Works

/-- Each of some tasks that share a clock gets from one state to another by such steps. -/
def WorkTogether (ps ps' : Publishers) : Prop := ∀ key, Works (ps.taskAt key) (ps'.taskAt key)

namespace WorkTogether

variable {ps ps' ps'' : Publishers}

theorem refl (ps : Publishers) : WorkTogether ps ps := fun key => .refl (ps.taskAt key)

theorem trans (first : WorkTogether ps ps') (second : WorkTogether ps' ps'') :
    WorkTogether ps ps'' := fun key => (first key).trans (second key)

theorem map {f : Publisher → Publisher} (nobody : f {} = {}) (works : ∀ p, Works p (f p))
    (ps : Publishers) : WorkTogether ps (ps.map f) := by
  intro key
  have same : Publishers.taskAt (ps.map f) key = f (ps.taskAt key) := by
    unfold Publishers.taskAt
    rw [List.getD_eq_getElem?_getD, List.getD_eq_getElem?_getD, List.getElem?_map]
    cases ps[key]? with
    | none => exact nobody.symm
    | some p => rfl
  rw [same]
  exact works (ps.taskAt key)

theorem progress (ps : Publishers) : WorkTogether ps ps.progress := map rfl .progress ps

theorem elapse (ps : Publishers) (time : Nat) : WorkTogether ps (ps.elapse time) :=
  map rfl (.elapse · time) ps

theorem drainFor (key n : Nat) (ps : Publishers) :
    WorkTogether ps (Publishers.drainFor key n ps) := by
  induction n generalizing ps with
  | zero => exact refl ps
  | succ n ih =>
    unfold Publishers.drainFor
    split_ifs
    · exact refl ps
    · cases ps.due? with
      | none => exact refl ps
      | some wait => exact (elapse ps wait).trans ((progress _).trans (ih _))

theorem joinFor (key : Nat) (mayEnd : Bool) (n left : Nat) (ps : Publishers) :
    WorkTogether ps (Publishers.joinFor key mayEnd n left ps) := by
  induction n generalizing left ps with
  | zero => exact refl ps
  | succ n ih =>
    unfold Publishers.joinFor
    split_ifs
    · exact refl ps
    · cases ps.due? with
      | none => exact refl ps
      | some wait =>
        dsimp only
        split_ifs
        · exact (elapse ps wait).trans ((progress _).trans (ih _ _))
        · exact elapse ps left

/-- Waiting for a task lets all tasks take such steps, and nothing else. -/
theorem drain (ps : Publishers) (key : Nat) : WorkTogether ps (ps.drain key) :=
  (progress ps).trans (drainFor key _ ps.progress)

theorem join (ps : Publishers) (key : Nat) (mayEnd : Bool) :
    WorkTogether ps (ps.join key mayEnd) := by
  unfold Publishers.join
  split_ifs
  · exact refl ps
  · exact (progress ps).trans (joinFor key mayEnd _ _ ps.progress)

end WorkTogether

end Channel

end SealedLog
