import Relay.Proofs.Execution.Pool
import Relay.Proofs.Simulation.Arrival

/-! # Workers that share the nodes

In a running simulation there is a worker for each root request, one for each invocation that a
message makes a node run, and one for each task. All their stores lie in one memory. A schedule says
whose turn it is, and every act of a plan is a turn. A worker whose request makes a node run actions
waits until the worker of the invocation has ended or its own patience is over. A script is one act:
the store is its own as long as it runs, and what it sends makes no node run anything,
`arrival_plain`. What is logged, and which tasks a node still has, are not kept, for no worker ever
looks at them.

Each worker works on a store of its own, so it leaves the others alone, `view?_act_other`. What it
will come to does not depend on the schedule, `ComesTo.play`.
-/

namespace Relay

/-- What a worker is doing. -/
inductive Work where
  | acting (plan : Plan)
  /-- A message has led to an invocation, whose worker has to end first. -/
  | waiting (server : Nat) (message : HttpRequest) (rest : Except DispatchError Json → Plan)

/-- How a worker ended, if it has. -/
def Work.result? : Work → Option (Except ExecutionError Flow)
  | acting plan => plan.result?
  | waiting _ _ _ => none

/-- What carries out a plan at a site. -/
structure Worker where
  site : Site
  work : Work
  /-- The place of its store in the memory. -/
  cell : Nat
  now : Nat := 0

/-- Workers, numbered in the order in which they started. -/
structure Crew where
  memory : Nat → Store
  workers : List Worker

/-- A worker with the store that it works on. -/
structure Scene where
  site : Site
  work : Work
  store : Store
  now : Nat

/-- What a turn of a worker leads to. -/
structure Move where
  work : Work
  store : Store
  now : Nat
  /-- The site, the plan and the store of a worker that is started. -/
  started : Option (Site × Plan × Store) := none

namespace Crew

/-- A worker of the crew with its store. -/
def scene (c : Crew) (w : Worker) : Scene :=
  ⟨w.site, w.work, c.memory w.cell, w.now⟩

/-- The worker of a number with its store. -/
def view? (c : Crew) (k : Nat) : Option Scene :=
  c.workers[k]?.map c.scene

/-- How a worker ended, if it has. -/
def result? (c : Crew) (k : Nat) : Option (Except ExecutionError Flow) :=
  (c.view? k).bind fun scene => scene.work.result?

end Crew

namespace Scene

variable (sim : Simulation) (routing : Routing)

/-- Go on after a reply to a request. -/
def heard (scene : Scene) (rest : Except DispatchError Json → Plan)
    (reply : Reply (Except DispatchError Json)) : Move where
  work := .acting (rest reply.result)
  store := scene.store
  now := scene.now + reply.effects.elapsed

/-- The next act of a plan. A worker that is started gets the next number. -/
def act? (scene : Scene) (next : Nat) : Plan → Option Move
  | .done _ => none
  | .fail _ => none
  | .note _ rest => some ⟨.acting rest, scene.store, scene.now, none⟩
  | .pass ms rest => some ⟨.acting rest, scene.store, scene.now + ms, none⟩
  | .look rest => some ⟨.acting (rest scene.store), scene.store, scene.now, none⟩
  | .keep key value rest => some ⟨.acting rest, scene.store.insert key value, scene.now, none⟩
  | .script source rest =>
    let ended := (sim.interpreter routing scene.site).scripts source scene.store
    some ⟨.acting (rest ended.result), ended.store, scene.now + ended.elapsed, none⟩
  | .send request rest =>
    match sim.link routing scene.site request with
    | .answered reply => some (scene.heard rest reply)
    | .running message there actions =>
      some ⟨.waiting next message rest, scene.store, scene.now,
        some (there, Plan.whole there.executor actions, Dict.empty)⟩
  | .launch _ _ once rest =>
    some ⟨.acting rest, scene.store, scene.now, some (scene.site, once, scene.store)⟩

/-- The next turn of a worker, unless it has ended or has to wait. -/
def move? (scene : Scene) (c : Crew) : Option Move :=
  match scene.work with
  | .acting plan => scene.act? sim routing c.workers.length plan
  | .waiting server message rest =>
    let sender := sim.sender routing scene.site
    match c.view? server with
    | none => none
    | some there =>
      let elapsed := there.now - scene.now
      match there.work.result? with
      | some result => some (scene.heard rest (sender.heed message (result, elapsed)))
      | none =>
        if sender.patienceMs < elapsed then some (scene.heard rest sender.giveUp) else none

end Scene

namespace Crew

/-- The crew after a turn of a worker. -/
def settle (c : Crew) (k : Nat) (w : Worker) (move : Move) : Crew :=
  let memory := Function.update c.memory w.cell move.store
  let workers := c.workers.set k { w with work := move.work, now := move.now }
  match move.started with
  | none => { memory, workers }
  | some (site, plan, store) =>
    { memory := Function.update memory c.workers.length store
      workers := workers ++ [⟨site, .acting plan, c.workers.length, w.now⟩] }

/-- A turn of a worker. One that has ended, has to wait or does not exist does nothing. -/
def act (sim : Simulation) (routing : Routing) (k : Nat) (c : Crew) : Crew :=
  match c.workers[k]? with
  | none => c
  | some w =>
    match (c.scene w).move? sim routing c with
    | none => c
    | some move => c.settle k w move

/-- Let workers take turns. -/
def play (sim : Simulation) (routing : Routing) : List Nat → Crew → Crew
  | [], c => c
  | k :: schedule, c => play sim routing schedule (act sim routing k c)

theorem play_append (sim : Simulation) (routing : Routing) (first second : List Nat) (c : Crew) :
    c.play sim routing (first ++ second) =
      (c.play sim routing first).play sim routing second := by
  induction first generalizing c with
  | nil => rfl
  | cons k first ih => exact ih (c.act sim routing k)

/-- Every worker works on the store of its own number. -/
def Apart (c : Crew) : Prop :=
  ∀ k (w : Worker), c.workers[k]? = some w → w.cell = k

/-! ## A turn -/

variable {sim : Simulation} {routing : Routing} {c : Crew}

theorem lt_of_getElem? {k : Nat} {w : Worker} (found : c.workers[k]? = some w) :
    k < c.workers.length :=
  (List.getElem?_eq_some_iff.1 found).1

theorem lt_of_view? {k : Nat} {scene : Scene} (here : c.view? k = some scene) :
    k < c.workers.length := by
  obtain ⟨w, found, -⟩ := Option.map_eq_some_iff.1 here
  exact lt_of_getElem? found

section Settle

variable {k : Nat} {w : Worker} (move : Move)

theorem length_settle :
    (c.settle k w move).workers.length = c.workers.length + move.started.toList.length := by
  unfold settle
  split <;> rename_i started <;> simp [started]

/-- Starting a worker changes nothing about those that were there. -/
theorem settle_old {j : Nat} (old : j < c.workers.length) :
    (c.settle k w move).workers[j]? =
        (c.workers.set k { w with work := move.work, now := move.now })[j]? ∧
      (c.settle k w move).memory j = Function.update c.memory w.cell move.store j := by
  unfold settle
  split
  · exact ⟨rfl, rfl⟩
  · exact ⟨List.getElem?_append_left (by rw [List.length_set]; exact old),
      Function.update_of_ne (Nat.ne_of_lt old) _ _⟩

theorem settle_new {site : Site} {plan : Plan} {store : Store}
    (started : move.started = some (site, plan, store)) :
    (c.settle k w move).workers[c.workers.length]? =
        some ⟨site, .acting plan, c.workers.length, w.now⟩ ∧
      (c.settle k w move).memory c.workers.length = store := by
  simp only [settle, started]
  refine ⟨?_, Function.update_self _ _ _⟩
  rw [List.getElem?_append_right (Nat.le_of_eq List.length_set), List.length_set, Nat.sub_self]
  rfl

variable (apart : c.Apart) (found : c.workers[k]? = some w)

include apart found

theorem view?_settle_self :
    (c.settle k w move).view? k = some ⟨w.site, move.work, move.store, move.now⟩ := by
  have room := lt_of_getElem? found
  obtain ⟨worker, memory⟩ := settle_old (k := k) (w := w) move room
  rw [List.getElem?_set_self room] at worker
  rw [apart k w found, Function.update_self] at memory
  simp only [view?, worker, Option.map_some, scene, apart k w found, memory]

theorem view?_settle_other {j : Nat} (other : j ≠ k) (old : j < c.workers.length) :
    (c.settle k w move).view? j = c.view? j := by
  obtain ⟨worker, memory⟩ := settle_old (k := k) (w := w) move old
  rw [List.getElem?_set_ne other.symm] at worker
  rw [apart k w found, Function.update_of_ne other] at memory
  rw [view?, view?, worker]
  cases there : c.workers[j]? with
  | none => rfl
  | some w' => simp only [Option.map_some, scene, apart j w' there, memory]

omit apart found in
theorem view?_settle_new {site : Site} {plan : Plan} {store : Store}
    (started : move.started = some (site, plan, store)) :
    (c.settle k w move).view? c.workers.length = some ⟨site, .acting plan, store, w.now⟩ := by
  obtain ⟨worker, memory⟩ := settle_new (k := k) (w := w) (c := c) move started
  simp only [view?, worker, Option.map_some, scene, memory]

theorem Apart.settle : (c.settle k w move).Apart := by
  intro j w' here
  by_cases old : j < c.workers.length
  · rw [(settle_old move old).1] at here
    by_cases same : j = k
    · subst same
      rw [List.getElem?_set_self old] at here
      cases here
      exact apart j w found
    · rw [List.getElem?_set_ne (Ne.symm same)] at here
      exact apart j w' here
  · have room := lt_of_getElem? here
    rw [length_settle] at room
    cases started : move.started with
    | none =>
      rw [started] at room
      exact absurd room old
    | some new =>
      rw [started, Option.toList_some, List.length_singleton] at room
      obtain rfl : j = c.workers.length := by omega
      rw [(settle_new move started).1] at here
      cases here
      rfl

end Settle

/-- Either a worker does nothing, or it takes its turn. -/
theorem act_cases (k : Nat) (c : Crew) :
    c.act sim routing k = c ∨ ∃ w move, c.workers[k]? = some w ∧
      (c.scene w).move? sim routing c = some move ∧ c.act sim routing k = c.settle k w move := by
  cases found : c.workers[k]? with
  | none => exact .inl (by simp only [act, found])
  | some w =>
    cases moved : (c.scene w).move? sim routing c with
    | none => exact .inl (by simp only [act, found, moved])
    | some move => exact .inr ⟨w, move, rfl, moved, by simp only [act, found, moved]⟩

theorem length_le_act (k : Nat) : c.workers.length ≤ (c.act sim routing k).workers.length := by
  rcases act_cases k c with idle | ⟨w, move, -, -, acted⟩
  · exact Nat.le_of_eq (congrArg (·.workers.length) idle.symm)
  · rw [acted, length_settle]
    exact Nat.le_add_right _ _

theorem Apart.act (apart : c.Apart) (k : Nat) : (c.act sim routing k).Apart := by
  rcases act_cases k c with idle | ⟨w, move, found, -, acted⟩
  · rw [idle]
    exact apart
  · rw [acted]
    exact apart.settle move found

section Self

variable {k : Nat} {scene : Scene} {move : Move} (here : c.view? k = some scene)
  (moved : scene.move? sim routing c = some move)

include here moved

private theorem act_eq_settle : ∃ w, c.workers[k]? = some w ∧ c.scene w = scene ∧
    c.act sim routing k = c.settle k w move := by
  obtain ⟨w, found, rfl⟩ := Option.map_eq_some_iff.1 here
  exact ⟨w, found, rfl, by simp only [act, found, moved]⟩

/-- A worker goes on as its turn leads to. -/
theorem view?_act_self (apart : c.Apart) :
    (c.act sim routing k).view? k = some ⟨scene.site, move.work, move.store, move.now⟩ := by
  obtain ⟨w, found, rfl, acted⟩ := act_eq_settle here moved
  rw [acted]
  exact view?_settle_self move apart found

/-- A worker that is started has the present for its beginning. -/
theorem view?_act_new {site : Site} {plan : Plan} {store : Store}
    (started : move.started = some (site, plan, store)) :
    (c.act sim routing k).view? c.workers.length =
      some ⟨site, .acting plan, store, scene.now⟩ := by
  obtain ⟨w, -, rfl, acted⟩ := act_eq_settle here moved
  rw [acted]
  exact view?_settle_new move started

end Self

/-- A worker leaves the others alone. -/
theorem view?_act_other (apart : c.Apart) {j k : Nat} (other : j ≠ k)
    (old : j < c.workers.length) : (c.act sim routing k).view? j = c.view? j := by
  rcases act_cases k c with idle | ⟨w, move, found, -, acted⟩
  · rw [idle]
  · rw [acted]
    exact view?_settle_other move apart found other old

theorem Apart.play (apart : c.Apart) (schedule : List Nat) :
    (c.play sim routing schedule).Apart := by
  induction schedule generalizing c with
  | nil => exact apart
  | cons k schedule ih => exact ih (apart.act k)

/-- A worker that gets no turn stays as it is. -/
theorem view?_play_other (apart : c.Apart) {j : Nat} (old : j < c.workers.length)
    {schedule : List Nat} (others : j ∉ schedule) :
    (c.play sim routing schedule).view? j = c.view? j := by
  induction schedule generalizing c with
  | nil => rfl
  | cons k schedule ih =>
    obtain ⟨other, later⟩ := not_or.1 (mt List.mem_cons.2 others)
    rw [Crew.play, ih (apart.act k) (Nat.lt_of_lt_of_le old (length_le_act k)) later,
      view?_act_other apart other old]

/-! ## What a worker comes to -/

/-- How and when a worker will end: it carries out its plan, after the worker that it waits for has
ended in its own way. -/
inductive ComesTo (sim : Simulation) (routing : Routing) (c : Crew) :
    Nat → Except ExecutionError Flow × Nat → Prop where
  | acting {k : Nat} {site : Site} {plan : Plan} {store : Store} {now : Nat}
      (here : c.view? k = some ⟨site, .acting plan, store, now⟩) :
      ComesTo sim routing c k (plan.finish (sim.interpreter routing site) store now)
  | waiting {k server : Nat} {site : Site} {message : HttpRequest}
      {rest : Except DispatchError Json → Plan} {store : Store} {now : Nat}
      {ended : Except ExecutionError Flow × Nat}
      {reply : Reply (Except DispatchError Json)}
      (here : c.view? k = some ⟨site, .waiting server message rest, store, now⟩)
      (later : k < server) (served : ComesTo sim routing c server ended)
      (heeded : reply = (sim.sender routing site).heed message (ended.1, ended.2 - now)) :
      ComesTo sim routing c k ((rest reply.result).finish (sim.interpreter routing site) store
        (now + reply.effects.elapsed))

namespace ComesTo

variable {k : Nat} {scene : Scene} {ended : Except ExecutionError Flow × Nat}

/-- No worker ends before the present. -/
theorem le (comes : ComesTo sim routing c k ended) (here : c.view? k = some scene) :
    scene.now ≤ ended.2 := by
  cases comes with
  | acting there =>
    rw [here] at there
    cases there
    exact Plan.le_finish _ _ _ _
  | waiting there _ _ _ =>
    rw [here] at there
    cases there
    exact Nat.le_trans (Nat.le_add_right _ _) (Plan.le_finish _ _ _ _)

/-- A worker that has ended came to what it was to come to. -/
theorem of_result? (comes : ComesTo sim routing c k ended) (here : c.view? k = some scene)
    {result : Except ExecutionError Flow} (last : scene.work.result? = some result) :
    ended = (result, scene.now) := by
  cases comes with
  | @acting _ site plan _ _ there =>
    rw [here] at there
    cases there
    cases plan <;> cases last <;> rfl
  | waiting there _ _ _ =>
    rw [here] at there
    cases there
    cases last

section Act

variable {w : Worker} {move : Move} (apart : c.Apart) (found : c.workers[k]? = some w)

include apart found

/-- A worker that goes on with a plan comes to what the plan comes to. -/
theorem of_move {rest : Plan} (goesOn : move.work = .acting rest)
    (same : ended = rest.finish (sim.interpreter routing w.site) move.store move.now) :
    ComesTo sim routing (c.settle k w move) k ended := by
  have after := view?_settle_self move apart found
  rw [goesOn] at after
  exact same ▸ .acting after

/-- A worker that carries out a plan comes to the same after its next act. -/
theorem of_act? {plan : Plan}
    (moved : (c.scene w).act? sim routing c.workers.length plan = some move) :
    ComesTo sim routing (c.settle k w move) k
      (plan.finish (sim.interpreter routing w.site) (c.memory w.cell) w.now) := by
  cases plan with
  | done flow => cases moved
  | fail e => cases moved
  | note event rest =>
    cases moved
    exact of_move apart found rfl (Plan.finish_note _ _ _ event rest)
  | script source rest =>
    cases moved
    exact of_move apart found rfl (Plan.finish_script _ _ _ source rest)
  | launch action depth once rest =>
    cases moved
    exact of_move apart found rfl (Plan.finish_launch _ _ _ action depth once rest)
  | send request rest =>
    rw [Plan.finish_send]
    dsimp only [Scene.act?, scene] at moved
    split at moved
    · rename_i reply leads
      cases moved
      rw [Simulation.dispatch_of_answered leads]
      exact of_move apart found rfl rfl
    · rename_i message there actions leads
      have started :
          move.started = some (there, Plan.whole there.executor actions, Dict.empty) := by
        rw [← Option.some.inj moved]
      obtain ⟨result, elapsed, -⟩ := Simulation.dispatch_of_running leads
      have served : ComesTo sim routing (c.settle k w move) c.workers.length _ :=
        .acting (view?_settle_new move started)
      rw [Plan.finish_later] at served
      cases moved
      rw [result, elapsed]
      refine .waiting (view?_settle_self _ apart found) (lt_of_getElem? found) served ?_
      rw [Nat.add_sub_cancel_left]
  | _ =>
    cases moved
    exact of_move apart found rfl rfl

end Act

/-- A worker comes to the same after a turn, whoever takes it. -/
theorem act (comes : ComesTo sim routing c k ended) (apart : c.Apart) (j : Nat) :
    ComesTo sim routing (c.act sim routing j) k ended := by
  rcases act_cases j c with idle | ⟨w, move, found, moved, acted⟩
  · rw [idle]
    exact comes
  induction comes with
  | @acting k site plan store now here =>
    by_cases other : k = j
    · subst other
      rw [view?, found] at here
      obtain ⟨rfl, work, rfl, rfl⟩ := Scene.mk.inj (Option.some.inj here)
      rw [Scene.move?, scene, work] at moved
      rw [acted]
      exact of_act? apart found moved
    · exact .acting ((view?_act_other apart other (lt_of_view? here)).trans here)
  | @waiting k server site message rest store now ended reply here later served heeded ih =>
    by_cases other : k = j
    · subst other
      rw [view?, found] at here
      obtain ⟨rfl, work, rfl, rfl⟩ := Scene.mk.inj (Option.some.inj here)
      rw [Scene.move?, scene, work] at moved
      rw [acted]
      dsimp only at moved
      split at moved
      · cases moved
      rename_i there serving
      split at moved
      · rename_i result last
        cases moved
        -- The server has ended, and so in the way in which it was to end.
        obtain rfl := served.of_result? serving last
        exact of_move apart found rfl (heeded ▸ rfl)
      · split at moved
        · rename_i late
          cases moved
          -- The server is late, and it will still be when it ends.
          have overdue := Nat.lt_of_lt_of_le late (Nat.sub_le_sub_right (served.le serving) _)
          rw [Sender.heed_late _ _ overdue] at heeded
          exact of_move apart found rfl (heeded ▸ rfl)
        · cases moved
    · exact .waiting ((view?_act_other apart other (lt_of_view? here)).trans here) later ih heeded

/-- The order in which workers take turns makes no difference to what they come to. -/
theorem play (comes : ComesTo sim routing c k ended) (apart : c.Apart) (schedule : List Nat) :
    ComesTo sim routing (c.play sim routing schedule) k ended := by
  induction schedule generalizing c with
  | nil => exact comes
  | cons j schedule ih => exact ih (comes.act apart j) (apart.act j)

/-- The result of a worker that has ended is the one that it was to come to. -/
theorem eq_of_result? (comes : ComesTo sim routing c k ended)
    {result : Except ExecutionError Flow} (last : c.result? k = some result) :
    result = ended.1 := by
  obtain ⟨scene, here, last⟩ := Option.bind_eq_some_iff.1 last
  rw [comes.of_result? here last]

end ComesTo

end Crew

end Relay
