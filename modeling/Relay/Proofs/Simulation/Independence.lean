import Relay.Proofs.Simulation.Workers

/-! # Root requests do not feel each other

Whatever has happened among the workers of a simulation, every one of them can still be brought to
its end, `ComesTo.canEnd`. So all root requests can be answered, and since what a worker comes to
does not depend on whose turn it is, there is one report only: whatever the start delays and the
order of the acts are, every request is answered as if it had been alone, `report?_independent`.
-/

namespace Relay

namespace Crew

variable {sim : Simulation} {routing : Routing} {c : Crew}

/-! ## Ends -/

/-- A worker can be brought to its end while those with smaller numbers get no turn. -/
def CanEnd (sim : Simulation) (routing : Routing) (c : Crew) (k : Nat) : Prop :=
  ∃ schedule, (∀ j ∈ schedule, k ≤ j) ∧ ((c.play sim routing schedule).result? k).isSome

/-- A worker can end if it can after a turn. -/
theorem CanEnd.of_act {k : Nat} (after : CanEnd sim routing (c.act sim routing k) k) :
    CanEnd sim routing c k := by
  obtain ⟨schedule, behind, ended⟩ := after
  exact ⟨k :: schedule, List.forall_mem_cons.2 ⟨Nat.le_refl k, behind⟩, ended⟩

/-- Wherever a worker has the plan to carry out with so many hops left, it can end. -/
def Settles (sim : Simulation) (routing : Routing) (hops : Nat) (plan : Plan) : Prop :=
  ∀ (c : Crew) (k : Nat) (site : Site) (store : Store) (now : Nat), c.Apart → site.hops = hops →
    c.view? k = some ⟨site, .acting plan, store, now⟩ → CanEnd sim routing c k

section Moves

variable {k : Nat} {scene : Scene} (apart : c.Apart) (here : c.view? k = some scene)

include apart here

/-- A worker can end if it goes on with a plan that settles. -/
theorem CanEnd.of_move {move : Move} {rest : Plan}
    (moved : scene.move? sim routing c = some move) (goesOn : move.work = .acting rest)
    (settles : Settles sim routing scene.site.hops rest) : CanEnd sim routing c k := by
  have after := view?_act_self here moved apart
  rw [goesOn] at after
  exact (settles _ _ _ _ _ (apart.act k) rfl after).of_act

/-- A worker that waits can end if the one that it waits for can, and if whatever is left to do then
settles. -/
theorem CanEnd.of_waiting {server : Nat} {message : HttpRequest}
    {rest : Except DispatchError Json → Plan} (waits : scene.work = .waiting server message rest)
    (later : k < server) (served : CanEnd sim routing c server)
    (settles : ∀ answer, Settles sim routing scene.site.hops (rest answer)) :
    CanEnd sim routing c k := by
  obtain ⟨first, behind, ended⟩ := served
  obtain ⟨result, last⟩ := Option.isSome_iff_exists.1 ended
  obtain ⟨there, serving, last⟩ := Option.bind_eq_some_iff.1 last
  have still : (c.play sim routing first).view? k = some scene := by
    rw [view?_play_other apart (lt_of_view? here) fun taken =>
      Nat.not_le.2 later (behind k taken)]
    exact here
  have moved : scene.move? sim routing (c.play sim routing first) = some (scene.heard rest
      ((sim.sender routing scene.site).heed message (result, there.now - scene.now))) := by
    simp only [Scene.move?, waits, serving, last]
  obtain ⟨second, more, reached⟩ := CanEnd.of_move (apart.play first) still moved rfl (settles _)
  refine ⟨first ++ second, ?_, by rwa [play_append]⟩
  intro j member
  rcases List.mem_append.1 member with early | late
  · exact Nat.le_trans (Nat.le_of_lt later) (behind j early)
  · exact more j late

end Moves

/-- A plan settles with so many hops left if every plan does with fewer. -/
theorem settles_of_fewer {hops : Nat}
    (fewer : ∀ less < hops, ∀ plan, Settles sim routing less plan) (plan : Plan) :
    Settles sim routing hops plan := by
  induction plan with
  | done flow =>
    intro c k site store now _ _ here
    exact ⟨[], nofun, by rw [play, result?, here]; rfl⟩
  | fail e =>
    intro c k site store now _ _ here
    exact ⟨[], nofun, by rw [play, result?, here]; rfl⟩
  | note event rest ih =>
    rintro c k site store now apart rfl here
    exact .of_move apart here rfl rfl ih
  | pass ms rest ih =>
    rintro c k site store now apart rfl here
    exact .of_move apart here rfl rfl ih
  | keep key value rest ih =>
    rintro c k site store now apart rfl here
    exact .of_move apart here rfl rfl ih
  | launch action depth once rest _ ih =>
    rintro c k site store now apart rfl here
    exact .of_move apart here rfl rfl ih
  | look rest ih =>
    rintro c k site store now apart rfl here
    exact .of_move apart here rfl rfl (ih store)
  | script source rest ih =>
    rintro c k site store now apart rfl here
    exact .of_move apart here rfl rfl (ih _)
  | send request rest ih =>
    rintro c k site store now apart rfl here
    cases leads : sim.link routing site request with
    | answered reply =>
      have moved : Scene.move? sim routing ⟨site, .acting (.send request rest), store, now⟩ c =
          some (Scene.heard ⟨site, .acting (.send request rest), store, now⟩ rest reply) := by
        simp only [Scene.move?, Scene.act?, leads]
      exact .of_move apart here moved rfl (ih reply.result)
    | running message there actions =>
      have moved : Scene.move? sim routing ⟨site, .acting (.send request rest), store, now⟩ c =
          some ⟨.waiting c.workers.length message rest, store, now,
            some (there, Plan.whole there.executor actions, Dict.empty)⟩ := by
        simp only [Scene.move?, Scene.act?, leads]
      -- What the server sends may make one hop less, so its plan settles.
      have server := view?_act_new here moved rfl
      have hop := (Simulation.dispatch_of_running leads).2.2
      have served : CanEnd sim routing (c.act sim routing k) c.workers.length :=
        fewer there.hops (by omega) _ _ _ _ _ _ (apart.act k) rfl server
      exact (CanEnd.of_waiting (apart.act k) (view?_act_self here moved apart) rfl
        (lt_of_view? here) served ih).of_act

/-- Every plan settles. -/
theorem settles (hops : Nat) (plan : Plan) : Settles sim routing hops plan := by
  induction hops using Nat.strongRecOn generalizing plan with
  | ind hops ih => exact settles_of_fewer ih plan

/-- A worker that comes to something can end. -/
theorem ComesTo.canEnd {k : Nat} {ended : Except ExecutionError Flow × Nat}
    (comes : ComesTo sim routing c k ended) (apart : c.Apart) : CanEnd sim routing c k := by
  induction comes with
  | acting here => exact settles _ _ _ _ _ _ _ apart rfl here
  | waiting here later _ _ ih =>
    exact .of_waiting apart here rfl later ih fun _ => settles _ _

theorem move?_of_result? {scene : Scene} {result : Except ExecutionError Flow}
    (last : scene.work.result? = some result) : scene.move? sim routing c = none := by
  obtain ⟨site, work, store, now⟩ := scene
  cases work with
  | waiting server message rest => cases last
  | acting plan => cases plan <;> first | rfl | cases last

/-- A worker that has ended stays as it is. -/
theorem result?_play {k : Nat} {result : Except ExecutionError Flow} (apart : c.Apart)
    (last : c.result? k = some result) (schedule : List Nat) :
    (c.play sim routing schedule).result? k = some result := by
  induction schedule generalizing c with
  | nil => exact last
  | cons j schedule ih =>
    apply ih (apart.act j)
    obtain ⟨scene, here, final⟩ := Option.bind_eq_some_iff.1 last
    by_cases other : k = j
    · subst other
      obtain ⟨w, found, rfl⟩ := Option.map_eq_some_iff.1 here
      have idle : c.act sim routing k = c := by simp only [act, found, move?_of_result? final]
      rwa [idle]
    · rw [result?, view?_act_other apart other (lt_of_view? here)]
      exact last

/-- Workers that come to something can all be brought to their ends. -/
theorem exists_results (apart : c.Apart) {n : Nat}
    (comes : ∀ k < n, ∃ ended, ComesTo sim routing c k ended) :
    ∃ schedule, ∀ k < n, ((c.play sim routing schedule).result? k).isSome := by
  -- The workers are brought to their ends one after another.
  induction n with
  | zero => exact ⟨[], nofun⟩
  | succ n ih =>
    obtain ⟨first, finished⟩ := ih fun k below => comes k (Nat.lt_succ_of_lt below)
    obtain ⟨ended, last⟩ := comes n (Nat.lt_succ_self n)
    obtain ⟨second, -, reached⟩ := (last.play apart first).canEnd (apart.play first)
    refine ⟨first ++ second, ?_⟩
    intro k below
    rw [play_append]
    rcases Nat.lt_succ_iff_lt_or_eq.1 below with before | rfl
    · obtain ⟨result, early⟩ := Option.isSome_iff_exists.1 (finished k before)
      rw [result?_play (apart.play first) early]
      rfl
    · exact reached

end Crew

/-! ## Root requests -/

/-- Nothing is left to do after the answer to a request. -/
def Plan.answered : Except DispatchError Json → Plan
  | .ok response => done (.next response)
  | .error e => fail (.dispatch e)

/-- What the worker of a root request does: the request is sent after its start delay. -/
def RootRequest.plan (r : RootRequest) : Plan :=
  .pass (Simulation.delayMs r.call.startDelay) <|
    match Request.ofCall r.call r.actions with
    | .error e => .answered (.error e)
    | .ok request => .send request .answered

/-- A root request with another start delay. -/
def RootRequest.delayed (r : RootRequest) (seconds : Float) : RootRequest :=
  { r with call := { r.call with startDelay := seconds } }

namespace Simulation

variable (sim : Simulation) (routing : Routing)

/-- From where a root request is sent. -/
def rootSite (r : RootRequest) : Site where
  patienceMs := sim.patienceMs
  hops := Action.depthList r.actions + 1

/-- The outcome of a root request whose worker has ended; only the request itself can fail. -/
def outcome? : Except ExecutionError Flow → Option (Except SimulationError Json)
  | .ok flow => some (.ok flow.value)
  | .error (.dispatch e) => some (.error (.dispatch e))
  | .error _ => none

/-- A worker for each root request. -/
def opening : Crew where
  memory := fun _ => Dict.empty
  workers := sim.scenario.requests.mapIdx fun k r => ⟨sim.rootSite r, .acting r.plan, k, 0⟩

/-- The report once all root requests are answered, after the workers have taken turns. -/
def report? (schedule : List Nat) : Option Report :=
  let crew := sim.opening.play sim routing schedule
  let entries := sim.scenario.requests.zipIdx.mapM fun (r, k) =>
    ((crew.result? k).bind outcome?).map (entry r)
  entries.map fun requests => ⟨requests⟩

/-- The entry of a root request that is sent at once. -/
def entryOf (r : RootRequest) : RequestReport :=
  entry r (sim.send (sim.network routing) r).result

/-- The simulation with other start delays. -/
def delayed (delays : Nat → Float) : Simulation :=
  { sim with
    scenario := { sim.scenario with
      requests := sim.scenario.requests.mapIdx fun k r => r.delayed (delays k) } }

/-- The nodes of the simulation, with one request only. -/
def alone (r : RootRequest) : Simulation :=
  { sim with scenario := { sim.scenario with requests := [r] } }

variable {sim routing}

theorem apart_opening : sim.opening.Apart := by
  intro k w found
  rw [opening, List.getElem?_mapIdx] at found
  obtain ⟨r, -, rfl⟩ := Option.map_eq_some_iff.1 found
  rfl

/-- The worker of a root request comes to the answer that the request gets. -/
theorem comesTo_opening {k : Nat} {r : RootRequest}
    (listed : sim.scenario.requests[k]? = some r) :
    ∃ ended, Crew.ComesTo sim routing sim.opening k ended ∧
      outcome? ended.1 = some (sim.send (sim.network routing) r).result := by
  have here : sim.opening.view? k = some ⟨sim.rootSite r, .acting r.plan, Dict.empty, 0⟩ := by
    rw [Crew.view?, opening, List.getElem?_mapIdx, listed]
    rfl
  refine ⟨_, .acting here, ?_⟩
  rw [send, RootRequest.plan]
  cases Request.ofCall r.call r.actions with
  | error e => rfl
  | ok request =>
    let interpreter := sim.interpreter routing (sim.rootSite r)
    have sent := Plan.finish_send interpreter Dict.empty (0 + delayMs r.call.startDelay) request
      .answered
    refine (congrArg (fun ended => outcome? ended.1) sent).trans ?_
    change _ = some ((interpreter.dispatch request).result.mapError SimulationError.dispatch)
    cases (interpreter.dispatch request).result <;> rfl

/-- In whatever order the workers have taken their turns, a root request that is answered has got
the answer that it gets by itself. -/
theorem outcome?_opening {schedule : List Nat} {k : Nat} {r : RootRequest}
    (listed : sim.scenario.requests[k]? = some r) {result : Except ExecutionError Flow}
    (ended : (sim.opening.play sim routing schedule).result? k = some result) :
    outcome? result = some (sim.send (sim.network routing) r).result := by
  obtain ⟨expected, comes, answer⟩ := comesTo_opening listed
  rwa [(comes.play apart_opening schedule).eq_of_result? ended]

private theorem eq_map_of_mapM {α β : Type} {f : α → Option β} {g : α → β} {l : List α}
    (same : ∀ x ∈ l, ∀ y, f x = some y → y = g x) {found : List β} (all : l.mapM f = some found) :
    found = l.map g := by
  induction l generalizing found with
  | nil =>
    cases all
    rfl
  | cons x rest ih =>
    obtain ⟨first, others⟩ := List.forall_mem_cons.1 same
    rw [List.mapM_cons] at all
    obtain ⟨y, here, all⟩ := Option.bind_eq_some_iff.1 all
    obtain ⟨ys, there, all⟩ := Option.bind_eq_some_iff.1 all
    cases all
    rw [List.map_cons, first y here, ih others there]

private theorem mapM_eq_map {α β : Type} {f : α → Option β} {g : α → β} {l : List α}
    (same : ∀ x ∈ l, f x = some (g x)) : l.mapM f = some (l.map g) := by
  induction l with
  | nil => rfl
  | cons x rest ih =>
    obtain ⟨first, others⟩ := List.forall_mem_cons.1 same
    rw [List.mapM_cons, first, ih others]
    rfl

theorem run_eq_map : (sim.run (sim.network routing)).result =
    ⟨sim.scenario.requests.map (sim.entryOf routing)⟩ := by
  simp only [run, List.map_map]
  rfl

private theorem map_entryOf (requests : List RootRequest) :
    (requests.zipIdx.map fun (r, _) => sim.entryOf routing r) =
      requests.map (sim.entryOf routing) := by
  have same := congrArg (List.map (sim.entryOf routing)) (List.zipIdx_map_fst 0 requests)
  rwa [List.map_map] at same

/-- There is one report only, in whatever order the workers take their turns. -/
theorem report?_eq_run {schedule : List Nat} {report : Report}
    (reported : sim.report? routing schedule = some report) :
    report = (sim.run (sim.network routing)).result := by
  obtain ⟨entries, all, rfl⟩ := Option.map_eq_some_iff.1 reported
  rw [run_eq_map, ← map_entryOf]
  refine congrArg Report.mk (eq_map_of_mapM ?_ all)
  rintro ⟨r, k⟩ member y told
  obtain ⟨outcome, ended, rfl⟩ := Option.map_eq_some_iff.1 told
  obtain ⟨result, last, answer⟩ := Option.bind_eq_some_iff.1 ended
  rw [outcome?_opening (List.mem_zipIdx_iff_getElem?.1 member) last] at answer
  cases answer
  rfl

/-- Whatever has happened, the report can be completed. -/
theorem exists_report? (sim : Simulation) (routing : Routing) (schedule : List Nat) :
    ∃ later, sim.report? routing (schedule ++ later) =
      some (sim.run (sim.network routing)).result := by
  have comes : ∀ k < sim.scenario.requests.length, ∃ ended,
      Crew.ComesTo sim routing (sim.opening.play sim routing schedule) k ended := by
    intro k below
    obtain ⟨ended, comes, -⟩ := comesTo_opening (List.getElem?_eq_getElem below)
    exact ⟨ended, comes.play apart_opening schedule⟩
  obtain ⟨later, ended⟩ := Crew.exists_results (apart_opening.play schedule) comes
  refine ⟨later, ?_⟩
  let crew := sim.opening.play sim routing (schedule ++ later)
  have all : sim.scenario.requests.zipIdx.mapM
      (fun (r, k) => ((crew.result? k).bind outcome?).map (entry r)) =
        some (sim.scenario.requests.zipIdx.map fun (r, _) => sim.entryOf routing r) := by
    apply mapM_eq_map
    rintro ⟨r, k⟩ member
    have listed := List.mem_zipIdx_iff_getElem?.1 member
    obtain ⟨result, last⟩ :=
      Option.isSome_iff_exists.1 (ended k (List.getElem?_eq_some_iff.1 listed).1)
    rw [← Crew.play_append] at last
    dsimp only
    rw [last, Option.bind_some, outcome?_opening listed last]
    rfl
  rw [report?, all, run_eq_map, ← map_entryOf]
  rfl

/-! ## Start delays -/

/-- The start delays have no part in the report. -/
theorem run_delayed (delays : Nat → Float) :
    ((sim.delayed delays).run ((sim.delayed delays).network routing)).result =
      (sim.run (sim.network routing)).result := by
  rw [run_eq_map, run_eq_map]
  refine congrArg Report.mk (List.ext_getElem? fun k => ?_)
  rw [List.getElem?_map, List.getElem?_map, delayed, List.getElem?_mapIdx]
  cases sim.scenario.requests[k]? <;> rfl

/-- Root requests do not feel each other. Wherever URLs lead, whatever the start delays of the
requests are and in whatever order all that follows from them is done on the nodes, they can all be
answered, and there is one report only. It has an entry for each request in the order of the
scenario, with the label of the request and with the response or the error that sending the request
by itself gives; and the entry is the one that the request gets if it is the only one that is sent
to the nodes. -/
theorem report?_independent (sim : Simulation) (routing : Routing) (delays : Nat → Float) :
    (∀ schedule, ∃ later, ((sim.delayed delays).report? routing (schedule ++ later)).isSome) ∧
    ∀ (schedule : List Nat) (report : Report),
      (sim.delayed delays).report? routing schedule = some report →
      report = (sim.run (sim.network routing)).result ∧
      (∀ delays' schedule' report',
        (sim.delayed delays').report? routing schedule' = some report' → report' = report) ∧
      report.requests.length = sim.scenario.requests.length ∧
      ∀ (k : Nat) (r : RootRequest), sim.scenario.requests[k]? = some r →
        ∃ entry : RequestReport, report.requests[k]? = some entry ∧ entry.request = r.call.label ∧
          (∀ response, (sim.send (sim.network routing) r).result = .ok response →
            entry.response = some response ∧ entry.error = none) ∧
          (∀ e, (sim.send (sim.network routing) r).result = .error e →
            entry.response = none ∧ entry.error = some e.message) ∧
          (∃ schedule', (sim.alone r).report? routing schedule' = some ⟨[entry]⟩) ∧
          ∀ delays' schedule' report',
            ((sim.alone r).delayed delays').report? routing schedule' = some report' →
              report' = ⟨[entry]⟩ := by
  have unique {delays' schedule' report'}
      (reported : (sim.delayed delays').report? routing schedule' = some report') :
      report' = (sim.run (sim.network routing)).result :=
    (report?_eq_run reported).trans (run_delayed delays')
  refine ⟨fun schedule => ?_, fun schedule report reported => ?_⟩
  · obtain ⟨later, complete⟩ := exists_report? (sim.delayed delays) routing schedule
    exact ⟨later, by rw [complete]; rfl⟩
  obtain rfl := unique reported
  refine ⟨rfl, fun _ _ _ other => unique other, by rw [run_eq_map, List.length_map], ?_⟩
  intro k r listed
  have single : ((sim.alone r).run ((sim.alone r).network routing)).result =
      ⟨[sim.entryOf routing r]⟩ := run_eq_map
  refine ⟨sim.entryOf routing r, ?_, ?_, ?_, ?_, ?_, ?_⟩
  · rw [run_eq_map, List.getElem?_map, listed]
    rfl
  · rw [entryOf]
    cases (sim.send (sim.network routing) r).result <;> rfl
  · intro response answered
    rw [entryOf, answered]
    exact ⟨rfl, rfl⟩
  · intro e failed
    rw [entryOf, failed]
    exact ⟨rfl, rfl⟩
  · obtain ⟨later, complete⟩ := exists_report? (sim.alone r) routing []
    exact ⟨[] ++ later, complete.trans (congrArg some single)⟩
  · intro delays' schedule' report' other
    rw [report?_eq_run other, run_delayed, single]

/-- Two requests to one node. -/
def pair : Simulation where
  scenario := { requests := ["x", "y"].map fun answer =>
    ⟨{ node := some "b", method := "POST" }, [.step {} (.ret (.string answer))]⟩ }
  nodes := [{ name := "b" }]
  directory := Directory.ofList [({ name := "b" } : NodeConfig).identity]
  ports := {}
  patienceMs := 100

/-- Where the node is reached by its address. -/
def crossing : Routing :=
  .direct pair.nodes (Network.refusing 0)

/-- When both have been sent, the node runs both invocations beside each other. -/
example : (pair.opening.play pair crossing [0, 1, 1, 0]).workers.length = 4 := by
  decide +kernel

/-- With the first of them delayed, both are answered with what they ask for. -/
theorem report?_independent_pair :
    let delays : Nat → Float := fun k => if k = 0 then 0.5 else 0
    ∃ schedule report, (pair.delayed delays).report? crossing schedule = some report ∧
      report.requests.map (fun entry => (entry.response.bind Json.asString?, entry.error)) =
        [(some "x", none), (some "y", none)] := by
  intro delays
  obtain ⟨complete, only⟩ := report?_independent pair crossing delays
  obtain ⟨schedule, done⟩ := complete []
  obtain ⟨report, reported⟩ := Option.isSome_iff_exists.1 done
  obtain ⟨-, -, both, entries⟩ := only _ report reported
  refine ⟨_, report, reported, ?_⟩
  have sent : pair.scenario.requests.map
      (fun r => (pair.send (pair.network crossing) r).result.toOption.bind Json.asString?) =
        [some "x", some "y"] := by decide +kernel
  have told (k : Nat) (r : RootRequest) (answer : String)
      (listed : pair.scenario.requests[k]? = some r)
      (result : (pair.send (pair.network crossing) r).result.toOption.bind Json.asString? =
        some answer) :
      (report.requests[k]?.map fun entry => (entry.response.bind Json.asString?, entry.error)) =
        some (some answer, none) := by
    obtain ⟨entry, here, -, carries, -⟩ := entries k r listed
    cases ended : (pair.send (pair.network crossing) r).result with
    | error e =>
      rw [ended] at result
      cases result
    | ok response =>
      rw [ended] at result
      obtain ⟨answered, faultless⟩ := carries response ended
      rw [here, Option.map_some, answered, faultless]
      exact congrArg (fun told => some (told, none)) result
  obtain ⟨first, second⟩ := List.cons.inj sent
  apply List.ext_getElem?
  intro k
  rw [List.getElem?_map]
  match k with
  | 0 => exact told 0 _ "x" rfl first
  | 1 => exact told 1 _ "y" rfl (List.cons.inj second).1
  | k + 2 =>
    have beyond : report.requests.length ≤ k + 2 := both ▸ Nat.le_add_left 2 k
    rw [List.getElem?_eq_none beyond]
    rfl

end Simulation

end Relay
