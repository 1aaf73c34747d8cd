import Relay.Proofs.Except
import Relay.Simulation.Run

/-! # Which ports are handed out

A bind hands out a port and leaves a socket, an allocation hands out a port and leaves none. Either
way the port is held until it is released, `isAllocated_after`. A port that is asked for by number
and a port of the range are compared with those that are held; a port that the machine offers is
not. So a held port is kept from being handed out again by sockets alone: as long as one stands in
the way of every held port, `Kept`, no port is handed out twice, and a held port without one is
handed out again as soon as the machine offers it. The nodes of a simulation keep their sockets, so
they have ports of their own, `Simulation.start_apart`.
-/

namespace Relay

namespace PortAllocator

variable {a b : PortAllocator} {source : PortSource} {port other : UInt16}

theorem isAllocated_add : (a.add port).isAllocated other ↔ other = port ∨ a.isAllocated other := by
  simp only [add]
  split
  · exact ⟨.inr, fun held => held.elim (· ▸ ‹_›) id⟩
  · simp [isAllocated]

theorem isAllocated_release :
    (a.release port).isAllocated other ↔ other ≠ port ∧ a.isAllocated other := by
  simp [isAllocated, release, And.comm]

/-- Any port will do: the machine offered the one that is handed out, or it offered none and the
port was free and not held. -/
theorem bindAny_ok (bound : a.bindAny source = .ok (port, b)) :
    b = a.add port ∧ (source.any = some port ∨
      source.any = none ∧ source.free port ∧ ¬ a.isAllocated port) := by
  rw [bindAny] at bound
  cases offered : source.any with
  | some best =>
    rw [offered] at bound
    cases bound
    exact ⟨rfl, .inl rfl⟩
  | none =>
    rw [offered] at bound
    cases found : a.range.find? fun port => !a.isAllocated port && source.free port with
    | none => simp only [found] at bound; cases bound
    | some best =>
      simp only [found] at bound
      cases bound
      have fits := List.find?_some found
      simp only [Bool.and_eq_true, Bool.not_eq_true'] at fits
      exact ⟨rfl, .inr ⟨rfl, fits.2, by simp [fits.1]⟩⟩

/-- A port that is bound was offered when any would do, or was free and not held. -/
theorem bind_ok {asked : UInt16} (bound : a.bind source asked = .ok (port, b)) :
    b = a.add port ∧ (asked = 0 ∧ source.any = some port ∨
      source.free port ∧ ¬ a.isAllocated port) := by
  rw [bind] at bound
  split at bound
  · obtain ⟨added, offered | ⟨-, apart⟩⟩ := bindAny_ok bound
    · exact ⟨added, .inl ⟨‹_›, offered⟩⟩
    · exact ⟨added, .inr apart⟩
  split at bound
  · cases bound
  split at bound
  · cases bound
    exact ⟨rfl, .inr ⟨‹_›, ‹_›⟩⟩
  · cases bound

/-- A port that the machine offers is handed out. -/
theorem bind_offered (offered : source.any = some port) :
    a.bind source 0 = .ok (port, a.add port) := by
  simp only [bind, bindAny, offered, ↓reduceIte]

theorem allocate_ok :
    a.allocate source = some (port, b) ↔ a.bind source 0 = .ok (port, b) := by
  simp only [allocate, bind, ↓reduceIte]
  cases a.bindAny source <;> simp [Except.toOption]

end PortAllocator

namespace Machine

variable {m : Machine} {host other : String} {port wanted : UInt16}

/-- The machine without its socket for a port of a host. -/
def vacate (m : Machine) (port : UInt16) (host : String) : Machine :=
  { m with bound := m.bound.filter (· ≠ (port, host)) }

theorem mem_taken :
    port ∈ m.taken host ↔ ∃ other, (port, other) ∈ m.bound ∧ overlaps host other := by
  simp [taken]

theorem mem_bound_occupy {socket : UInt16 × String} :
    socket ∈ (m.occupy port other).bound ↔ socket = (port, other) ∨ socket ∈ m.bound := by
  conv => rhs; rw [← List.takeWhile_append_dropWhile (p := (·.1 < port)) (l := m.bound)]
  simp only [occupy, List.mem_append, List.mem_cons]
  exact or_left_comm

theorem mem_taken_occupy :
    wanted ∈ (m.occupy port other).taken host ↔
      wanted = port ∧ overlaps host other ∨ wanted ∈ m.taken host := by
  simp only [mem_taken, mem_bound_occupy, Prod.mk.injEq]
  constructor
  · rintro ⟨owner, ⟨rfl, rfl⟩ | bound, inWay⟩
    · exact .inl ⟨rfl, inWay⟩
    · exact .inr ⟨owner, bound, inWay⟩
  · rintro (⟨rfl, inWay⟩ | ⟨owner, bound, inWay⟩)
    · exact ⟨other, .inl ⟨rfl, rfl⟩, inWay⟩
    · exact ⟨owner, .inr bound, inWay⟩

/-- A socket that is closed stood in the way for its own port only. -/
theorem mem_taken_vacate (different : wanted ≠ port) :
    wanted ∈ (m.vacate port other).taken host ↔ wanted ∈ m.taken host := by
  simp [mem_taken, vacate, different]

end Machine

/-- A machine answers a host only with ports that none of its sockets keeps from the host. -/
structure PortSource.Apart (source : PortSource) (m : Machine) (host : String) : Prop where
  any : ∀ port, source.any = some port → port ∉ m.taken host
  free : ∀ port, source.free port → port ∉ m.taken host

/-- What is done about ports, with what the machine answers then. -/
inductive PortStep where
  | bind (host : String) (port : UInt16) (source : PortSource)
  | allocate (source : PortSource)
  | release (port : UInt16)
  /-- A socket is closed, whether or not its port has been released. -/
  | close (port : UInt16) (host : String)

namespace PortStep

/-- The host on which ports are allocated. -/
def allocationHost : String := "127.0.0.1"

/-- The host and the port that a step asks for, and the answers of the machine; port zero stands for
any. -/
def request? : PortStep → Option (String × UInt16 × PortSource)
  | bind host port source => some (host, port, source)
  | allocate source => some (allocationHost, 0, source)
  | _ => none

end PortStep

/-- An allocator, and the sockets of the machine whose ports it hands out. -/
structure PortUse where
  ports : PortAllocator
  machine : Machine

namespace PortUse

/-- A new allocator with a range, on a machine that may have sockets of its own. -/
def start (first last : UInt16) (machine : Machine) : PortUse :=
  ⟨{ first, last }, machine⟩

/-- The port that a step hands out, and what it leaves. -/
def act (u : PortUse) : PortStep → Option UInt16 × PortUse
  | .bind host port source =>
    match u.ports.bind source port with
    | .ok (port, ports) => (some port, ⟨ports, u.machine.occupy port host⟩)
    | .error _ => (none, u)
  | .allocate source =>
    match u.ports.allocate source with
    | some (port, ports) => (some port, { u with ports })
    | none => (none, u)
  | .release port => (none, { u with ports := u.ports.release port })
  | .close port host => (none, { u with machine := u.machine.vacate port host })

/-- What a run leaves. -/
def after (u : PortUse) (run : List PortStep) : PortUse :=
  run.foldl (fun u step => (u.act step).2) u

/-- Every step of a run is of a kind, which may depend on what the steps before it left. -/
def Along (kind : PortUse → PortStep → Prop) (u : PortUse) : List PortStep → Prop
  | [] => True
  | step :: rest => kind u step ∧ (u.act step).2.Along kind rest

/-- The machine answers what a step asks for with ports that can be bound. -/
def Allows (u : PortUse) (step : PortStep) : Prop :=
  ∀ host port source, step.request? = some (host, port, source) → source.Apart u.machine host

/-- A step hands out no port that is held. -/
def HandsFresh (u : PortUse) (step : PortStep) : Prop :=
  ∀ port, (u.act step).1 = some port → ¬ u.ports.isAllocated port

/-- A run hands out a port and does not release it afterwards. -/
def Outstanding (u : PortUse) (run : List PortStep) (port : UInt16) : Prop :=
  ∃ before step later, run = before ++ step :: later ∧
    ((u.after before).act step).1 = some port ∧ .release port ∉ later

/-- A socket stands in the way of every port that is held, on some hosts. -/
def Kept (hosts : String → Prop) (u : PortUse) : Prop :=
  ∀ host port, hosts host → u.ports.isAllocated port → port ∈ u.machine.taken host

/-- A step leaves a socket in the way of every port that is held: a port that is handed out stays
bound on one of the hosts, and is released before its socket is closed. -/
def Keeps (hosts : String → Prop) (u : PortUse) : PortStep → Prop
  | .bind host _ _ => hosts host
  | .allocate _ => False
  | .release _ => True
  | .close port _ => ¬ u.ports.isAllocated port

variable {u : PortUse} {step : PortStep} {host : String} {port : UInt16} {hosts : String → Prop}

/-! ## What is held -/

/-- What a step hands out was asked for: the machine offered it when any port would do, or it was
free and not held. -/
theorem act_hands (hands : (u.act step).1 = some port) :
    (u.act step).2.ports = u.ports.add port ∧
      ∃ host asked source, step.request? = some (host, asked, source) ∧
        (asked = 0 ∧ source.any = some port ∨ source.free port ∧ ¬ u.ports.isAllocated port) := by
  cases step with
  | bind host asked source =>
    cases bound : u.ports.bind source asked with
    | error e => simp only [act, bound] at hands; cases hands
    | ok given =>
      simp only [act, bound, Option.some.injEq] at hands ⊢
      subst hands
      obtain ⟨added, origin⟩ := PortAllocator.bind_ok bound
      exact ⟨added, host, asked, source, rfl, origin⟩
  | allocate source =>
    cases bound : u.ports.allocate source with
    | none => simp only [act, bound] at hands; cases hands
    | some given =>
      simp only [act, bound, Option.some.injEq] at hands ⊢
      subst hands
      obtain ⟨added, origin⟩ := PortAllocator.bind_ok (PortAllocator.allocate_ok.mp bound)
      exact ⟨added, PortStep.allocationHost, 0, source, rfl, origin⟩
  | release port => cases hands
  | close port host => cases hands

/-- A step changes what is held by the port that it hands out or releases. -/
theorem isAllocated_act :
    (u.act step).2.ports.isAllocated port ↔
      (u.act step).1 = some port ∨ u.ports.isAllocated port ∧ step ≠ .release port := by
  cases handed : (u.act step).1 with
  | some given =>
    obtain ⟨added, host, asked, source, request, -⟩ := act_hands handed
    have held : step ≠ .release port := by rintro rfl; cases request
    rw [added, PortAllocator.isAllocated_add, Option.some.injEq, eq_comm, and_iff_left held]
  | none =>
    cases step with
    | bind host asked source =>
      cases bound : u.ports.bind source asked with
      | error e => simp [act, bound]
      | ok given => simp [act, bound] at handed
    | allocate source =>
      cases bound : u.ports.allocate source with
      | none => simp [act, bound]
      | some given => simp [act, bound] at handed
    | release other =>
      rw [act, PortAllocator.isAllocated_release, and_comm, ne_comm]
      simp
    | close other host => simp [act]

theorem outstanding_cons {rest : List PortStep} :
    u.Outstanding (step :: rest) port ↔
      (u.act step).1 = some port ∧ .release port ∉ rest ∨ (u.act step).2.Outstanding rest port := by
  constructor
  · rintro ⟨before, last, later, split, hands, held⟩
    cases before with
    | nil => cases split; exact .inl ⟨hands, held⟩
    | cons first before => cases split; exact .inr ⟨before, last, later, rfl, hands, held⟩
  · rintro (⟨hands, held⟩ | ⟨before, last, later, rfl, hands, held⟩)
    · exact ⟨[], step, rest, rfl, hands, held⟩
    · exact ⟨step :: before, last, later, rfl, hands, held⟩

/-- What is held after a run was handed out in it, or held before, and not released since. -/
theorem isAllocated_after (run : List PortStep) :
    (u.after run).ports.isAllocated port ↔
      u.Outstanding run port ∨ u.ports.isAllocated port ∧ .release port ∉ run := by
  induction run generalizing u with
  | nil => simp [after, Outstanding]
  | cons step rest ih =>
    change ((u.act step).2.after rest).ports.isAllocated port ↔ _
    rw [ih, isAllocated_act, outstanding_cons, List.mem_cons, not_or, ne_comm]
    grind

/-! ## What is handed out again -/

/-- A machine that offers a port and has no other. -/
def offering (port : UInt16) : PortSource :=
  ⟨some port, fun _ => false⟩

theorem offering_apart {m : Machine} (loose : port ∉ m.taken host) :
    (offering port).Apart m host :=
  ⟨fun _ offered => Option.some.inj offered ▸ loose, fun _ free => nomatch free⟩

/-- A port that is held is handed out again only when any port will do, and the machine offers it
because no socket stands in the way. -/
theorem hands_held (held : u.ports.isAllocated port) (allows : u.Allows step)
    (hands : (u.act step).1 = some port) :
    ∃ host source, step.request? = some (host, 0, source) ∧ source.any = some port ∧
      port ∉ u.machine.taken host := by
  obtain ⟨-, host, asked, source, request, ⟨rfl, offered⟩ | ⟨-, loose⟩⟩ := act_hands hands
  · exact ⟨host, source, request, offered, (allows host 0 source request).any port offered⟩
  · exact (loose held).elim

theorem act_bind_offering : (u.act (.bind host 0 (offering port))).1 = some port := by
  have bound : u.ports.bind (offering port) 0 = .ok (port, u.ports.add port) :=
    PortAllocator.bind_offered rfl
  simp only [act, bound]

theorem act_allocate_offering : (u.act (.allocate (offering port))).1 = some port := by
  have bound : u.ports.allocate (offering port) = some (port, u.ports.add port) :=
    PortAllocator.allocate_ok.mpr (PortAllocator.bind_offered rfl)
  simp only [act, bound]

/-- If sockets stand in the way of all ports that are held, none of them is handed out. -/
theorem handsFresh_of_kept (kept : u.Kept hosts) (keeps : u.Keeps hosts step)
    (allows : u.Allows step) : u.HandsFresh step := by
  intro port hands held
  obtain ⟨host, source, request, -, loose⟩ := hands_held held allows hands
  cases step with
  | bind other asked answers =>
    cases request
    exact loose (kept host port keeps held)
  | allocate answers => exact keeps
  | release other => cases request
  | close other on => cases request

theorem kept_act (shared : ∀ host other, hosts host → hosts other → Machine.overlaps host other)
    (kept : u.Kept hosts) (keeps : u.Keeps hosts step) : (u.act step).2.Kept hosts := by
  intro host port inUse held
  cases step with
  | bind other asked source =>
    cases bound : u.ports.bind source asked with
    | error e =>
      simp only [act, bound] at held ⊢
      exact kept host port inUse held
    | ok given =>
      simp only [act, bound] at held ⊢
      rw [(PortAllocator.bind_ok bound).1, PortAllocator.isAllocated_add] at held
      exact Machine.mem_taken_occupy.mpr
        (held.imp (⟨·, shared host other inUse keeps⟩) (kept host port inUse))
  | allocate source => exact keeps.elim
  | release other => exact kept host port inUse (PortAllocator.isAllocated_release.mp held).2
  | close other on =>
    have different : port ≠ other := fun same => keeps (same ▸ held)
    exact (Machine.mem_taken_vacate different).mpr (kept host port inUse held)

/-- A run that leaves sockets in the way of held ports hands out no port that is held. -/
theorem along_handsFresh
    (shared : ∀ host other, hosts host → hosts other → Machine.overlaps host other)
    {run : List PortStep} (kept : u.Kept hosts) (keeps : u.Along (Keeps hosts) run)
    (allows : u.Along Allows run) : u.Along HandsFresh run := by
  induction run generalizing u with
  | nil => exact trivial
  | cons step rest ih =>
    exact ⟨handsFresh_of_kept kept keeps.1 allows.1,
      ih (kept_act shared kept keeps.1) keeps.2 allows.2⟩

variable (first last : UInt16) (machine : Machine)

theorem isAllocated_after_start (run : List PortStep) :
    ((start first last machine).after run).ports.isAllocated port ↔
      (start first last machine).Outstanding run port := by
  rw [isAllocated_after]
  exact or_iff_left fun held => absurd held.1 (by simp [start, PortAllocator.isAllocated])

/-- When ports are handed out twice. After every run of a new allocator, the ports that are held are
those that were handed out and not released since. The next step hands out one of them only as an
answer to a request for any port on a host, when the machine offers a port that none of its sockets
keeps from the host; and each one that no socket keeps from the host can be handed out, to a bind
and, on its host, to an allocation. So no port is handed out twice as long as every port is bound on
hosts that cannot share ports, and is released before its socket is closed. -/
theorem handsFresh_start (run : List PortStep) :
    let u := (start first last machine).after run
    (∀ port, u.ports.isAllocated port ↔ (start first last machine).Outstanding run port) ∧
    (∀ step port, u.Allows step → (u.act step).1 = some port → u.ports.isAllocated port →
      ∃ host source, step.request? = some (host, 0, source) ∧ source.any = some port ∧
        port ∉ u.machine.taken host) ∧
    (∀ host port, port ∉ u.machine.taken host →
      u.Allows (.bind host 0 (offering port)) ∧
        (u.act (.bind host 0 (offering port))).1 = some port) ∧
    (∀ port, port ∉ u.machine.taken PortStep.allocationHost →
      u.Allows (.allocate (offering port)) ∧ (u.act (.allocate (offering port))).1 = some port) ∧
    ∀ hosts : String → Prop,
      (∀ host other, hosts host → hosts other → Machine.overlaps host other) →
      (start first last machine).Along (Keeps hosts) run →
      (start first last machine).Along Allows run →
      (start first last machine).Along HandsFresh run := by
  refine ⟨fun port => isAllocated_after_start first last machine run,
    fun step port allows hands held => hands_held held allows hands,
    fun host port loose => ⟨?_, act_bind_offering⟩, fun port loose => ⟨?_, act_allocate_offering⟩,
    fun hosts shared keeps allows => along_handsFresh shared ?_ keeps allows⟩
  · rintro _ _ _ ⟨⟩
    exact offering_apart loose
  · rintro _ _ _ ⟨⟩
    exact offering_apart loose
  · intro host port _ held
    cases held

/-- A port that is released, closed and then offered again is handed out a second time, and was not
held any more. -/
theorem handsFresh_start_rebound :
    let run : List PortStep := [.bind "127.0.0.1" 0 (offering 40000), .release 40000,
      .close 40000 "127.0.0.1", .bind "localhost" 0 (offering 40000)]
    (start 18000 19000 {}).Along HandsFresh run := by
  have shared : ∀ host other, (host = "127.0.0.1" ∨ host = "localhost") →
      (other = "127.0.0.1" ∨ other = "localhost") → Machine.overlaps host other := by
    rintro _ _ (rfl | rfl) (rfl | rfl) <;> decide
  refine (handsFresh_start 18000 19000 {} _).2.2.2.2 _ shared ?_ ?_
  · refine ⟨.inl rfl, trivial, ?_, .inr rfl, trivial⟩
    rw [Keeps]
    decide
  · refine ⟨?_, ?_, ?_, ?_, trivial⟩
    · rintro _ _ _ ⟨⟩
      exact offering_apart (by decide)
    · rintro _ _ _ ⟨⟩
    · rintro _ _ _ ⟨⟩
    · rintro _ _ _ ⟨⟩
      exact offering_apart (by decide)

/-- With a new allocator and a machine that answers with ports that can be bound, a run hands out a
port that is held. -/
def HandsTwice (run : List PortStep) : Prop :=
  (start 18000 19000 {}).Along Allows run ∧ ¬ (start 18000 19000 {}).Along HandsFresh run

/-- Three ways to be handed a port twice: it was allocated, its socket was closed before it was
released, or it is bound on another host. -/
theorem not_along_handsFresh :
    HandsTwice [.allocate (offering 40000), .bind "127.0.0.1" 0 (offering 40000)] ∧
      HandsTwice [.bind "127.0.0.1" 0 (offering 40000), .close 40000 "127.0.0.1",
        .bind "127.0.0.1" 0 (offering 40000)] ∧
      HandsTwice
        [.bind "127.0.0.1" 0 (offering 40000), .bind "127.0.0.2" 0 (offering 40000)] := by
  have bound (u : PortUse) (host : String) (loose : 40000 ∉ u.machine.taken host) :
      u.Allows (.bind host 0 (offering 40000)) := by
    rintro _ _ _ ⟨⟩
    exact offering_apart loose
  refine ⟨⟨⟨?_, bound _ _ (by decide), trivial⟩, ?_⟩,
    ⟨⟨bound _ _ (by decide), ?_, bound _ _ (by decide), trivial⟩, ?_⟩,
    ⟨bound _ _ (by decide), bound _ _ (by decide), trivial⟩, ?_⟩
  · rintro _ _ _ ⟨⟩
    exact offering_apart (by decide)
  · exact fun fresh => fresh.2.1 40000 rfl (by decide)
  · rintro _ _ _ ⟨⟩
  · exact fun fresh => fresh.2.2.1 40000 rfl (by decide)
  · exact fun fresh => fresh.2.1 40000 rfl (by decide)

end PortUse

/-! ## The answers of the machine -/

namespace Machine

variable {m : Machine} {host other : String} {port : UInt16}

/-- The sockets are held in the order of their ports. -/
def Ordered (m : Machine) : Prop :=
  (m.bound.map (·.1)).Pairwise (· ≤ ·)

/-- What is in front of the place of a port in an order is less, and what is behind it is not. -/
theorem parted {α : Type} (key : α → UInt16) {l : List α} (port : UInt16)
    (ordered : (l.map key).Pairwise (· ≤ ·)) :
    (∀ a ∈ l.takeWhile (key · < port), key a < port) ∧
      ∀ a ∈ l.dropWhile (key · < port), port ≤ key a := by
  constructor
  · intro a member
    simpa using List.all_eq_true.1 (List.all_takeWhile (p := (key · < port)) (l := l)) a member
  · induction l with
    | nil => intro a member; cases member
    | cons first rest ih =>
      rw [List.map_cons, List.pairwise_cons] at ordered
      rw [List.dropWhile_cons]
      split
      · exact ih ordered.2
      · rename_i late
        have least : port ≤ key first := by simpa using late
        refine List.forall_mem_cons.2 ⟨least, fun a member => UInt16.le_trans least ?_⟩
        exact ordered.1 _ (List.mem_map_of_mem member)

theorem ordered_occupy (ordered : m.Ordered) : (m.occupy port other).Ordered := by
  have ports : (m.bound.map Prod.fst).Pairwise (· ≤ ·) := ordered
  obtain ⟨below, above⟩ := parted Prod.fst port ports
  have split : m.bound = m.bound.takeWhile (·.1 < port) ++ m.bound.dropWhile (·.1 < port) :=
    List.takeWhile_append_dropWhile.symm
  rw [Ordered, split, List.map_append, List.pairwise_append] at ordered
  obtain ⟨front, back, -⟩ := ordered
  rw [Ordered, occupy, List.map_append, List.map_cons, List.pairwise_append, List.pairwise_cons]
  simp only [List.forall_mem_cons, List.forall_mem_map]
  refine ⟨front, ⟨above, back⟩, fun socket member => ?_⟩
  have less := below socket member
  refine ⟨UInt16.le_of_lt less, fun later behind => UInt16.le_of_lt ?_⟩
  exact UInt16.lt_of_lt_of_le less (above later behind)

/-- What is found among every other port from the least one on is not one of the ordered ports. -/
theorem firstApart_not_mem {ports : List UInt16} {count : Nat} {least : UInt16}
    (ordered : ports.Pairwise (· ≤ ·)) (fits : least.toNat + 2 * count < UInt16.size)
    (found : firstApart ports least count = some port) : least ≤ port ∧ port ∉ ports := by
  induction count generalizing ports least with
  | zero => cases found
  | succ count ih =>
    obtain ⟨below, above⟩ := parted id least (by rwa [List.map_id])
    have split : ports = ports.takeWhile (· < least) ++ ports.dropWhile (· < least) :=
      List.takeWhile_append_dropWhile.symm
    rw [firstApart] at found
    rw [split, List.pairwise_append] at ordered
    simp only [id] at below above
    rw [split, List.mem_append, not_or]
    cases rest : ports.dropWhile (· < least) with
    | nil =>
      rw [rest] at found
      cases found
      exact ⟨UInt16.le_refl _, fun member => absurd (below _ member) (UInt16.lt_irrefl _), nofun⟩
    | cons first after =>
      rw [rest] at found ordered above
      obtain ⟨-, back, -⟩ := ordered
      obtain ⟨later, back⟩ := List.pairwise_cons.1 back
      obtain ⟨start, -⟩ := List.forall_mem_cons.1 above
      have notBelow (high : least ≤ port) : port ∉ ports.takeWhile (· < least) :=
        fun member => UInt16.not_lt.2 high (below port member)
      simp only at found
      split at found
      · rename_i same
        have room : (least + 2).toNat = least.toNat + 2 := by
          rw [UInt16.toNat_add]
          exact Nat.mod_eq_of_lt (by change least.toNat + 2 < UInt16.size; omega)
        obtain ⟨high, absent⟩ := ih back (by omega) found
        rw [UInt16.le_iff_toNat_le, room] at high
        have beyond : least < port := UInt16.lt_iff_toNat_lt.2 (by omega)
        refine ⟨UInt16.le_of_lt beyond, notBelow (UInt16.le_of_lt beyond), ?_⟩
        rw [List.mem_cons, not_or]
        exact ⟨fun equal => UInt16.lt_irrefl _ (equal.trans same ▸ beyond), absent⟩
      · rename_i different
        cases found
        refine ⟨UInt16.le_refl _, notBelow (UInt16.le_refl _), ?_⟩
        rw [List.mem_cons, not_or]
        refine ⟨Ne.symm different, fun member => different ?_⟩
        exact UInt16.le_antisymm (later _ member) start

/-- The machine of the simulation answers a host only with ports that its sockets do not keep from
the host. -/
theorem source_apart (ordered : m.Ordered) : (m.source host).Apart m host := by
  have subset : ∀ p ∈ m.taken host, p ∈ m.bound.map (·.1) := by
    intro p member
    obtain ⟨other, bound, -⟩ := mem_taken.1 member
    exact List.mem_map_of_mem (f := (·.1)) bound
  have taken : (m.taken host).Pairwise (· ≤ ·) :=
    ordered.sublist (List.filter_sublist.map _)
  have room : ∀ least ∈ offered, least.toNat + 2 * classSize < UInt16.size := by
    simp [offered, classSize, UInt16.size]
  rw [source]
  split
  · refine ⟨fun port offered => ?_, fun port free => ?_⟩
    · obtain ⟨least, member, found⟩ := List.exists_of_findSome?_eq_some offered
      have fits := room least member
      obtain found | ⟨-, found⟩ := Option.or_eq_some_iff.1 found
      · exact fun member => (firstApart_not_mem ordered fits found).2 (subset port member)
      · exact (firstApart_not_mem taken fits found).2
    · simpa using free
  · exact ⟨nofun, nofun⟩

end Machine

namespace Simulation

/-- Two identities get the same port only on hosts that can share it. The system may offer any ports
that the sockets of the simulation do not keep from the host. -/
theorem bindAll_apart {answers : PortAnswers}
    (honest : ∀ m : Machine, m.Ordered → ∀ host, (answers m host).Apart m host)
    {ports after : PortAllocator} {machine : Machine}
    {bound rest identities : List NodeIdentity} (ordered : machine.Ordered)
    (sockets : ∀ node ∈ bound, (node.port, node.host) ∈ machine.bound)
    (apart : bound.Pairwise fun node earlier =>
      Machine.overlaps node.host earlier.host → node.port ≠ earlier.port)
    (ended : bindAll answers ports machine bound rest = .ok (identities, after)) :
    identities.Pairwise fun earlier node =>
      Machine.overlaps node.host earlier.host → node.port ≠ earlier.port := by
  induction rest generalizing ports machine bound with
  | nil =>
    cases ended
    exact List.pairwise_reverse.2 apart
  | cons identity rest ih =>
    obtain ⟨⟨port, next⟩, given, ended⟩ := bind_eq_ok ended
    have offers : (answers machine identity.host).Apart machine identity.host :=
      honest machine ordered identity.host
    have loose : port ∉ machine.taken identity.host := by
      obtain ⟨-, ⟨-, offered⟩ | ⟨free, -⟩⟩ := PortAllocator.bind_ok given
      · exact offers.any port offered
      · exact offers.free port free
    refine ih (Machine.ordered_occupy ordered) ?_ ?_ ended
    · refine List.forall_mem_cons.2 ⟨Machine.mem_bound_occupy.2 (.inl rfl), fun node member => ?_⟩
      exact Machine.mem_bound_occupy.2 (.inr (sockets node member))
    · refine List.pairwise_cons.2 ⟨fun earlier member inWay same => ?_, apart⟩
      have shared : (port, earlier.host) ∈ machine.bound :=
        (show port = earlier.port from same) ▸ sockets earlier member
      exact loose (Machine.mem_taken.2 ⟨earlier.host, shared, inWay⟩)

/-- Nodes that can start have the settings that are made for them. -/
theorem nodes_of_mapM {base : NodeConfig} {identities : List NodeIdentity}
    {nodes : List NodeConfig} (checked : identities.mapM (checkedConfig base) = .ok nodes) :
    nodes = identities.map (nodeConfig base) := by
  induction identities generalizing nodes with
  | nil =>
    cases checked
    rfl
  | cons identity rest ih =>
    rw [List.mapM_cons] at checked
    obtain ⟨node, here, checked⟩ := bind_eq_ok checked
    obtain ⟨others, there, same⟩ := bind_eq_ok checked
    cases same
    rw [checkedConfig] at here
    split at here
    · cases here
    · cases here
      rw [List.map_cons, ← ih there]

/-- The nodes of a simulation that has started have ports of their own, also those that have none of
their choice. -/
theorem start_apart {scenario : Scenario} {base : NodeConfig} {answers : PortAnswers}
    {sim : Simulation}
    (honest : ∀ m : Machine, m.Ordered → ∀ host, (answers m host).Apart m host)
    (started : start scenario base answers = .ok sim) :
    sim.nodes.Pairwise fun earlier node =>
      Machine.overlaps node.host earlier.host → node.port ≠ earlier.port := by
  rw [start] at started
  obtain ⟨⟨⟩, -, started⟩ := bind_eq_ok started
  obtain ⟨referenced, -, started⟩ := bind_eq_ok started
  obtain ⟨⟨identities, ports⟩, bound, started⟩ := bind_eq_ok started
  obtain ⟨nodes, checked, same⟩ := bind_eq_ok started
  cases same
  rw [nodes_of_mapM checked, List.pairwise_map]
  have unbound : Machine.Ordered {} := List.Pairwise.nil
  exact bindAll_apart honest unbound (List.forall_mem_nil _) List.Pairwise.nil bound

/-- So do the nodes that are started on the machine above. -/
theorem start_source_apart {scenario : Scenario} {base : NodeConfig} {sim : Simulation}
    (started : start scenario base Machine.source = .ok sim) :
    sim.nodes.Pairwise fun earlier node =>
      Machine.overlaps node.host earlier.host → node.port ≠ earlier.port :=
  start_apart (fun _ ordered _ => Machine.source_apart ordered) started

end Simulation

end Relay
